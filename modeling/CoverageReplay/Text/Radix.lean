/-!
# Digits in any base up to sixteen

Letters of either case stand for the digits from ten on.
-/

namespace CoverageReplay.Text

/-- The value of one digit in a base. -/
def digitIn? (base : Nat) (c : Char) : Option Nat :=
  let value? :=
    if '0' ≤ c ∧ c ≤ '9' then some (c.toNat - '0'.toNat)
    else if 'a' ≤ c ∧ c ≤ 'f' then some (c.toNat - 'a'.toNat + 10)
    else if 'A' ≤ c ∧ c ≤ 'F' then some (c.toNat - 'A'.toNat + 10)
    else none
  value?.filter fun d => d < base

/-- The value of a run of digits in a base that continues a number of value `n`. -/
def digitsInFrom? (base n : Nat) : List Char → Option Nat
  | [] => some n
  | c :: cs => (digitIn? base c).bind fun d => digitsInFrom? base (base * n + d) cs

/-- The value of a non-empty run of digits in a base. -/
def digitsIn? (base : Nat) (cs : List Char) : Option Nat :=
  if cs.isEmpty then none else digitsInFrom? base 0 cs

end CoverageReplay.Text
