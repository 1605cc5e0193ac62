/-!
# Unsigned numbers in decimal

A number is an optional plus sign and at least one ASCII digit, leading zeros allowed, whose value
does not exceed a bound. Nothing else is a number: no blanks, no minus sign, no separators.
-/

namespace CoverageReplay.Text

/-- The value of one ASCII digit. -/
def digit? (c : Char) : Option Nat :=
  if '0' ≤ c ∧ c ≤ '9' then some (c.toNat - '0'.toNat) else none

/-- The value of a run of digits that continues a number of value `n`. -/
def digitsFrom? (n : Nat) : List Char → Option Nat
  | [] => some n
  | c :: cs => (digit? c).bind fun d => digitsFrom? (10 * n + d) cs

/-- The value of a non-empty run of digits. -/
def digits? (cs : List Char) : Option Nat :=
  if cs.isEmpty then none else digitsFrom? 0 cs

/-- The value of an unsigned number that is at most `bound`. -/
def number? (bound : Nat) (cs : List Char) : Option Nat :=
  let body := match cs with
    | '+' :: rest => rest
    | _ => cs
  (digits? body).bind fun n => if n ≤ bound then some n else none

/-- The value of an unsigned number of 32 bits. -/
def word32? (cs : List Char) : Option UInt32 :=
  (number? 4294967295 cs).map UInt32.ofNat

/-- The decimal digits of a number. -/
def decimal (n : Nat) : List Char :=
  Nat.toDigits 10 n

end CoverageReplay.Text
