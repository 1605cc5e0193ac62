import CoverageReplay.Text.Number

/-!
# The float nearest to a decimal

A decimal text is an optional sign, digits with an optional point among, before or after them, and
an optional exponent. `nearest?` gives the float nearest to it, of two equally near ones the one
with an even significand; a decimal that is nearest to infinity has none.

Everything up to the bits of the float is computed with natural numbers.
-/

namespace CoverageReplay.Decimal

/-- The integer nearest to `num / den`, of two equally near ones the even one. -/
def roundEven (num den : Nat) : Nat :=
  let down := num / den
  let rest := 2 * (num - down * den)
  if rest < den then down
  else if den < rest then down + 1
  else down + down % 2

/-- The exponent of the last bit that a float near `num / den` has: fifty-two below that of the
first bit, but at least that of the smallest float. -/
def lastBit (num den : Nat) : Int :=
  let first : Int := (num.log2 : Int) - den.log2
  let reached := den * Nat.pow 2 first.toNat ≤ num * Nat.pow 2 (-first).toNat
  max (-1074) (first - if reached then 52 else 53)

/-- The bits of the float nearest to `num / den`. A significand that rounds up to a power of two
carries into the exponent. -/
def nearestBits (num den : Nat) : Nat :=
  let e := lastBit num den
  (e + 1074).toNat * 4503599627370496 +
    roundEven (num * Nat.pow 2 (-e).toNat) (den * Nat.pow 2 e.toNat)

/-- The float nearest to `digits · 10^exponent`. -/
def nearestOf? (negative : Bool) (digits : Nat) (exponent : Int) : Option Float :=
  let places : Int := (Nat.toDigits 10 digits).length + exponent
  let sign := if negative then 9223372036854775808 else 0
  if digits = 0 || places < -400 then some (.ofBits (.ofNat sign))
  else if 400 < places then none
  else
    let bits := nearestBits (digits * Nat.pow 10 exponent.toNat) (Nat.pow 10 (-exponent).toNat)
    if bits < 9218868437227405312 then some (.ofBits (.ofNat (sign + bits))) else none

/-- Whether a number has a minus sign, and the text after its sign. -/
def signed : List Char → Bool × List Char
  | '-' :: cs => (true, cs)
  | '+' :: cs => (false, cs)
  | cs => (false, cs)

/-- The value of the text after the digits. -/
def exponent? : List Char → Option Int
  | [] => some 0
  | c :: cs =>
    if c = 'e' || c = 'E' then
      let (negative, digits) := signed cs
      (Text.digits? digits).map fun n => if negative then -(n : Int) else n
    else none

/-- The float nearest to a decimal text. -/
def nearest? (text : List Char) : Option Float := do
  let (negative, text) := signed text
  let whole := text.takeWhile Char.isDigit
  let rest := text.dropWhile Char.isDigit
  let (fraction, rest) := match rest with
    | '.' :: cs => (cs.takeWhile Char.isDigit, cs.dropWhile Char.isDigit)
    | _ => ([], rest)
  let digits ← Text.digits? (whole ++ fraction)
  let exponent ← exponent? rest
  nearestOf? negative digits (exponent - fraction.length)

end CoverageReplay.Decimal
