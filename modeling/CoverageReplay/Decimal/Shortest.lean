/-!
# The shortest decimal of a binary float

A finite float is `m · 2^q`. Of all decimals that round to it, `shortest` gives one with fewest
digits, and of these the nearest to the float; of two equally near ones, that with an even last
digit. Decimals that round to the float are those of the interval between the midpoints to its
neighbours, the ends included when `m` is even.

Everything is computed with natural numbers: the interval is scaled by a power of ten and of two
until its ends, the float and one step of the decimal grid are integers.
-/

namespace CoverageReplay

/-- A decimal `digits · 10^exponent`. -/
structure Decimal where
  digits : Nat
  exponent : Int
  deriving DecidableEq, Repr, Inhabited

namespace Decimal

/-- A positive float `significand · 2^exponent`. -/
structure Binary where
  significand : Nat
  exponent : Int
  /-- Whether the float below is nearer than the float above, as at a power of two. -/
  closerBelow : Bool
  deriving DecidableEq, Repr, Inhabited

namespace Binary

/-- The parts of a finite float that is not zero, from its bits; its sign is left out. -/
def ofBits (bits : Nat) : Binary :=
  let fraction := bits % 4503599627370496
  let biased := bits / 4503599627370496 % 2048
  if biased = 0 then ⟨fraction, -1074, false⟩
  else ⟨4503599627370496 + fraction, (biased : Int) - 1075, fraction == 0 && biased != 1⟩

end Binary

/-- The float, the ends of the interval that rounds to it, and a step of a decimal grid, in one
unit. -/
structure Scaled where
  value : Nat
  low : Nat
  high : Nat
  step : Nat

/-- The float against the grid of the multiples of `10^place`. The unit is a quarter of
`2^exponent`, divided by `10^-place` when that is a whole number. -/
def scale (b : Binary) (place : Int) : Scaled :=
  let lift := Nat.pow 2 b.exponent.toNat * Nat.pow 10 (-place).toNat
  { value := 4 * b.significand * lift
    low := (4 * b.significand - if b.closerBelow then 1 else 2) * lift
    high := (4 * b.significand + 2) * lift
    step := 4 * Nat.pow 2 (-b.exponent).toNat * Nat.pow 10 place.toNat }

/-- The multiple of the step that stands for the float: one of the two next to it, if it lies in the
interval. -/
def pick (even : Bool) (s : Scaled) : Option Nat :=
  let below := s.value / s.step
  let inside := fun n : Nat =>
    if even then s.low ≤ n * s.step && n * s.step ≤ s.high
    else s.low < n * s.step && n * s.step < s.high
  let down := s.value - below * s.step
  let up := (below + 1) * s.step - s.value
  match inside below && below != 0, inside (below + 1) with
  | true, true =>
    if down < up then some below
    else if up < down then some (below + 1)
    else if below % 2 = 0 then some below else some (below + 1)
  | true, false => some below
  | false, true => some (below + 1)
  | false, false => none

/-- The first grid with a hit, from the grid of the multiples of `10^place` to finer ones, `tries`
of them at most. -/
def search (b : Binary) : (tries : Nat) → (place : Int) → Decimal
  | 0, place => ⟨0, place⟩
  | tries + 1, place =>
    match pick (b.significand % 2 == 0) (scale b place) with
    | some n => ⟨n, place⟩
    | none => search b tries (place - 1)

/-- A place at or above that of the first digit: two to the power `n` is less than ten to this
power. -/
def placeAbove (n : Int) : Int := n * 30103 / 100000 + 1

/-- The decimal without its final zeros, of which there are `most` at most. -/
def dropZeros : (most : Nat) → Decimal → Decimal
  | 0, d => d
  | most + 1, d =>
    if d.digits != 0 && d.digits % 10 == 0 then
      dropZeros most ⟨d.digits / 10, d.exponent + 1⟩ else d

/-- The shortest decimal that rounds to a float. -/
def shortest (b : Binary) : Decimal :=
  dropZeros 20 (search b 20 (placeAbove ((b.significand.log2 : Int) + b.exponent)))

end Decimal

end CoverageReplay
