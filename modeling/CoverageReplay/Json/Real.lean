import CoverageReplay.Decimal.Shortest
import CoverageReplay.Json.Basic
import CoverageReplay.Text.Number

/-!
# Floats in JSON

Written numbers have the fewest digits that read back. They are positional, with at least one digit
on either side of the point, from `1e-5` up to below `1e16`; others have an exponent with a sign. A
float that is not finite is written as `null`.

Reading takes as many leading digits as fit a word of 64 bits, drops the others, and scales by a
power of ten in one multiplication or division, two divisions for very small numbers. So the last
bit of a number with many digits may differ from the nearest float. A number too large for a float
has no value.
-/

namespace CoverageReplay.Json

open Decimal

/-! ## Writing -/

/-- The parts of a number whose digits are `digits`, with the point after `point` of them. -/
def layOut (negative : Bool) (digits : List Char) (point : Int) : Number :=
  if digits.length ≤ point && point ≤ 16 then
    ⟨negative, digits ++ List.replicate (point.toNat - digits.length) '0', ['0'], none⟩
  else if 0 < point && point ≤ 16 then
    ⟨negative, digits.take point.toNat, digits.drop point.toNat, none⟩
  else if -5 < point && point ≤ 0 then
    ⟨negative, ['0'], List.replicate (-point).toNat '0' ++ digits, none⟩
  else
    ⟨negative, digits.take 1, digits.drop 1, some (point < 1, Text.decimal (point - 1).natAbs)⟩

/-- A float. -/
def ofFloat (x : Float) : Json :=
  let bits := x.toBits.toNat
  let negative := 9223372036854775808 ≤ bits
  let magnitude := bits % 9223372036854775808
  if 9218868437227405312 ≤ magnitude then .null
  else if magnitude = 0 then .number ⟨negative, ['0'], ['0'], none⟩
  else
    let d := shortest (.ofBits magnitude)
    let digits := Text.decimal d.digits
    .number (layOut negative digits (digits.length + d.exponent))

/-! ## Reading -/

/-- The leading digits that fit 64 bits, after digits of value `n`, with their number. -/
def takeDigits (n : Nat) : List Char → Nat × Nat
  | [] => (n, 0)
  | c :: cs =>
    let m := 10 * n + (c.toNat - '0'.toNat)
    if m ≤ 18446744073709551615 then
      let (value, count) := takeDigits m cs
      (value, count + 1)
    else (n, 0)

/-- A power of ten as a float. -/
def powerOfTen (n : Nat) : Float := Float.ofScientific 1 false n

/-- A float times a power of ten, unless that is too large. -/
def scaleUp? (x : Float) (n : Nat) : Option Float :=
  if n ≤ 308 then
    let scaled := x * powerOfTen n
    if scaled.isInf then none else some scaled
  else if x == 0.0 then some x else none

/-- A float divided by a power of ten. -/
def scaleDown (x : Float) (n : Nat) : Float :=
  if n ≤ 308 then x / powerOfTen n
  else if n ≤ 616 then x / powerOfTen 308 / powerOfTen (n - 308)
  else 0.0

/-- A float times a power of ten with any exponent. -/
def scaleTen? (x : Float) (exponent : Int) : Option Float :=
  if exponent = 0 then some x
  else if 0 < exponent then scaleUp? x exponent.toNat
  else some (scaleDown x exponent.natAbs)

/-- The value of an exponent. -/
def exponentOf : Option (Bool × List Char) → Int
  | none => 0
  | some (negative, digits) =>
    let n := (Text.digits? digits).getD 0
    if negative then -n else n

/-- The float that a number stands for. -/
def Number.toFloat? (n : Number) : Option Float :=
  let (wholeValue, taken) := takeDigits 0 n.whole
  let (value, places) := takeDigits wholeValue n.fraction
  let exponent := (n.whole.length - taken : Nat) - (places : Int) + exponentOf n.exponent
  (scaleTen? (UInt64.ofNat value).toFloat exponent).map fun x => if n.negative then -x else x

/-- The float that a value stands for. -/
def float? : Json → Option Float
  | .number n => n.toFloat?
  | _ => none

mutual

/-- Whether a value can be kept whole: no text in it is garbled, and no number too large for a
float. -/
def isStorable : Json → Bool
  | .number n => n.toFloat?.isSome
  | .array items => itemsStorable items
  | .object fields => fieldsStorable fields
  | .garbled => false
  | _ => true

/-- Whether some values can be kept whole. -/
def itemsStorable : List Json → Bool
  | [] => true
  | v :: rest => v.isStorable && itemsStorable rest

/-- Whether the values of some fields can be kept whole. -/
def fieldsStorable : List (String × Json) → Bool
  | [] => true
  | (_, v) :: rest => v.isStorable && fieldsStorable rest

end

end CoverageReplay.Json
