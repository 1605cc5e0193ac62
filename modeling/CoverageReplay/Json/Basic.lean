/-!
# JSON values

Numbers keep their written parts, since one text may stand for a word, a count or a float depending
on who reads it. Objects keep their fields in order and may name a field more than once.

`garbled` stands for a text or an object in which an escape names one half of a surrogate pair
without the other. It is well formed and may be skipped, but it has no value.
-/

namespace CoverageReplay

namespace Json

/-- A number in its written parts. -/
structure Number where
  negative : Bool
  /-- The digits before the point. -/
  whole : List Char
  /-- The digits after the point; none when there is no point. -/
  fraction : List Char
  /-- Whether the exponent is negative, and its digits. -/
  exponent : Option (Bool × List Char)
  deriving DecidableEq, Repr, Inhabited

end Json

/-- A JSON value. -/
inductive Json where
  | null
  | bool (b : Bool)
  | number (n : Json.Number)
  | text (s : String)
  | array (items : List Json)
  | object (fields : List (String × Json))
  | garbled
  deriving Repr, Inhabited

namespace Json

/-- A count. -/
def ofNat (n : Nat) : Json := .number ⟨false, Nat.toDigits 10 n, [], none⟩

/-- Values in a row. -/
def ofList {α : Type} (f : α → Json) (xs : List α) : Json := .array (xs.map f)

mutual

/-- How deep arrays and objects are nested. -/
def depth : Json → Nat
  | .array items => 1 + depthOfItems items
  | .object fields => 1 + depthOfFields fields
  | _ => 0

/-- How deep the deepest of some values is nested. -/
def depthOfItems : List Json → Nat
  | [] => 0
  | v :: rest => max v.depth (depthOfItems rest)

/-- How deep the deepest of some fields is nested. -/
def depthOfFields : List (String × Json) → Nat
  | [] => 0
  | (_, v) :: rest => max v.depth (depthOfFields rest)

end

end Json

end CoverageReplay
