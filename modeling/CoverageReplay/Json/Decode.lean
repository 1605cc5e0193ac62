import CoverageReplay.Json.Basic
import CoverageReplay.Text.Number

/-!
# Values out of JSON

Readers for the shapes that documents are made of. A record is an object, or an array of its fields
in their declared order. Of an object, fields that the record does not know are skipped, and a field
that it knows may stand there once. A fixed name is a text, or an object whose only field has that
name and no value.
-/

namespace CoverageReplay.Json

/-- A count of at most `bound`: neither sign nor point nor exponent. -/
def nat? (bound : Nat) : Json → Option Nat
  | .number ⟨false, whole, [], none⟩ =>
    (Text.digits? whole).bind fun n => if n ≤ bound then some n else none
  | _ => none

/-- A word of 32 bits. -/
def word32? (v : Json) : Option UInt32 := (v.nat? 4294967295).map UInt32.ofNat

/-- A count of 64 bits. -/
def count? (v : Json) : Option Nat := v.nat? 18446744073709551615

/-- A byte. -/
def byte? (v : Json) : Option UInt8 := (v.nat? 255).map UInt8.ofNat

/-- A truth value. -/
def bool? : Json → Option Bool
  | .bool b => some b
  | _ => none

/-- A text. -/
def text? : Json → Option String
  | .text s => some s
  | _ => none

/-- The items of an array, each read by `item?`. -/
def list? {α : Type} (item? : Json → Option α) : Json → Option (List α)
  | .array items => items.mapM item?
  | _ => none

/-- The fields of an object, each value read by `item?`. -/
def entries? {α : Type} (item? : Json → Option α) : Json → Option (List (String × α))
  | .object fields => fields.mapM fun (key, v) => (item? v).map (key, ·)
  | _ => none

/-- A fixed name. -/
def name? : Json → Option String
  | .text s => some s
  | .object [(key, .null)] => some key
  | _ => none

/-- The value of a field that may stand there once: `none` when it stands there twice. -/
def single? (name : String) (fields : List (String × Json)) : Option (Option Json) :=
  match fields.filter fun f => f.1 = name with
  | [] => some none
  | [(_, v)] => some (some v)
  | _ => none

/-- The fields of a record, by the names that it knows, as far as they are given. -/
def record? (names : List String) : Json → Option (List (Option Json))
  | .object fields => names.mapM fun name => single? name fields
  | .array items =>
    if items.length ≤ names.length then
      some (items.map some ++ List.replicate (names.length - items.length) none)
    else none
  | _ => none

/-- A field that must be given. -/
def need {α : Type} (read? : Json → Option α) (field : Option Json) : Option α :=
  field.bind read?

/-- A field with a value of its own when it is not given. -/
def orElse {α : Type} (read? : Json → Option α) (default : α) : Option Json → Option α
  | none => some default
  | some v => read? v

end CoverageReplay.Json
