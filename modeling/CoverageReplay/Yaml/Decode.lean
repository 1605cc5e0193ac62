import CoverageReplay.Decimal.Nearest
import CoverageReplay.Yaml.Document

/-!
# Values out of YAML

Readers for the shapes that settings are made of. A scalar is a number or a truth value when it is
plain, or when it is a literal block with the tag of its type. A record is a mapping whose keys are
scalars, or nothing at all; keys that it does not know are skipped, and a key that it knows may
stand there once.
-/

namespace CoverageReplay.Yaml

namespace Scalar

/-- Whether a scalar may be a value of a type with an address of its own. -/
def mayBe (s : Scalar) (type : String) : Bool :=
  s.style = .plain || s.style = .literal && s.tag = some ("tag:yaml.org,2002:" ++ type)

/-- The value of digits with the mark of their base. A number in base ten does not begin with a
zero, except for zero. -/
def count? (digits : List Char) : Option Nat :=
  let n? := match digits with
    | '0' :: 'x' :: rest => Text.digitsIn? 16 rest
    | '0' :: 'o' :: rest => Text.digitsIn? 8 rest
    | '0' :: 'b' :: rest => Text.digitsIn? 2 rest
    | '0' :: _ :: _ => none
    | _ => Text.digitsIn? 10 digits
  n?.filter fun n => n ≤ 18446744073709551615

/-- The text of a number without its plus sign; a second sign is refused. -/
def withoutPlus? : List Char → Option (List Char)
  | '+' :: rest => if rest.head? = some '+' || rest.head? = some '-' then none else some rest
  | cs => some cs

/-- The float that a text stands for: infinite, not a number, or a decimal in the range of
floats. -/
def float? (text : List Char) : Option Float := do
  let number ← withoutPlus? text
  let isOneOf := fun (cs : List Char) (names : List String) => names.contains (String.ofList cs)
  if isOneOf number [".inf", ".Inf", ".INF"] then some (1.0 / 0.0)
  else if isOneOf text ["-.inf", "-.Inf", "-.INF"] then some (-1.0 / 0.0)
  else if isOneOf text [".nan", ".NaN", ".NAN"] then some (0.0 / 0.0)
  else Decimal.nearest? number

end Scalar

namespace Document

/-- The scalar that a node is. -/
def scalar? (d : Document) (n : Node) : Option Scalar := do
  match ← d.resolve n with
  | .scalar s => some s
  | _ => none

/-- A count of 64 bits. -/
def count? (d : Document) (n : Node) : Option Nat := do
  let s ← d.scalar? n
  if s.mayBe "int" then Scalar.count? (← Scalar.withoutPlus? s.text.toList) else none

/-- A float. -/
def float? (d : Document) (n : Node) : Option Float := do
  let s ← d.scalar? n
  if s.mayBe "float" then Scalar.float? s.text.toList else none

/-- A truth value. -/
def bool? (d : Document) (n : Node) : Option Bool := do
  let s ← d.scalar? n
  if !s.mayBe "bool" then none
  else if ["true", "True", "TRUE"].contains s.text then some true
  else if ["false", "False", "FALSE"].contains s.text then some false
  else none

/-- The fields of a mapping, or of nothing at all. -/
def fields? (d : Document) (n : Node) : Option (List (String × Node)) := do
  match ← d.resolve n with
  | .mapping pairs => pairs.mapM fun (k, v) => (d.scalar? k).map fun s => (s.text, v)
  | .scalar s => if s.text = "" && s.style = .plain then some [] else none
  | _ => none

/-- The value of a field that may stand there once, and its standard value when it is missing. -/
def field? {α : Type} (fields : List (String × Node)) (name : String) (read? : Node → Option α)
    (default : α) : Option α :=
  match fields.filter fun f => f.1 = name with
  | [] => some default
  | [(_, v)] => read? v
  | _ => none

end Document

end CoverageReplay.Yaml
