import CoverageReplay.Rust.Rules

/-!
# Plain paths, attributes and blocks
-/

namespace CoverageReplay.Rust.Grammar

open Rule

/-- Whether a word comes next that a plain path may consist of. -/
def plainSegmentNext (ts : List TokenTree) : Bool :=
  nameNext ts || pathWordNext ts || wordNext "Self" ts

/-- Whether an item or expression that begins with a path comes next. -/
def pathNext (ts : List TokenTree) : Bool :=
  nameNext ts || pathWordNext ts || markNext "::" ts

/-- The segments of a path without arguments, in at most `rounds` rounds. -/
def plainSegments : Nat → Rule Unit
  | 0 => fail
  | rounds + 1 => do
    require (plainSegmentNext (← ahead))
    take 1
    if ← mark? "::" then plainSegments rounds

/-- A path without arguments. -/
def plainPath : Rule Unit := do
  let _ ← mark? "::"
  plainSegments ((← ahead).length + 1)

/-- The content of an attribute: a path, alone or with arguments or a value. -/
def attributeContent (self : Rules) : Rule Unit := do
  if wordNext "unsafe" (← ahead) then take 1 else plainPath
  let ts ← ahead
  if groupNext .paren ts || groupNext .bracket ts || groupNext .brace ts then take 1
  else if ← mark? "=" then
    let ts ← ahead
    require (!(markNext "#" ts && groupNext .bracket (skip ts)))
    let _ ← self.expression true

/-- Attributes of what follows. -/
def outerAttributes (self : Rules) : Rule Unit := do
  let _ ← many (fun ts => !markNext "#" ts) do
    mark "#"
    inside .bracket (attributeContent self)

/-- Attributes of what encloses them. -/
def innerAttributes (self : Rules) : Rule Unit := do
  let _ ← many (fun ts => !(markNext "#" ts && markNext "!" (skip ts))) do
    mark "#"
    mark "!"
    inside .bracket (attributeContent self)

/-- A block; attributes of its own may begin it only if `attributes` is set. -/
def block (self : Rules) (attributes : Bool) : Rule CodeBlock := do
  let (statements, opening, closing) ← group .brace do
    if attributes then innerAttributes self
    self.statements
  return .mk opening closing statements

end CoverageReplay.Rust.Grammar
