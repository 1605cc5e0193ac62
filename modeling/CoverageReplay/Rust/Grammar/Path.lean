import CoverageReplay.Rust.Grammar.Attribute

/-!
# Paths and their arguments
-/

namespace CoverageReplay.Rust.Grammar

open Rule

/-- Whether a call begins here, with or without `::` before it. -/
def callNext (ts : List TokenTree) : Bool :=
  groupNext .paren ts || (markNext "::" ts && groupNext .paren (skip (skip ts)))

/-- The value of a const argument: a literal, a name or a block. -/
def constArgument (self : Rules) : Rule Unit := do
  let ts ← ahead
  if literalNext ts then literal
  else if nameNext ts then take 1
  else
    let _ ← block self true

/-- The result of a function: an arrow and a type, or nothing. Tells whether the type stands in
parentheses or is absent. -/
def returnType (self : Rules) (plus : Bool) : Rule Bool := do
  if ← mark? "->" then
    return (← self.type plus) = .paren
  else return true

/-- The parameter types and the result of a function trait that is written like a call. -/
def callArguments (self : Rules) : Rule Bool := do
  let _ ← mark? "::"
  let _ ← inside .paren (commaList (self.type true))
  returnType self false

/-- Bounds with `+` between them, up to what `stop` tells. -/
def bounds (self : Rules) (stop : List TokenTree → Bool) : Rule Unit := do
  let _ ← chain stop "+" (self.bound false true)

/-- One argument in angle brackets. -/
def genericArgument (self : Rules) : Rule Unit := do
  let ts ← ahead
  if lifetimeNext ts && !markNext "+" (skip ts) then lifetime
  else if literalNext ts || groupNext .brace ts then constArgument self
  else if (← self.type true) = .path true then
    if ← mark? "=" then
      let ts ← ahead
      if literalNext ts || groupNext .brace ts then constArgument self
      else
        let _ ← self.type true
    else if ← mark? ":" then bounds self fun ts => markNext "," ts || markNext ">" ts

/-- Arguments in angle brackets; gives their number. -/
def angleArguments (self : Rules) : Rule Nat := do
  mark "<"
  let arguments ← list (markNext ">") "," (genericArgument self)
  mark ">"
  return arguments.length

/-- A segment of a path. In an expression, arguments need a `::` before them. -/
def segment (self : Rules) (inExpression : Bool) : Rule PathShape := do
  let bare : PathShape := ⟨false, false, 1, true, true, false⟩
  let ts ← ahead
  if pathWordNext ts || wordNext "try" ts then
    take 1
    return bare
  else
    require (nameNext ts || wordNext "Self" ts)
    take 1
    let ts ← ahead
    if (!inExpression && markNext "<" ts && !markNext "<=" ts) ||
        (markNext "::" ts && markNext "<" (skip (skip ts))) then
      let _ ← mark? "::"
      let count ← angleArguments self
      return { bare with plain := false, lastBare := count = 0 }
    else return bare

/-- The segments that follow a path, in at most `rounds` rounds. When `beforeCall` is set, a `::`
before parentheses does not go on the path. -/
def moreSegments (self : Rules) (inExpression beforeCall : Bool) (path : PathShape) :
    Nat → Rule PathShape
  | 0 => fail
  | rounds + 1 => do
    let ts ← ahead
    if markNext "::" ts && !(beforeCall && groupNext .paren (skip (skip ts))) then
      take 2
      let last ← segment self inExpression
      moreSegments self inExpression beforeCall
        { path with
          segments := path.segments + 1
          plain := path.plain && last.plain
          lastBare := last.lastBare
          lastCalled := last.lastCalled } rounds
    else return path

/-- A path. -/
def path (self : Rules) (inExpression : Bool) : Rule PathShape := do
  let rooted ← mark? "::"
  let first ← segment self inExpression
  moreSegments self inExpression true { first with rooted := rooted } ((← ahead).length + 1)

/-- A path that may begin with a type in angle brackets. -/
def qualifiedPath (self : Rules) (inExpression : Bool) : Rule PathShape := do
  if ← mark? "<" then
    let _ ← self.type true
    if ← word? "as" then
      let _ ← path self false
    mark ">"
    mark "::"
    let first ← segment self inExpression
    moreSegments self inExpression false { first with qualified := true } ((← ahead).length + 1)
  else path self inExpression

/-- The calls that follow a path in a type, in at most `rounds` rounds. -/
def pathCalls (self : Rules) (shape : PathShape) : Nat → Rule PathShape
  | 0 => fail
  | rounds + 1 => do
    if shape.lastBare && callNext (← ahead) then
      let goesOn ← callArguments self
      let called := { shape with plain := false, lastBare := false, lastCalled := true }
      if goesOn then
        let shape ← moreSegments self false true called ((← ahead).length + 1)
        pathCalls self shape rounds
      else return called
    else return shape

/-- A path in a type. -/
def typePath (self : Rules) : Rule PathShape := do
  let shape ← qualifiedPath self false
  pathCalls self shape ((← ahead).length + 1)

/-- A path in a trait bound, with at most one call at its end. -/
def boundPath (self : Rules) : Rule Unit := do
  let shape ← path self false
  if shape.lastBare && callNext (← ahead) then
    let _ ← callArguments self

end CoverageReplay.Rust.Grammar
