import CoverageReplay.Rust.Grammar.Path

/-!
# Type parameters, bounds and where clauses
-/

namespace CoverageReplay.Rust.Grammar

open Rule

/-- The lifetimes that bound a lifetime, up to what `stop` tells. -/
def lifetimeBounds (stop : List TokenTree → Bool) : Rule Unit := do
  let _ ← chain stop "+" lifetime

/-- A parameter in angle brackets. A bare low line is a parameter only if `blank` is set. -/
def genericParameter (self : Rules) (blank : Bool) : Rule Unit := do
  outerAttributes self
  let ts ← ahead
  if lifetimeNext ts then
    lifetime
    if ← mark? ":" then lifetimeBounds fun ts => markNext "," ts || markNext ">" ts
  else if nameNext ts then
    take 1
    if ← mark? ":" then
      bounds self fun ts => markNext "," ts || markNext ">" ts || markNext "=" ts
    if ← mark? "=" then
      let _ ← self.type true
  else if wordNext "const" ts then
    take 1
    let _ ← name
    mark ":"
    let _ ← self.type true
    if ← mark? "=" then constArgument self
  else
    require (blank && wordNext "_" ts)
    take 1

/-- Parameters in angle brackets, if there are any; tells whether there are. -/
def genericParameters (self : Rules) : Rule Bool := do
  if ← mark? "<" then
    let _ ← list (markNext ">") "," (genericParameter self true)
    mark ">"
    return true
  else return false

/-- Lifetimes declared after `for`, if there are any; tells whether there are. -/
def binder (self : Rules) : Rule Bool := do
  if ← word? "for" then
    mark "<"
    let _ ← list (markNext ">") "," (genericParameter self false)
    mark ">"
    return true
  else return false

/-- Whether `<` begins type parameters and not a qualified path. -/
def parametersNext (ts : List TokenTree) : Bool :=
  let second := skip ts
  let third := skip second
  markNext "<" ts &&
    (markNext ">" second || markNext "#" second || wordNext "const" second ||
      ((lifetimeNext second || nameNext second) &&
        (markNext ">" third || markNext "," third || markNext "=" third ||
          (markNext ":" third && !markNext "::" third))))

/-- A trait with what may stand before it. -/
def traitBound (self : Rules) (consts : Bool) : Rule Unit := do
  let declared ← binder self
  let ts ← ahead
  if groupNext .bracket ts then
    inside .bracket (word "const")
    require consts
  else if wordNext "const" ts then
    take 1
    require consts
  else if markNext "~" ts && wordNext "const" (skip ts) then
    take 2
    require consts
  if ← mark? "?" then
    if !declared then
      let _ ← binder self
  boundPath self

/-- A bound on a type: a lifetime, captured parameters, or a trait. -/
def boundRule (self : Rules) (captures consts : Bool) : Rule Unit := do
  let ts ← ahead
  if lifetimeNext ts then lifetime
  else if wordNext "use" ts then
    require captures
    take 1
    mark "<"
    let _ ← list (markNext ">") "," do
      let ts ← ahead
      if lifetimeNext ts then lifetime
      else
        require (nameNext ts || wordNext "Self" ts)
        take 1
    mark ">"
  else if groupNext .paren ts then inside .paren (traitBound self consts)
  else traitBound self consts

/-- Whether another bound may begin after `+`. -/
def boundNext (consts : Bool) (ts : List TokenTree) : Bool :=
  anyWordNext ts || markNext "::" ts || markNext "?" ts || lifetimeNext ts || groupNext .paren ts ||
    (consts && groupNext .bracket ts)

/-- Bounds with `+` between them, in at most `rounds` rounds; tells whether one is not a
lifetime. -/
def boundSequence (self : Rules) (plus captures consts : Bool) : Nat → Rule Bool
  | 0 => fail
  | rounds + 1 => do
    let ts ← ahead
    let isTrait := !(lifetimeNext ts || wordNext "use" ts)
    self.bound captures consts
    if plus && markNext "+" (← ahead) then
      take 1
      if boundNext consts (← ahead) then
        let others ← boundSequence self plus captures consts rounds
        return isTrait || others
      else return isTrait
    else return isTrait

/-- What ends a where clause or the bounds in it. -/
def whereEnd (ts : List TokenTree) : Bool :=
  ts.isEmpty || groupNext .brace ts || markNext "," ts || markNext ";" ts ||
    (markNext ":" ts && !markNext "::" ts) || markNext "=" ts

/-- One condition of a where clause. -/
def wherePredicate (self : Rules) : Rule Unit := do
  let ts ← ahead
  if lifetimeNext ts && markNext ":" (skip ts) then
    lifetime
    mark ":"
    lifetimeBounds fun ts =>
      ts.isEmpty || groupNext .brace ts || markNext "," ts || markNext ";" ts || markNext ":" ts ||
        markNext "=" ts
  else
    let _ ← binder self
    let _ ← self.type true
    mark ":"
    bounds self whereEnd

/-- A where clause, if there is one. -/
def whereClause (self : Rules) : Rule Bool := do
  if ← word? "where" then
    let _ ← chain whereEnd "," (wherePredicate self)
    return true
  else return false

end CoverageReplay.Rust.Grammar
