import CoverageReplay.Rust.Grammar.Path

/-!
# Patterns
-/

namespace CoverageReplay.Rust.Grammar

open Rule

/-- A pattern of which nothing else has to be known. -/
def plainPattern : PatternShape := ⟨none, false⟩

/-- Whether `|` comes next and begins no other operator. -/
def alternativeNext (ts : List TokenTree) : Bool :=
  markNext "|" ts && !markNext "||" ts && !markNext "|=" ts

/-- The alternatives after a first one. -/
def furtherAlternatives (self : Rules) : Nat → Rule Unit
  | 0 => fail
  | rounds + 1 => do
    if alternativeNext (← ahead) then
      take 1
      let _ ← self.pattern
      furtherAlternatives self rounds

/-- A pattern with alternatives, a mark of which may stand at its front. -/
def alternatives (self : Rules) : Rule PatternShape := do
  let leading ← mark? "|"
  let first ← self.pattern
  if leading || alternativeNext (← ahead) then
    furtherAlternatives self ((← ahead).length + 1)
    return plainPattern
  else return first

/-- What ends a range pattern without an upper bound. -/
def rangeBoundMissing (ts : List TokenTree) : Bool :=
  ts.isEmpty || markNext "|" ts || markNext "=" ts || (markNext ":" ts && !markNext "::" ts) ||
    markNext "," ts || markNext ";" ts || wordNext "if" ts

/-- A bound of a range pattern; tells whether there is one. -/
def rangeBound (self : Rules) : Rule Bool := do
  let ts ← ahead
  if rangeBoundMissing ts then return false
  else
    if literalNext ts then literal
    else if nameNext ts || markNext "::" ts || markNext "<" ts || pathWordNext ts ||
        wordNext "Self" ts then
      let _ ← qualifiedPath self true
    else
      word "const"
      let _ ← block self true
    return true

/-- The dots of a range; tells whether the range is closed. Three dots make a closed range where
`obsolete` allows them. -/
def rangeDots (obsolete : Bool) : Rule Bool := do
  let ts ← ahead
  if markNext "..=" ts then
    take 3
    return true
  else if markNext "..." ts then
    require obsolete
    take 3
    return true
  else
    mark ".."
    return false

/-- The dots and the upper bound of a range pattern. -/
def rangeRest (self : Rules) : Rule PatternShape := do
  let closed ← rangeDots true
  let bounded ← rangeBound self
  require (bounded || !closed)
  return ⟨none, !bounded⟩

/-- A field of a struct pattern. -/
def fieldPattern (self : Rules) : Rule Unit := do
  let boxed ← word? "box"
  let byRef ← word? "ref"
  let mutable ← word? "mut"
  if boxed || byRef || mutable then
    let _ ← name
  else
    let ts ← ahead
    match ts with
    | .literal text _ :: _ =>
      require (isIndexText text)
      take 1
      mark ":"
      let _ ← alternatives self
    | _ =>
      let _ ← name
      if ← mark? ":" then
        let _ ← alternatives self

/-- The fields of a struct pattern, in at most `rounds` rounds. Dots end them. -/
def fieldPatterns (self : Rules) : Nat → Rule Unit
  | 0 => fail
  | rounds + 1 => do
    if ← atEnd then return
    outerAttributes self
    if ← mark? ".." then return
    fieldPattern self
    if ← atEnd then return
    mark ","
    fieldPatterns self rounds

/-- A pattern that begins with a path. -/
def pathPattern (self : Rules) : Rule PatternShape := do
  let shape ← qualifiedPath self true
  let ts ← ahead
  if !shape.qualified && markNext "!" ts && !markNext "!=" ts && shape.plain then
    take 1
    let _ ← anyGroup
    return plainPattern
  else if groupNext .brace ts then
    inside .brace do fieldPatterns self ((← ahead).length + 1)
    return plainPattern
  else if groupNext .paren ts then
    let _ ← inside .paren (commaList (alternatives self))
    return plainPattern
  else if markNext ".." ts then rangeRest self
  else return plainPattern

/-- Whether a name begins a pattern that is more than the name. -/
def compoundNext (ts : List TokenTree) : Bool :=
  let second := skip ts
  nameNext ts &&
    (markNext "::" second || markNext "!" second || groupNext .brace second ||
      groupNext .paren second || markNext ".." second)

/-- A pattern without alternatives. -/
def patternRule (self : Rules) : Rule PatternShape := do
  let ts ← ahead
  if compoundNext ts || (wordNext "self" ts && markNext "::" (skip ts)) || markNext "::" ts ||
      markNext "<" ts || wordNext "Self" ts || wordNext "super" ts || wordNext "crate" ts then
    pathPattern self
  else if ← word? "_" then return plainPattern
  else if ← word? "box" then
    let _ ← self.pattern
    return plainPattern
  else if markNext "-" ts || literalNext ts || wordNext "const" ts then
    require (← rangeBound self)
    if markNext ".." (← ahead) then rangeRest self
    else return plainPattern
  else if wordNext "ref" ts || wordNext "mut" ts || wordNext "self" ts || nameNext ts then
    let _ ← word? "ref"
    let _ ← word? "mut"
    require (nameNext (← ahead) || wordNext "self" (← ahead))
    let bound ← anyWord
    if ← mark? "@" then
      let _ ← self.pattern
      return plainPattern
    else return ⟨some bound, false⟩
  else if ← mark? "&" then
    let _ ← word? "mut"
    let _ ← self.pattern
    return plainPattern
  else if groupNext .paren ts then
    let _ ← inside .paren (commaList (alternatives self))
    return plainPattern
  else if groupNext .bracket ts then
    let _ ← inside .bracket do
      commaList do
        let shape ← alternatives self
        require (!shape.isOpenRange)
    return plainPattern
  else if markNext ".." ts && !markNext "..." ts then
    let closed ← rangeDots false
    let bounded ← rangeBound self
    require (bounded || !closed)
    return if bounded then ⟨none, true⟩ else ⟨none, false⟩
  else fail

end CoverageReplay.Rust.Grammar
