import CoverageReplay.Rust.Grammar.Generics

/-!
# Types
-/

namespace CoverageReplay.Rust.Grammar

open Rule

/-- Whether a word comes next that begins a function type. -/
def functionTypeNext (ts : List TokenTree) : Bool :=
  wordNext "fn" ts || wordNext "unsafe" ts || wordNext "extern" ts

/-- The mark of a foreign function, with the name of its calling convention, if there is one. -/
def callingConvention : Rule Unit := do
  if ← word? "extern" then
    if stringNext (← ahead) then take 1

/-- What a parameter of a function type may bind, before its type. -/
def parameterName : Rule Unit := do
  let ts ← ahead
  if (nameNext ts || wordNext "_" ts) && markNext ":" (skip ts) && !markNext "::" (skip ts) then
    take 2

/-- A parameter of a function type. A receiver may stand only in the first place. -/
def functionTypeParameter (self : Rules) (first : Bool) : Rule Unit := do
  outerAttributes self
  let mutableSelf ← do
    let ts ← ahead
    if first && wordNext "mut" ts && wordNext "self" (skip ts) then
      take 1
      pure true
    else pure false
  let ts ← ahead
  let isSelf := first && wordNext "self" ts
  if (nameNext ts || wordNext "_" ts || isSelf) && markNext ":" (skip ts) &&
      !markNext "::" (skip ts) then
    take 2
    let ts ← ahead
    if first && !isSelf && wordNext "mut" ts && wordNext "self" (skip ts) then take 2
    else
      let _ ← self.type true
  else if mutableSelf then word "self"
  else
    let _ ← self.type true

/-- The parameters of a function type, in at most `rounds` rounds. Dots for further parameters end
them. -/
def functionTypeParameters (self : Rules) (first : Bool) : Nat → Rule Unit
  | 0 => fail
  | rounds + 1 => do
    if ← atEnd then return
    outerAttributes self
    let ts ← ahead
    if markNext "..." ts ||
        ((nameNext ts || wordNext "_" ts) && markNext ":" (skip ts) &&
          markNext "..." (skip (skip ts))) then
      parameterName
      mark "..."
      let _ ← mark? ","
    else
      functionTypeParameter self first
      if ← atEnd then return
      mark ","
      functionTypeParameters self false rounds

/-- A function type, after the lifetimes declared for it. -/
def functionType (self : Rules) : Rule Unit := do
  let _ ← binder self
  let _ ← word? "unsafe"
  callingConvention
  word "fn"
  inside .paren do functionTypeParameters self true ((← ahead).length + 1)
  let _ ← returnType self false

/-- Further bounds after the first one of a trait object, each after a `+`, in at most `rounds`
rounds. -/
def furtherBounds (self : Rules) : Nat → Rule Unit
  | 0 => fail
  | rounds + 1 => do
    if ← mark? "+" then
      self.bound false false
      furtherBounds self rounds

/-- The bounds after a first path, each after a `+` and the last `+` possibly alone, in at most
`rounds` rounds; gives their number and whether a `+` is left over. -/
def objectBounds (self : Rules) : Nat → Rule (Nat × Bool)
  | 0 => fail
  | rounds + 1 => do
    if ← mark? "+" then
      if boundNext false (← ahead) then
        self.bound false false
        let (count, trailing) ← objectBounds self rounds
        return (count + 1, trailing)
      else return (0, true)
    else return (0, false)

/-- A trait object. -/
def traitObject (self : Rules) (plus : Bool) : Rule Unit := do
  let hasTrait ← boundSequence self plus false false ((← ahead).length + 1)
  require hasTrait

/-- The rest of a tuple of types after the first one. -/
def tupleRest (self : Rules) : Rule Unit := do
  mark ","
  let _ ← commaList (self.type true)

/-- The content of the parentheses of a type. -/
inductive ParenContent where
  /-- A type of the given shape, whatever follows the parentheses. -/
  | closed (shape : TypeShape)
  /-- A single bound with a question mark, which further bounds may follow. -/
  | optionalBound
  /-- A single type, which further bounds may follow. -/
  | single (shape : TypeShape)

/-- Reads the content of the parentheses of a type. -/
def parenContent (self : Rules) : Rule ParenContent := do
  let ts ← ahead
  if ts.isEmpty then return .closed .other
  else if lifetimeNext ts then
    traitObject self true
    return .closed .paren
  else if markNext "?" ts then
    traitBound self false
    return .optionalBound
  else
    let shape ← self.type true
    if markNext "," (← ahead) then
      tupleRest self
      return .closed .other
    else return .single shape

/-- A type in parentheses, or a tuple of types. -/
def parenType (self : Rules) (plus : Bool) : Rule TypeShape := do
  let content ← inside .paren (parenContent self)
  let ts ← ahead
  match content with
  | .closed shape => return shape
  | .optionalBound =>
    furtherBounds self (ts.length + 1)
    return if markNext "+" ts then .other else .bound
  | .single shape =>
    match shape, plus && markNext "+" ts with
    | .path _, true | .bound, true =>
      furtherBounds self (ts.length + 1)
      return .other
    | _, _ => return .paren

/-- A type that begins with a path. -/
def pathType (self : Rules) (plus declared : Bool) : Rule TypeShape := do
  let shape ← typePath self
  if shape.qualified then return .other
  else
    let ts ← ahead
    if markNext "!" ts && !markNext "!=" ts && shape.plain then
      take 1
      let _ ← anyGroup
      return .other
    else if declared || (plus && markNext "+" ts) then
      if plus then
        let (count, trailing) ← objectBounds self (ts.length + 1)
        return if count = 0 && !trailing then .bound else .other
      else return .bound
    else return .path (!shape.rooted && shape.segments = 1 && !shape.lastCalled)

/-- A type; a `+` after it belongs to it only if `plus` is set. -/
def typeRule (self : Rules) (plus : Bool) : Rule TypeShape := do
  let declared ← do
    if wordNext "for" (← ahead) then
      let _ ← binder self
      let ts ← ahead
      require (nameNext ts || functionTypeNext ts || pathWordNext ts || wordNext "Self" ts)
      pure true
    else pure false
  let ts ← ahead
  if groupNext .paren ts then parenType self plus
  else if functionTypeNext ts then
    functionType self
    return .other
  else if nameNext ts || pathWordNext ts || wordNext "Self" ts || markNext "::" ts ||
      markNext "<" ts then
    pathType self plus declared
  else if ← word? "dyn" then
    let _ ← mark? "*"
    traitObject self plus
    return .other
  else if groupNext .bracket ts then
    inside .bracket do
      let _ ← self.type true
      if ← mark? ";" then
        let _ ← self.expression true
    return .other
  else if ← mark? "*" then
    let ts ← ahead
    require (wordNext "const" ts || wordNext "mut" ts)
    take 1
    let _ ← self.type false
    return .other
  else if ← mark? "&" then
    let _ ← lifetime?
    let _ ← word? "mut"
    let _ ← self.type false
    return .other
  else if markNext "!" ts && !markNext "!=" ts then
    take 1
    return .other
  else if ← word? "impl" then
    let hasTrait ← boundSequence self plus true true ((← ahead).length + 1)
    require hasTrait
    return .other
  else if ← word? "_" then return .other
  else if lifetimeNext ts then
    traitObject self true
    return .other
  else fail

end CoverageReplay.Rust.Grammar
