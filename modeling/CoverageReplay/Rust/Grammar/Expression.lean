import CoverageReplay.Rust.Grammar.Generics
import CoverageReplay.Rust.Grammar.Operator
import CoverageReplay.Text.Blank

/-!
# Expressions

An expression that ends with a body of its own (`if`, `match`, loops, blocks) is a complete
statement or match arm, unless a method call, a field or `?` is attached to it (`earlyRule`).
Elsewhere it is an operand like any other (`operandRule`).
-/

namespace CoverageReplay.Rust.Grammar

open Rule

/-! ## Structures -/

/-- The branches of an `if`, in at most `rounds` rounds. -/
def ifRounds (self : Rules) : Nat → Rule Form
  | 0 => fail
  | rounds + 1 => do
    word "if"
    let condition ← tokensOf (self.expression false)
    let yes ← block self false
    if ← word? "else" then
      let ts ← ahead
      if wordNext "if" ts then
        let (chained, tokens) ← withTokens (ifRounds self rounds)
        return .ifThen condition yes (some (.mk tokens chained))
      else
        let (no, tokens) ← withTokens (block self false)
        return .ifThen condition yes (some (.mk tokens (.block false no)))
    else return .ifThen condition yes none

/-- An `if` with its `else` branches. -/
def ifExpression (self : Rules) : Rule Form := do
  ifRounds self ((← ahead).length + 1)

/-- A `for` loop after its label. -/
def forExpression (self : Rules) : Rule Form := do
  word "for"
  let pattern ← tokensOf (alternatives self)
  word "in"
  let source ← tokensOf (self.expression false)
  let body ← block self true
  return .forLoop (pattern ++ source) body

/-- A `while` loop after its label. -/
def whileExpression (self : Rules) : Rule Form := do
  word "while"
  let condition ← tokensOf (self.expression false)
  let body ← block self true
  return .whileLoop condition body

/-- A loop without a condition, after its label. -/
def loopExpression (self : Rules) : Rule Form := do
  word "loop"
  return .loop (← block self true)

/-- What a label may stand before, after the label. -/
def labelledExpression (self : Rules) : Rule Form := do
  lifetime
  mark ":"
  let ts ← ahead
  if wordNext "while" ts then whileExpression self
  else if wordNext "for" ts then forExpression self
  else if wordNext "loop" ts then loopExpression self
  else return .block true (← block self true)

/-- An unsafe block. -/
def unsafeExpression (self : Rules) : Rule Form := do
  word "unsafe"
  return .unsafeBlock (← block self true)

/-- A block that is evaluated at compile time. -/
def constExpression (self : Rules) : Rule Form := do
  word "const"
  let _ ← block self true
  return .flat .flatBlock

/-- A `try` block. -/
def tryExpression (self : Rules) : Rule Form := do
  word "try"
  let _ ← block self false
  return .flat .flatBlock

/-- Whether `for` begins a closure with declared lifetimes and no loop. -/
def forBinderNext (ts : List TokenTree) : Bool :=
  wordNext "for" ts && parametersNext (skip ts)

/-- A match arm. The comma after it may be left out at the end and after a body of its own. -/
def matchArm (self : Rules) : Rule MatchArm := do
  let ((head, body), tokens) ← withTokens do
    outerAttributes self
    let pattern ← tokensOf (alternatives self)
    let guard ←
      if ← word? "if" then tokensOf (self.expression true)
      else pure []
    mark "=>"
    let (form, own) ← withTokens self.early
    if form.isBlockLike || (← atEnd) then
      let _ ← mark? ","
    else mark ","
    return (pattern ++ guard, Expression.mk own form)
  return .mk tokens head body

/-- A `match`. -/
def matchExpression (self : Rules) : Rule Form := do
  word "match"
  let scrutinee ← tokensOf (self.expression false)
  let arms ← inside .brace do
    innerAttributes self
    many List.isEmpty (matchArm self)
  return .matchOn scrutinee arms

/-! ## What is attached to an operand -/

/-- The member after a point: a name, or the index of a field. Tells whether it is a name. -/
def member : Rule Bool := do
  match ← ahead with
  | .literal text _ :: _ =>
    require (isIndexText text)
    take 1
    return false
  | _ =>
    let _ ← name
    return true

/-- The indices in a floating-point literal that stands for two fields; tells whether a point is
left over at its end. -/
def indexPair? (text : String) : Option Bool :=
  let cs := text.toList
  let trailing := cs.getLast? = some '.'
  let body := if trailing then cs.dropLast else cs
  let parts := match Text.splitFirst '.' body with
    | some (before, after) => [before, after]
    | none => [body]
  if parts.all fun part => isIndexText (String.ofList part) then some trailing else none

/-- The arguments of a call. -/
def arguments (self : Rules) : Rule Unit := do
  let _ ← inside .paren (commaList (self.expression true))

/-- A method call, a field or `await` after a point. -/
def afterPoint (self : Rules) : Rule Unit := do
  let goesOn ← do
    match ← ahead with
    | .literal text _ :: _ =>
      if isFloatText text then
        match indexPair? text with
        | some trailing =>
          take 1
          pure trailing
        | none => fail
      else pure true
    | _ => pure true
  if goesOn then
    if ← word? "await" then return
    else
      let named ← member
      if named && markNext "::" (← ahead) then
        take 2
        let _ ← angleArguments self
        arguments self
      else if named && groupNext .paren (← ahead) then arguments self

/-- Calls, members, indices and `?` after an operand, in at most `rounds` rounds. -/
def attachments (self : Rules) : Nat → Form → Rule Form
  | 0, form => return form
  | rounds + 1, form => do
    let ts ← ahead
    if groupNext .paren ts then
      arguments self
      attachments self rounds (.flat .plain)
    else if markNext "." ts && !markNext ".." ts && !form.isRange then
      take 1
      afterPoint self
      attachments self rounds (.flat .plain)
    else if groupNext .bracket ts then
      inside .bracket do
        let _ ← self.expression true
      attachments self rounds (.flat .plain)
    else if markNext "?" ts && !form.isRange then
      take 1
      attachments self rounds (.flat .plain)
    else return form

/-! ## Operands -/

/-- A parameter of a closure. -/
def closureParameter (self : Rules) : Rule Unit := do
  outerAttributes self
  let _ ← self.pattern
  if ← mark? ":" then
    let _ ← self.type true

/-- A closure. -/
def closure (self : Rules) (structs : Bool) : Rule Unit := do
  let _ ← binder self
  let _ ← word? "const"
  let _ ← word? "static"
  let _ ← word? "async"
  let _ ← word? "move"
  mark "|"
  let _ ← list (markNext "|") "," (closureParameter self)
  mark "|"
  if ← mark? "->" then
    let _ ← self.type true
    let _ ← block self false
  else
    let _ ← self.expression structs

/-- A field of a struct expression. -/
def fieldValue (self : Rules) : Rule Unit := do
  outerAttributes self
  let named ← member
  if !named || markNext ":" (← ahead) then
    mark ":"
    let _ ← self.expression true

/-- The fields of a struct expression, in at most `rounds` rounds. Dots, with or without a base, end
them. -/
def fieldValues (self : Rules) : Nat → Rule Unit
  | 0 => fail
  | rounds + 1 => do
    if ← atEnd then return
    if ← mark? ".." then
      if ← atEnd then return
      let _ ← self.expression true
    else
      fieldValue self
      if ← atEnd then return
      mark ","
      fieldValues self rounds

/-- A path, a macro call or a struct expression. -/
def pathExpression (self : Rules) (structs : Bool) : Rule Form := do
  let shape ← qualifiedPath self true
  let ts ← ahead
  if !shape.qualified && markNext "!" ts && !markNext "!=" ts && shape.plain then
    take 1
    return .flat (.macroCall (← anyGroup))
  else
    if structs && groupNext .brace ts then
      inside .brace do fieldValues self ((← ahead).length + 1)
    return .flat .plain

/-- The elements between brackets: a list, or a value and a length. -/
def arrayElements (self : Rules) : Rule Unit := do
  if ← atEnd then return
  let _ ← self.expression true
  if ← mark? ";" then
    let _ ← self.expression true
  else if ← atEnd then return
  else
    mark ","
    let _ ← commaList (self.expression true)

/-- Whether an expression may begin here. -/
def expressionNext (ts : List TokenTree) : Bool :=
  (anyWordNext ts && !wordNext "as" ts) || groupNext .paren ts || groupNext .bracket ts ||
    groupNext .brace ts || literalNext ts || (markNext "!" ts && !markNext "!=" ts) ||
    (markNext "-" ts && !markNext "-=" ts && !markNext "->" ts) ||
    (markNext "*" ts && !markNext "*=" ts) || (markNext "|" ts && !markNext "|=" ts) ||
    (markNext "&" ts && !markNext "&=" ts) || markNext ".." ts ||
    (markNext "<" ts && !markNext "<=" ts && !markNext "<<=" ts) || markNext "::" ts ||
    lifetimeNext ts || markNext "#" ts

/-- What follows `break`: a label and a value, both optional. -/
def breakTail (self : Rules) (structs : Bool) : Rule Unit := do
  if ← lifetime? then require (!markNext ":" (← ahead))
  let ts ← ahead
  if expressionNext ts && (structs || !groupNext .brace ts) then
    let _ ← self.expression structs

/-- The optional value of `return` or `yield`. -/
def optionalValue (self : Rules) : Rule Unit := do
  if expressionNext (← ahead) then
    let _ ← self.expression true

/-- A condition that matches a pattern. -/
def letCondition (self : Rules) (structs : Bool) : Rule Unit := do
  word "let"
  let _ ← alternatives self
  mark "="
  let form ← self.operand structs
  let _ ← self.operators structs compareStrength form

/-- Whether a closure begins here. -/
def closureNext (ts : List TokenTree) : Bool :=
  let second := skip ts
  markNext "|" ts || wordNext "move" ts || forBinderNext ts ||
    (wordNext "const" ts && !groupNext .brace second) || wordNext "static" ts ||
    (wordNext "async" ts && (markNext "|" second || wordNext "move" second))

/-- Whether an asynchronous block begins here. -/
def asyncBlockNext (ts : List TokenTree) : Bool :=
  let second := skip ts
  wordNext "async" ts &&
    (groupNext .brace second || (wordNext "move" second && groupNext .brace (skip second)))

/-- Whether a path begins here. -/
def pathExpressionNext (ts : List TokenTree) : Bool :=
  let second := skip ts
  nameNext ts || pathWordNext ts || wordNext "Self" ts || markNext "::" ts || markNext "<" ts ||
    (wordNext "try" ts && (markNext "!" second || markNext "::" second))

/-- An operand without prefix operators and attachments. -/
def atom (self : Rules) (structs : Bool) : Rule Form := do
  let ts ← ahead
  let second := skip ts
  let plain : Form := .flat .plain
  if literalNext ts then
    literal
    return plain
  else if asyncBlockNext ts then
    take 1
    let _ ← word? "move"
    let _ ← block self false
    return plain
  else if wordNext "try" ts && groupNext .brace second then tryExpression self
  else if closureNext ts then
    closure self structs
    return plain
  else if wordNext "builtin" ts && markNext "#" second then
    take 2
    let _ ← name
    inside .paren anything
    return plain
  else if pathExpressionNext ts then pathExpression self structs
  else if groupNext .paren ts then
    let _ ← inside .paren (commaList (self.expression true))
    return plain
  else if ← word? "break" then
    breakTail self structs
    return plain
  else if ← word? "continue" then
    let _ ← lifetime?
    return plain
  else if ← word? "return" then
    optionalValue self
    return plain
  else if ← word? "become" then
    let _ ← self.expression true
    return plain
  else if groupNext .bracket ts then
    inside .bracket (arrayElements self)
    return plain
  else if wordNext "let" ts then
    letCondition self structs
    return plain
  else if wordNext "if" ts then ifExpression self
  else if wordNext "while" ts then whileExpression self
  else if wordNext "for" ts then forExpression self
  else if wordNext "loop" ts then loopExpression self
  else if wordNext "match" ts then matchExpression self
  else if ← word? "yield" then
    optionalValue self
    return plain
  else if wordNext "unsafe" ts then unsafeExpression self
  else if wordNext "const" ts then constExpression self
  else if groupNext .brace ts then return .block false (← block self true)
  else if markNext ".." ts then
    rangeTail self structs
    return .flat .range
  else if ← word? "_" then return plain
  else if lifetimeNext ts then labelledExpression self
  else fail

/-- A reference, whose mark comes next. -/
def reference (self : Rules) (structs : Bool) : Rule Form := do
  mark "&"
  let ts ← ahead
  if wordNext "raw" ts && (wordNext "mut" (skip ts) || wordNext "const" (skip ts)) then take 2
  else
    let _ ← word? "mut"
  let _ ← self.operand structs
  return .flat .plain

/-- An operand with its prefix operators and what is attached to its end. -/
def operandRule (self : Rules) (structs : Bool) : Rule Form := do
  let attributed := markNext "#" (← ahead)
  outerAttributes self
  let ts ← ahead
  if markNext "&" ts then reference self structs
  else if markNext "*" ts || markNext "!" ts || markNext "-" ts then
    take 1
    let _ ← self.operand structs
    return .flat .plain
  else
    let form ← atom self structs
    let form ← attachments self ((← ahead).length + 1) form
    require (!(attributed && form.isRange))
    return form

/-- An expression in the place of a statement or as the body of a match arm. -/
def earlyRule (self : Rules) : Rule Form := do
  outerAttributes self
  let ts ← ahead
  let second := skip ts
  let form ←
    if wordNext "if" ts then ifExpression self
    else if wordNext "while" ts then whileExpression self
    else if wordNext "for" ts && !forBinderNext ts then forExpression self
    else if wordNext "loop" ts then loopExpression self
    else if wordNext "match" ts then matchExpression self
    else if wordNext "try" ts && groupNext .brace second then tryExpression self
    else if wordNext "unsafe" ts then unsafeExpression self
    else if wordNext "const" ts && groupNext .brace second then constExpression self
    else if groupNext .brace ts then do
      let body ← block self true
      pure (.block false body)
    else if lifetimeNext ts then labelledExpression self
    else self.operand true
  if form.isBlockLike then
    let ts ← ahead
    if (markNext "." ts && !markNext ".." ts) || markNext "?" ts then
      let form ← attachments self (ts.length + 1) form
      self.operators true weakest form
    else return form
  else self.operators true weakest form

end CoverageReplay.Rust.Grammar
