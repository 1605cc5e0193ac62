import CoverageReplay.Rust.Grammar.Expression

/-!
# Statements

A statement is a `let`, an item, a macro call in braces, or an expression. A lone semicolon is an
expression statement too.
-/

namespace CoverageReplay.Rust.Grammar

open Rule

/-- Whether an expression that took these tokens ends with a closing brace. -/
def endsInBrace (tokens : List TokenTree) : Bool :=
  tokens.getLast?.any TokenTree.isBraced

/-- A `let` after its attributes: where the keyword stands, the bound name, the tokens of the
value. -/
def letStatement (self : Rules) : Rule (Place × Option String × List TokenTree) := do
  let keyword := (← get).place
  word "let"
  let pattern ← self.pattern
  if ← mark? ":" then
    let _ ← self.type true
  let value ←
    if ← mark? "=" then do
      let value ← tokensOf (self.expression true)
      if !endsInBrace value && (← word? "else") then
        let other ← tokensOf (block self false)
        pure (value ++ other)
      else pure value
    else pure []
  mark ";"
  return (keyword, pattern.name, value)

/-- What a path and an exclamation mark turn out to begin. -/
inductive CallKind where
  /-- A macro that defines an item by name. -/
  | definition
  /-- A macro call in braces that is a statement by itself. -/
  | statement
  | neither
  deriving DecidableEq

/-- What begins here, judged by a path, an exclamation mark and what follows them. -/
def callKind : Rule CallKind := fun c =>
  match plainPath c with
  | .error _ => .ok (.neither, c)
  | .ok (_, after) =>
    let ts := after.rest
    let second := skip ts
    let third := skip second
    if !markNext "!" ts then .ok (.neither, c)
    else if nameNext second || wordNext "try" second then .ok (.definition, c)
    else if groupNext .brace second &&
        !((markNext "." third && !markNext ".." third) || markNext "?" third) then
      .ok (.statement, c)
    else .ok (.neither, c)

/-- Whether an item begins here. -/
def itemNext (ts : List TokenTree) : Bool :=
  let second := skip ts
  let third := skip second
  let functionWord := fun us => wordNext "unsafe" us || wordNext "extern" us || wordNext "fn" us
  wordNext "pub" ts || (wordNext "crate" ts && !markNext "::" second) || wordNext "extern" ts ||
    wordNext "use" ts ||
    (wordNext "static" ts &&
      (wordNext "mut" second ||
        (nameNext second &&
          !(wordNext "async" second && (wordNext "move" third || markNext "|" third))))) ||
    (wordNext "const" ts &&
      !(groupNext .brace second || wordNext "static" second ||
        (wordNext "async" second && !functionWord third) || wordNext "move" second ||
        markNext "|" second)) ||
    (wordNext "unsafe" ts && !groupNext .brace second) ||
    (wordNext "async" ts && functionWord second) ||
    wordNext "fn" ts || wordNext "mod" ts || wordNext "type" ts || wordNext "struct" ts ||
    wordNext "enum" ts || (wordNext "union" ts && nameNext second) ||
    (wordNext "auto" ts && wordNext "trait" second) || wordNext "trait" ts ||
    (wordNext "default" ts && (wordNext "unsafe" second || wordNext "impl" second)) ||
    wordNext "impl" ts || wordNext "macro" ts

/-- A statement before its tokens are known. -/
inductive Draft where
  | binding (keyword : Place) (name : Option String) (value : List TokenTree)
  | expression (form : Form)
  | other

/-- A statement, and whether a semicolon is still missing after it. -/
def draft (self : Rules) : Rule (Draft × Bool) := do
  let start ← get
  outerAttributes self
  match ← callKind with
  | .statement =>
    plainPath
    mark "!"
    let _ ← anyGroup
    let _ ← mark? ";"
    return (.other, false)
  | kind =>
    let ts ← ahead
    if wordNext "let" ts then
      let (keyword, name, value) ← letStatement self
      return (.binding keyword name value, false)
    else if kind = .definition || itemNext ts then
      set start
      let _ ← self.item
      return (.other, false)
    else
      let form ← self.early
      let ended ← mark? ";"
      return (.expression form, !ended && form.needsSemicolon)

/-- A statement with its tokens. -/
def statement (self : Rules) : Rule (Statement × Bool) := do
  let ((drafted, open_), tokens) ← withTokens (draft self)
  match drafted with
  | .binding keyword name value => return (.binding tokens keyword name value, open_)
  | .expression form => return (.expression tokens form, open_)
  | .other => return (.other tokens, open_)

/-- The statements up to the end of the group, in at most `rounds` rounds. Only the last one may
lack a semicolon that it needs. -/
def statementRounds (self : Rules) : Nat → Rule (List Statement)
  | 0 => fail
  | rounds + 1 => do
    let ts ← ahead
    if ts.isEmpty then return []
    else if markNext ";" ts then
      take 1
      let rest ← statementRounds self rounds
      return .expression (ts.take 1) (.flat .plain) :: rest
    else
      let (s, open_) ← statement self
      if ← atEnd then return [s]
      else
        require (!open_)
        let rest ← statementRounds self rounds
        return s :: rest

/-- The statements up to the end of the group. -/
def statementsRule (self : Rules) : Rule (List Statement) := do
  statementRounds self ((← ahead).length + 1)

end CoverageReplay.Rust.Grammar
