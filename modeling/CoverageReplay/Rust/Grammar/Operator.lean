import CoverageReplay.Rust.Grammar.Pattern

/-!
# Operators by strength

The right operand of an operator takes the operators after it that bind tighter, and those of the
same strength only for assignments. A range ends an expression, and a comparison is not compared
again.
-/

namespace CoverageReplay.Rust.Grammar

open Rule

/-- The strengths of operators, the weakest first. -/
def weakest : Nat := 0
def assignStrength : Nat := 1
def rangeStrength : Nat := 2
def orStrength : Nat := 3
def andStrength : Nat := 4
def compareStrength : Nat := 6
def bitOrStrength : Nat := 7
def bitXorStrength : Nat := 8
def bitAndStrength : Nat := 9
def shiftStrength : Nat := 10
def sumStrength : Nat := 11
def productStrength : Nat := 12
def castStrength : Nat := 13

/-- The binary operators with their strengths, each before its own prefixes. -/
def binaryOperators : List (List Char × Nat) :=
  [(['+', '='], assignStrength), (['-', '='], assignStrength), (['*', '='], assignStrength),
    (['/', '='], assignStrength), (['%', '='], assignStrength), (['^', '='], assignStrength),
    (['&', '='], assignStrength), (['|', '='], assignStrength), (['<', '<', '='], assignStrength),
    (['>', '>', '='], assignStrength), (['&', '&'], andStrength), (['|', '|'], orStrength),
    (['<', '<'], shiftStrength), (['>', '>'], shiftStrength), (['=', '='], compareStrength),
    (['<', '='], compareStrength), (['!', '='], compareStrength), (['>', '='], compareStrength),
    (['+'], sumStrength), (['-'], sumStrength), (['*'], productStrength), (['/'], productStrength),
    (['%'], productStrength), (['^'], bitXorStrength), (['&'], bitAndStrength),
    (['|'], bitOrStrength), (['<'], compareStrength), (['>'], compareStrength)]

/-- The binary operator that comes next: its length and strength. -/
def operatorNext? (ts : List TokenTree) : Option (Nat × Nat) :=
  match ts with
  | .punct _ _ _ :: _ =>
    (binaryOperators.find? fun o => marksNext o.1 ts).map fun o => (o.1.length, o.2)
  | _ => none

/-- Whether a plain assignment comes next. -/
def assignNext (ts : List TokenTree) : Bool :=
  markNext "=" ts && !markNext "=>" ts

/-- The strength of what comes next after an operand. -/
def strengthNext (ts : List TokenTree) : Nat :=
  match operatorNext? ts with
  | some (_, strength) => strength
  | none =>
    if assignNext ts then assignStrength
    else if markNext ".." ts then rangeStrength
    else if wordNext "as" ts then castStrength
    else weakest

/-- The operators after the right operand of an operator that bind tighter, in at most `rounds`
rounds. -/
def tighter (self : Rules) (structs : Bool) (strength : Nat) : Nat → Form → Rule Unit
  | 0, _ => return
  | rounds + 1, form => do
    let ts ← ahead
    let next := strengthNext ts
    if strength < next || (next = strength && strength = assignStrength) then
      let form ← self.operators structs next form
      if (← ahead).length < ts.length then tighter self structs strength rounds form

/-- The right operand of an operator. -/
def rightOperand (self : Rules) (structs : Bool) (strength : Nat) : Rule Unit := do
  let form ← self.operand structs
  tighter self structs strength ((← ahead).length + 1) form

/-- Whether a range without an upper bound ends here. -/
def rangeEndMissing (structs : Bool) (ts : List TokenTree) : Bool :=
  ts.isEmpty || (markNext "." ts && !markNext ".." ts) || (!structs && groupNext .brace ts) ||
    wordNext "as" ts ||
    [",", ";", "?", "=>", "=", "+", "/", "%", "^", ">", "<=", "!=", "-=", "*=", "&=", "|=",
      "<<="].any fun m => markNext m ts

/-- The dots and the upper bound of a range. -/
def rangeTail (self : Rules) (structs : Bool) : Rule Unit := do
  let closed ← rangeDots false
  let ts ← ahead
  if closed || !rangeEndMissing structs ts then rightOperand self structs rangeStrength

/-- Refuses what may not be attached to a cast. -/
def checkCast : Rule Unit := do
  let ts ← ahead
  require (!((markNext "." ts && !markNext ".." ts) || markNext "?" ts || groupNext .bracket ts ||
    groupNext .paren ts))

/-- The operators of at least some strength that follow an operand. -/
def operatorsRule (self : Rules) (structs : Bool) (strength : Nat) (left : Form) : Rule Form := do
  let ts ← ahead
  if left.isRange then return left
  else
    match operatorNext? ts with
    | some (length, own) =>
      if own < strength then return left
      else
        require (!(own = compareStrength && left.isComparison))
        take length
        rightOperand self structs own
        self.operators structs strength
          (.flat (if own = compareStrength then .comparison else .plain))
    | none =>
      if strength ≤ assignStrength && assignNext ts then
        take 1
        rightOperand self structs assignStrength
        self.operators structs strength (.flat .plain)
      else if strength ≤ rangeStrength && markNext ".." ts then
        rangeTail self structs
        self.operators structs strength (.flat .range)
      else if strength ≤ castStrength && wordNext "as" ts then
        take 1
        let _ ← self.type false
        checkCast
        self.operators structs strength (.flat .plain)
      else return left

/-- An expression. -/
def expressionRule (self : Rules) (structs : Bool) : Rule Form := do
  let form ← self.operand structs
  self.operators structs weakest form

end CoverageReplay.Rust.Grammar
