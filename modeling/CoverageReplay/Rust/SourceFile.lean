import CoverageReplay.Rust.Grammar.Item
import CoverageReplay.Rust.Lexer

/-!
# Whole source files

`bodies?` reads a source text and gives the function bodies in it, in the order of the text. Two
things may stand before the items: one byte-order mark, which is not counted as a column, and a
first line that begins with `#!` and names an interpreter. A second byte-order mark is skipped too,
but it is counted.

The grammar is built level by level: a construct at one level holds constructs of the level below. A
path down the constructs passes few levels before it takes a token, so a depth in proportion to the
number of characters is never used up.
-/

namespace CoverageReplay.Rust

/-- The grammar to a depth of nesting. -/
def rules : Nat → Rules
  | 0 => .failing
  | depth + 1 =>
    { expression := fun structs c => Grammar.expressionRule (rules depth) structs c
      early := fun c => Grammar.earlyRule (rules depth) c
      operand := fun structs c => Grammar.operandRule (rules depth) structs c
      operators := fun structs strength form c =>
        Grammar.operatorsRule (rules depth) structs strength form c
      type := fun plus c => Grammar.typeRule (rules depth) plus c
      bound := fun captures consts c => Grammar.boundRule (rules depth) captures consts c
      pattern := fun c => Grammar.patternRule (rules depth) c
      statements := fun c => Grammar.statementsRule (rules depth) c
      item := fun c => Grammar.itemRule (rules depth) c
      useTree := fun rooted c => Grammar.useTreeRule (rules depth) rooted c }

/-- The byte-order mark. -/
def byteOrderMark : Char := '\ufeff'

/-- A text without a byte-order mark at its front. -/
def dropMark : List Char → List Char
  | c :: cs => if c = byteOrderMark then cs else c :: cs
  | [] => []

/-- A text without the blanks and comments at its front, skipped in at most `rounds` rounds. -/
def dropSkipped : Nat → List Char → List Char
  | 0, cs => cs
  | rounds + 1, cs =>
    match skipped? cs with
    | some n => dropSkipped rounds (cs.drop n)
    | none => cs

/-- A text without the first line that names an interpreter. The end of that line stays. -/
def dropInterpreter (cs : List Char) : List Char :=
  match cs with
  | '#' :: '!' :: rest =>
    match dropSkipped (rest.length + 1) rest with
    | '[' :: _ => cs
    | _ => cs.dropWhile (· ≠ '\n')
  | _ => cs

/-- The token trees of a file, and the place where it ends. -/
def fileTokens? (cs : List Char) : Except Place (List TokenTree × Place) :=
  match dropInterpreter (dropMark cs) with
  | c :: rest =>
    if c = byteOrderMark then tokens? (Place.origin.step c) rest else tokens? .origin (c :: rest)
  | [] => tokens? .origin []

/-- The items of a file. -/
def items (self : Rules) : Rule (List CodeBlock) := do
  Grammar.innerAttributes self
  let bodies ← Rule.many List.isEmpty self.item
  return bodies.flatten

/-- The function bodies of a source text, or the place where it stops being Rust. -/
def bodies? (text : String) : Except Place (List CodeBlock) :=
  let cs := text.toList
  match fileTokens? cs with
  | .error place => .error place
  | .ok (tokens, edge) =>
    match items (rules (16 * (cs.length + 1))) ⟨tokens, edge⟩ with
    | .error place => .error place
    | .ok (bodies, _) => .ok bodies

end CoverageReplay.Rust
