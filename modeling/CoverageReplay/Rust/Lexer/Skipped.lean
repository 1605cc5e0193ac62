import CoverageReplay.Text.Blank

/-!
# Blanks and comments between tokens

The length of what separates two tokens. Documentation comments are tokens and are not skipped:
`///` (but not `////`), `//!`, `/**` (but not `/***` nor `/**/`) and `/*!`. Block comments nest.
-/

namespace CoverageReplay.Rust

open Text

/-- A blank between tokens; the two marks of writing direction count as blanks. -/
def isGap (c : Char) : Bool :=
  isBlank c || c = '\u200e' || c = '\u200f'

/-- The number of characters before the line feed or the carriage return and line feed that end the
line. -/
def lineLength : List Char → Nat
  | [] => 0
  | '\n' :: _ => 0
  | '\r' :: '\n' :: _ => 0
  | _ :: cs => lineLength cs + 1

/-- The length of the rest of a block comment with `depth` comments open. -/
def blockRest? (depth : Nat) : List Char → Option Nat
  | '/' :: '*' :: cs => (blockRest? (depth + 1) cs).map (· + 2)
  | '*' :: '/' :: cs =>
    if depth ≤ 1 then some 2 else (blockRest? (depth - 1) cs).map (· + 2)
  | _ :: cs => (blockRest? depth cs).map (· + 1)
  | [] => none

/-- The length of a block comment. -/
def blockComment? : List Char → Option Nat
  | '/' :: '*' :: cs => (blockRest? 1 cs).map (· + 2)
  | _ => none

/-- The length of a blank or of a comment that is not documentation. -/
def skipped? : List Char → Option Nat
  | '/' :: '/' :: '/' :: '/' :: cs => some (lineLength cs + 4)
  | '/' :: '/' :: '/' :: _ => none
  | '/' :: '/' :: '!' :: _ => none
  | '/' :: '/' :: cs => some (lineLength cs + 2)
  | '/' :: '*' :: '*' :: '/' :: _ => some 4
  | '/' :: '*' :: '*' :: '*' :: cs => blockComment? ('/' :: '*' :: '*' :: '*' :: cs)
  | '/' :: '*' :: '*' :: _ => none
  | '/' :: '*' :: '!' :: _ => none
  | '/' :: '*' :: cs => blockComment? ('/' :: '*' :: cs)
  | c :: _ => if isGap c then some 1 else none
  | [] => none

/-- A documentation comment: whether it belongs to what encloses it, its length, its text. -/
def docComment? : List Char → Option (Bool × Nat × List Char)
  | '/' :: '/' :: '!' :: cs => some (line true cs)
  | '/' :: '/' :: '/' :: '/' :: _ => none
  | '/' :: '/' :: '/' :: cs => some (line false cs)
  | '/' :: '*' :: '!' :: cs => block true ('!' :: cs)
  | '/' :: '*' :: '*' :: '*' :: _ => none
  | '/' :: '*' :: '*' :: cs => block false ('*' :: cs)
  | _ => none
where
  /-- The comment that goes on to the end of the line. -/
  line (inner : Bool) (cs : List Char) : Bool × Nat × List Char :=
    (inner, lineLength cs + 3, cs.take (lineLength cs))
  /-- The comment that goes on to the closing mark. -/
  block (inner : Bool) (cs : List Char) : Option (Bool × Nat × List Char) :=
    (blockRest? 1 cs).map fun n => (inner, n + 2, (cs.take (n - 2)).drop 1)

/-- Whether every carriage return is followed by a line feed. -/
def noBareReturn : List Char → Bool
  | '\r' :: '\n' :: cs => noBareReturn cs
  | '\r' :: _ => false
  | _ :: cs => noBareReturn cs
  | [] => true

end CoverageReplay.Rust
