/-!
# Places in a YAML text

A cursor is the rest of a text with its line and column and the number of characters before it. A
line ends at a line feed, a carriage return, both in this order, or one of three Unicode line ends;
as part of a scalar the ends of one line are a line feed, except for two of the Unicode ends, which
stay.
-/

namespace CoverageReplay.Yaml

/-- Whether a character is a blank within a line. -/
def isBlank (c : Char) : Bool := c = ' ' || c = '\t'

/-- Whether a character ends a line. -/
def isBreak (c : Char) : Bool :=
  c = '\n' || c = '\r' || c = '\u0085' || c = '\u2028' || c = '\u2029'

/-- Whether a character may stand in names of anchors, handles and directives. -/
def isNameChar (c : Char) : Bool := c.isAlphanum || c = '_' || c = '-'

/-- Whether a character may stand in a text. -/
def isAllowed (c : Char) : Bool :=
  let n := c.toNat
  n == 0x09 || n == 0x0A || n == 0x0D || (0x20 ≤ n && n ≤ 0x7E) || n == 0x85 ||
    (0xA0 ≤ n && n ≤ 0xFFFD) || 0x10000 ≤ n

/-- Whether a word ends here: at a blank, a line end or the end of the text. -/
def wordEnds : List Char → Bool
  | [] => true
  | c :: _ => isBlank c || isBreak c

/-- The rest of a text and where it begins. -/
structure Cursor where
  rest : List Char
  index : Nat
  line : Nat
  column : Nat
  deriving DecidableEq, Repr, Inhabited

namespace Cursor

/-- The beginning of a text. -/
def start (text : List Char) : Cursor := ⟨text, 0, 0, 0⟩

/-- The place after some characters of the line. -/
def advance (c : Cursor) (n : Nat) : Cursor :=
  { c with rest := c.rest.drop n, index := c.index + n, column := c.column + n }

/-- Whether a character comes next. -/
def next (c : Cursor) (x : Char) : Bool := c.rest.head? = some x

/-- Whether a character of a class comes next. -/
def nextIs (c : Cursor) (p : Char → Bool) : Bool := c.rest.head?.any p

/-- Whether a word ends here. -/
def wordEnds (c : Cursor) : Bool := Yaml.wordEnds c.rest

/-- The characters of a class that come next on the line, and the place after them. -/
def takeWhile (c : Cursor) (p : Char → Bool) : List Char × Cursor :=
  let run := c.rest.takeWhile p
  (run, c.advance run.length)

/-- The place after the characters of a class. -/
def skipWhile (c : Cursor) (p : Char → Bool) : Cursor := (c.takeWhile p).2

/-- The place at the beginning of the next line, `n` characters on. -/
def nextLine (c : Cursor) (n : Nat) : Cursor :=
  ⟨c.rest.drop n, c.index + n, c.line + 1, 0⟩

/-- The line end that comes next, as part of a scalar, and the place after it. -/
def lineEnd? (c : Cursor) : Option (Char × Cursor) :=
  match c.rest with
  | '\r' :: '\n' :: _ => some ('\n', c.nextLine 2)
  | x :: _ =>
    if x = '\u2028' || x = '\u2029' then some (x, c.nextLine 1)
    else if isBreak x then some ('\n', c.nextLine 1)
    else none
  | [] => none

/-- The place after blanks and a comment, at the end of the line or in front of something else. -/
def skipComment (c : Cursor) : Cursor :=
  let c := c.skipWhile isBlank
  if c.next '#' then c.skipWhile fun x => !isBreak x else c

/-- The beginning of the next line, when nothing but blanks and a comment comes before it. -/
def finishLine? (c : Cursor) : Option Cursor :=
  let c := c.skipComment
  match c.lineEnd? with
  | some (_, c) => some c
  | none => if c.rest.isEmpty then some c else none

/-- Whether a line begins here that marks the start or the end of a document. -/
def atMarker (c : Cursor) (marker : Char) : Bool :=
  c.column = 0 && c.rest.take 3 = List.replicate 3 marker && Yaml.wordEnds (c.rest.drop 3)

/-- Whether a line begins here that is no part of a document. -/
def atAnyMarker (c : Cursor) : Bool := c.atMarker '-' || c.atMarker '.'

end Cursor

end CoverageReplay.Yaml
