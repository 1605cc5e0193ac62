import CoverageReplay.Total

/-!
# From lines and columns to bytes

A `LineIndex` answers at which byte of a text a line and a column lie. Lines are counted from one
and end at their line feed, columns count the characters before them. A column past the end of its
line lies at the start of the next one, a line that the text does not have lies at the end of the
text.
-/

namespace CoverageReplay

/-- The number of bytes of some characters. -/
def byteSize (cs : List Char) : Nat :=
  total (cs.map Char.utf8Size)

/-- The lines of a text, each with the byte where it starts. -/
structure LineIndex where
  lines : Array (Nat × List Char)
  /-- The number of bytes of the text. -/
  size : Nat

namespace LineIndex

/-- The lines of a text with their line feeds, after the characters `line` read so far (last first).
The last line has none. -/
def splitLines (line : List Char) : List Char → List (List Char)
  | [] => [line.reverse]
  | c :: cs =>
    if c = '\n' then (c :: line).reverse :: splitLines [] cs else splitLines (c :: line) cs

/-- Lines with the bytes where they start, the first one at `start`. -/
def place (start : Nat) : List (List Char) → List (Nat × List Char)
  | [] => []
  | line :: rest => (start, line) :: place (start + byteSize line) rest

/-- The index of a text. -/
def ofText (cs : List Char) : LineIndex :=
  ⟨(place 0 (splitLines [] cs)).toArray, byteSize cs⟩

/-- The byte at which a line and a column lie. -/
def offset (index : LineIndex) (line column : Nat) : Nat :=
  match line with
  | 0 => index.size
  | number + 1 =>
    match index.lines[number]? with
    | some (start, cs) => start + byteSize (cs.take column)
    | none => index.size

end LineIndex

end CoverageReplay
