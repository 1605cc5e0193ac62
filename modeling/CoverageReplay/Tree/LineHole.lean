import CoverageReplay.Tree.Basic

/-!
# Holes of whole lines

A piece of code that stands alone on its lines takes the lines with it when it is removed, so that
no blank line stays behind: `lineHole` widens its bytes to the left over spaces and tabs, and to the
right over blanks up to the line feed and past it. A piece that shares a line with other code is not
widened.
-/

namespace CoverageReplay

/-- Whether a byte is a space or a tab. -/
def isIndent (b : UInt8) : Bool :=
  b = 32 || b = 9

/-- Whether a byte is a space, a tab or a carriage return. -/
def isTrailing (b : UInt8) : Bool :=
  isIndent b || b = 13

/-- The start of the run of spaces and tabs that ends at a byte. -/
def indentStart (bytes : Array UInt8) : Nat → Nat
  | 0 => 0
  | n + 1 => if bytes[n]?.any isIndent then indentStart bytes n else n + 1

/-- The end of the run of blanks that begins at a byte, of at most `most` blanks. -/
def trailingEnd (bytes : Array UInt8) : (most : Nat) → Nat → Nat
  | 0, n => n
  | most + 1, n => if bytes[n]?.any isTrailing then trailingEnd bytes most (n + 1) else n

/-- The bytes of a piece of code, widened to whole lines when it stands alone on them. -/
def lineHole (bytes : Array UInt8) (h : Hole) : Hole :=
  let start := indentStart bytes h.start
  if 0 < start && bytes[start - 1]? ≠ some 10 then h
  else
    let stop := trailingEnd bytes bytes.size h.stop
    match bytes[stop]? with
    | none => ⟨start, stop⟩
    | some b => if b = 10 then ⟨start, stop + 1⟩ else h

end CoverageReplay
