import CoverageReplay.Text.Number
import CoverageReplay.TestOrder.Rank

/-!
# Tables of ranked tests

Four columns, two spaces between them: place, name, and both counts. Names are flush left in a
column as wide as the longest name has bytes, the heading counted; numbers are flush right.
-/

namespace CoverageReplay.OrderTable

open Text

/-- A text with blanks before it, `width` characters wide at least. -/
def flushRight (width : Nat) (cs : List Char) : List Char := cs.leftpad width ' '

/-- A text with blanks behind it, `width` characters wide at least. -/
def flushLeft (width : Nat) (cs : List Char) : List Char := cs.rightpad width ' '

/-- One line, whose second column is `width` wide. -/
def line (width : Nat) (place name raw netNew : List Char) : List Char :=
  flushRight 3 place ++ "  ".toList ++ flushLeft width name ++ "  ".toList ++ flushRight 8 raw ++
    "  ".toList ++ flushRight 8 netNew ++ ['\n']

/-- The width of the column of names. -/
def nameWidth (tests : List RankedTest) : Nat :=
  tests.foldl (fun width t => max width t.name.utf8ByteSize) 4

/-- The lines of some tests, the first of which has place `place`. -/
def rows (width : Nat) (place : Nat) : List RankedTest → List Char
  | [] => []
  | t :: rest =>
    line width (decimal place) t.name.toList (decimal t.raw) (decimal t.netNew) ++
      rows width (place + 1) rest

/-- The table of some tests in their order. -/
def render (tests : List RankedTest) : String :=
  let width := nameWidth tests
  String.ofList (line width ['#'] "TEST".toList "RAW".toList "NET-NEW".toList ++ rows width 1 tests)

end CoverageReplay.OrderTable
