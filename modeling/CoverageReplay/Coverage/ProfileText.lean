import CoverageReplay.Coverage.Profile
import CoverageReplay.Error
import CoverageReplay.Text.Blank
import CoverageReplay.Text.Number
import CoverageReplay.Text.Quoted

/-!
# The text form of a profile

The first line that is not blank reads `mode: <mode>`, each later one describes a block as
`<file>:<line>.<column>,<line>.<column> <statements> <executed>`. A file name may hold colons, since
the last colon of the line ends it. A text of blank lines is the empty profile.

`Profile.parse?` reads this form, `Profile.render` writes it.
-/

namespace CoverageReplay

open Text

/-- What is wrong with a line of a profile text. -/
inductive ProfileFault where
  | missingHeader
  | unknownMode (name : String)
  | noColon
  | emptyFile
  | missingRange
  /-- A number is absent; the argument says which. -/
  | missingNumber (role : String)
  | invalidNumber (role field : String)
  | trailingFields
  | badRange (field : String)
  | badPosition (field : String)
  | zeroPosition
  | inverted (field : String)
  deriving DecidableEq, Repr, Inhabited

namespace ProfileFault

/-- The text shown for the fault. -/
def message : ProfileFault → String
  | missingHeader => "missing `mode:` header"
  | unknownMode name => "unknown mode " ++ quote name
  | noColon => "expected `file:range statements count`"
  | emptyFile => "empty file name"
  | missingRange => "missing range"
  | missingNumber role => "missing " ++ role
  | invalidNumber role field => "invalid " ++ role ++ " " ++ quote field
  | trailingFields => "trailing fields"
  | badRange field => "bad range " ++ quote field
  | badPosition field => "bad position " ++ quote field
  | zeroPosition => "positions are 1-based"
  | inverted field => "range " ++ field ++ " ends before it starts"

end ProfileFault

namespace Mode

/-- The mode named by a text. -/
def parse? (name : String) : Except ProfileFault Mode :=
  match ofName? name with
  | some mode => .ok mode
  | none => .error (.unknownMode name)

end Mode

namespace Profile

/-- Reads a number that plays the given role. -/
def parseNumber? (role : String) (field : Option (List Char)) : Except ProfileFault UInt32 :=
  match field with
  | none => .error (.missingNumber role)
  | some cs =>
    match word32? cs with
    | some n => .ok n
    | none => .error (.invalidNumber role (String.ofList cs))

/-- Reads `line.column`. -/
def parsePosition? (field : List Char) : Except ProfileFault Position :=
  match splitFirst '.' field with
  | none => .error (.badPosition (String.ofList field))
  | some (line, column) => do
    let line ← parseNumber? "line" (some line)
    let column ← parseNumber? "column" (some column)
    if line = 0 ∨ column = 0 then .error .zeroPosition
    else .ok ⟨line, column⟩

/-- Reads `position,position`. -/
def parseRange? (field : List Char) : Except ProfileFault SourceRange :=
  match splitFirst ',' field with
  | none => .error (.badRange (String.ofList field))
  | some (start, stop) => do
    let start ← parsePosition? start
    let stop ← parsePosition? stop
    if stop < start then .error (.inverted (String.ofList field))
    else .ok ⟨start, stop⟩

/-- Reads a trimmed line that describes a block. -/
def parseBlock? (line : List Char) : Except ProfileFault Block :=
  match splitLast ':' line with
  | none => .error .noColon
  | some (file, fields) =>
    if file.isEmpty then .error .emptyFile
    else
      match words fields with
      | [] => .error .missingRange
      | range :: counts => do
        let statements ← parseNumber? "statement count" counts[0]?
        let executed ← parseNumber? "execution count" counts[1]?
        if 2 < counts.length then .error .trailingFields
        else
          let range ← parseRange? range
          .ok ⟨String.ofList file, range, statements, executed⟩

/-- Reads the trimmed header line. -/
def parseHeader? (line : List Char) : Except ProfileFault Mode :=
  match afterStart "mode:".toList line with
  | none => .error .missingHeader
  | some name => Mode.parse? (String.ofList (trim name))

/-- The trimmed lines that are not blank, with their numbers from `number` on. -/
def numberedLines (number : Nat) : List (List Char) → List (Nat × List Char)
  | [] => []
  | line :: rest =>
    let kept := trim line
    if kept.isEmpty then numberedLines (number + 1) rest
    else (number, kept) :: numberedLines (number + 1) rest

/-- Names the line of a fault. -/
def atLine (number : Nat) {α : Type} : Except ProfileFault α → Except ReplayError α
  | .ok a => .ok a
  | .error fault => .error (.profile number fault.message)

/-- Reads the block lines. -/
def parseBlocks? : List (Nat × List Char) → Except ReplayError (List Block)
  | [] => .ok []
  | (number, line) :: rest => do
    let block ← atLine number (parseBlock? line)
    let blocks ← parseBlocks? rest
    .ok (block :: blocks)

/-- Reads a profile text. -/
def parse? (text : String) : Except ReplayError Profile :=
  match numberedLines 1 (lines text.toList) with
  | [] => .ok empty
  | (number, header) :: rest => do
    let mode ← atLine number (parseHeader? header)
    let blocks ← parseBlocks? rest
    .ok (ofBlocks mode blocks)

/-- One block as a line of text. -/
def renderBlock (b : Block) : String :=
  b.file ++ ":" ++ b.range.start.text ++ "," ++ b.range.stop.text ++ " " ++
    toString b.statements.toNat ++ " " ++ toString b.executed.toNat ++ "\n"

/-- The text form of a profile. -/
def render (p : Profile) : String :=
  "mode: " ++ p.mode.name ++ "\n" ++ String.join (p.blocks.map renderBlock)

end Profile

end CoverageReplay
