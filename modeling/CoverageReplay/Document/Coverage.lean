import CoverageReplay.Coverage.Profile
import CoverageReplay.Json.Decode

/-!
# Documents about coverage

Positions, modes and profiles as JSON.
-/

namespace CoverageReplay

open Json

namespace Position

/-- The document of a position. -/
def toJson (p : Position) : Json :=
  .object [("line", .ofNat p.line.toNat), ("column", .ofNat p.column.toNat)]

/-- The position of a document. -/
def ofJson? (v : Json) : Option Position := do
  match ← record? ["line", "column"] v with
  | [line, column] => return ⟨← need word32? line, ← need word32? column⟩
  | _ => none

end Position

namespace SourceRange

/-- The document of a range. -/
def toJson (r : SourceRange) : Json :=
  .object [("start", r.start.toJson), ("end", r.stop.toJson)]

/-- The range of a document. -/
def ofJson? (v : Json) : Option SourceRange := do
  match ← record? ["start", "end"] v with
  | [start, stop] => return ⟨← need Position.ofJson? start, ← need Position.ofJson? stop⟩
  | _ => none

end SourceRange

namespace Mode

/-- The document of a mode. -/
def toJson (m : Mode) : Json := .text m.name

/-- The mode of a document. -/
def ofJson? (v : Json) : Option Mode := (name? v).bind ofName?

end Mode

namespace Block

/-- The document of a block. -/
def toJson (b : Block) : Json :=
  .object
    [("file", .text b.file), ("range", b.range.toJson), ("statements", .ofNat b.statements.toNat),
      ("executed", .ofNat b.executed.toNat)]

/-- The block of a document. -/
def ofJson? (v : Json) : Option Block := do
  match ← record? ["file", "range", "statements", "executed"] v with
  | [file, range, statements, executed] =>
    return ⟨← need text? file, ← need SourceRange.ofJson? range, ← need word32? statements,
      ← need word32? executed⟩
  | _ => none

end Block

namespace Profile

/-- The document of a profile. -/
def toJson (p : Profile) : Json :=
  .object [("mode", p.mode.toJson), ("blocks", Json.ofList Block.toJson p.blocks)]

/-- The profile of a document. Its blocks are taken as they stand there. -/
def ofJson? (v : Json) : Option Profile := do
  match ← record? ["mode", "blocks"] v with
  | [mode, blocks] => return ⟨← need Mode.ofJson? mode, ← need (list? Block.ofJson?) blocks⟩
  | _ => none

end Profile

end CoverageReplay
