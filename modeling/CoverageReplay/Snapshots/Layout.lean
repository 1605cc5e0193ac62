import CoverageReplay.Command.Error
import CoverageReplay.Files.Path
import CoverageReplay.Text.Blank
import CoverageReplay.Text.Number
import CoverageReplay.Text.Quoted

/-!
# Where snapshots are kept

Each snapshot has a directory of its own, named by its index and label, and keeps its files there
under relative paths. A file name without a relative path, or two names with the same one, cannot be
kept.
-/

namespace CoverageReplay

open Text

namespace DirectoryName

/-- Whether a character may stand in the label of a directory name. -/
def isPlain (c : Char) : Bool :=
  c.isAlphanum || c = '_' || c = '-' || c = '.'

/-- An index with at least three digits. -/
def index (n : Nat) : List Char := (decimal n).leftpad 3 '0'

/-- The directory name of a snapshot: its index, a hyphen, and its label with every character that
is not plain replaced by a low line. -/
def ofLabel (n : Nat) (label : String) : String :=
  String.ofList (index n ++ '-' :: label.toList.map fun c => if isPlain c then c else '_')

/-- Whether a text has the shape of a directory name: at least three digits, a hyphen, and a label
of plain characters that is not empty. -/
def isValid (name : String) : Bool :=
  match splitFirst '-' name.toList with
  | some (index, label) =>
    3 ≤ index.length && index.all Char.isDigit && !label.isEmpty && label.all isPlain
  | none => false

end DirectoryName

/-- The names of a file path below a directory. Roots are dropped; a path that leads upwards or
names nothing is refused. -/
def relativeParts (file : String) : Except CommandError (List String) :=
  let parts := Path.parts file
  if parts.contains ".." then .error (.output ("refusing path with '..': " ++ file))
  else if parts.isEmpty then .error (.output ("empty file path " ++ quote file))
  else .ok parts

/-- A file with the relative path that it is kept under. -/
structure PlacedFile where
  file : String
  relative : String
  deriving DecidableEq, Repr, Inhabited

/-- The place of one file. -/
def placeFile (file : String) : Except CommandError PlacedFile := do
  return ⟨file, Path.ofParts (← relativeParts file)⟩

/-- The places of some files, `placed` being the places given before. -/
def placeFilesFrom (placed : List PlacedFile) : List String → Except CommandError (List PlacedFile)
  | [] => .ok []
  | file :: rest => do
    let here ← placeFile file
    match placed.find? fun other => other.relative = here.relative with
    | some other =>
      .error (.output (other.file ++ " and " ++ file ++ " both map to " ++ here.relative))
    | none => return here :: (← placeFilesFrom (here :: placed) rest)

/-- The places of the files of one snapshot, all different. -/
def placeFiles (files : List String) : Except CommandError (List PlacedFile) :=
  placeFilesFrom [] files

end CoverageReplay
