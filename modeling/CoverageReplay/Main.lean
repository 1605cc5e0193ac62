import CoverageReplay.Command.Program
import CoverageReplay.Command.Reach
import CoverageReplay.Files.Change

/-!
# The command line

Reads the files that a command looks at, lets the program work on them, and carries out the changes.
Since one file tells of others, reading goes on until no further file matters.
-/

open CoverageReplay

namespace CoverageReplay.Disk

/-- The absolute path of a location. -/
def path (l : Location) : String := "/" ++ Path.ofParts l

/-- What a location holds on disk. Whatever is there and cannot be read counts as a directory. -/
def entryAt (l : Location) : IO (Option FileEntry) := do
  try
    return some (.file (← IO.FS.readBinFile (path l)))
  catch
    | .noFileOrDirectory .. => return none
    | _ => return some .directory

/-- Reads the entries along some names, from a location on. -/
def readAlong (files : FileTree) (l : Location) : List String → IO FileTree
  | [] => return files
  | name :: rest => do
    match FileTree.step l name with
    | .error _ => return files
    | .ok next =>
      if next.isEmpty then readAlong files next rest
      else
        match files.find? next with
        | some _ => readAlong files next rest
        | none =>
          match ← entryAt next with
          | some e => readAlong (files.set next e) next rest
          | none => return files

/-- Reads the entries along some paths. -/
def readPaths (files : FileTree) (paths : List String) : IO FileTree :=
  paths.foldlM (fun files p => readAlong files (files.base p) (Path.parts p)) files

/-- Reads the files that matter to an invocation, in `rounds` rounds at most. -/
def readFor (i : Invocation) : (rounds : Nat) → FileTree → IO FileTree
  | 0, files => return files
  | rounds + 1, files => do
    let touched := (files.changes (Program.perform false files i).files).map fun c =>
      path c.location
    let known ← readPaths files (i.reach files ++ touched)
    if known = files then return files else readFor i rounds known

/-- Carries out a change. -/
def apply : FileChange → IO Unit
  | .put l .directory => IO.FS.createDirAll (path l)
  | .put l (.file contents) => IO.FS.writeBinFile (path l) contents
  | .drop l => do
    match ← entryAt l with
    | none => return
    | some .directory => IO.FS.removeDirAll (path l)
    | some (.file _) => IO.FS.removeFile (path l)

/-- Carries out what an invocation has done. A run that got as far as to change files has removed
the snapshots before it whole, whatever else lay in their directories. -/
def applyOutcome (i : Invocation) (before : FileTree) (o : Program.Outcome) : IO Unit := do
  let mut start := before
  if o.code = 0 || o.files.entries ≠ before.entries then
    for dir in i.replaced before do
      if let .ok l := before.locate dir then
        apply (.drop l)
        start := start.drop l
  (start.changes o.files).forM apply

/-- What a command line leaves behind, with its changes carried out. -/
def run (words : List String) : IO Program.Outcome := do
  let terminal ← (← IO.getStderr).isTty
  let here := Path.parts (toString (← IO.currentDir))
  let files ← readAlong .empty [] here
  let files := { files with here }
  match Invocation.parse? words with
  | .error e => return Program.refuse files e
  | .ok i =>
    let files ← readFor i 16 files
    let outcome := Program.perform terminal files i
    applyOutcome i files outcome
    return outcome

end CoverageReplay.Disk

/-- Runs the program on the words of a command line. -/
def main (words : List String) : IO UInt32 := do
  let outcome ← Disk.run words
  IO.print outcome.out
  IO.eprint outcome.err
  return UInt32.ofNat outcome.code
