import CoverageReplay.Snapshots.Manifest

/-!
# Checking out a snapshot

The files of a snapshot are copied over a working tree: those with relative names below its root,
those with absolute names to where they came from. All names are placed before the first file is
copied.
-/

namespace CoverageReplay

open FileAction

/-- Where a file of a snapshot belongs. -/
def PlacedFile.target (root : String) (f : PlacedFile) : String :=
  if Path.isAbsolute f.file then f.file else Path.join root f.relative

/-- Copies files out of the directory of a snapshot, and gives their targets. -/
def copyFiles (dir root : String) : List PlacedFile → FileAction FileFault (List String)
  | [] => pure []
  | f :: rest => do
    let target := f.target root
    makeParents target
    copy (Path.join dir f.relative) target
    return target :: (← copyFiles dir root rest)

/-- Copies a snapshot of an output directory over a working tree, and gives the paths written. -/
def checkoutSnapshot (out : String) (index : Nat) (root : String) :
    FileAction CommandError (List String) := do
  let manifest ← look (Manifest.load out)
  let entry ← FileAction.ofExcept (manifest.snapshot? index)
  if DirectoryName.isValid entry.dir then
    let files ← FileAction.ofExcept (placeFiles entry.files)
    mapError .io (copyFiles (Path.join out entry.dir) root files)
  else
    throw (.output ("manifest names snapshot directory " ++ Text.quote entry.dir ++
      " outside " ++ out))

end CoverageReplay
