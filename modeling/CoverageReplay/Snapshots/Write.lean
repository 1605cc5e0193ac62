import CoverageReplay.Snapshots.Manifest

/-!
# Writing snapshots

The snapshots of a result are laid out before anything is changed, so a result that cannot be kept
leaves the files alone. The directories of the replay before, as its manifest lists them, are
removed first; a listed name that has not the shape of a directory name is left alone. The manifest
is written last.
-/

namespace CoverageReplay

/-- The directory of a snapshot with the places and contents of its files. -/
structure SnapshotLayout where
  dir : String
  files : List (PlacedFile × ByteArray)

namespace SnapshotLayout

/-- The layout of one snapshot. -/
def ofEntry (entry : ManifestEntry) (snapshot : Snapshot) : Except CommandError SnapshotLayout := do
  let placed ← placeFiles entry.files
  return ⟨entry.dir, placed.zip snapshot.values⟩

/-- The layouts of some snapshots. -/
def ofEntries : List ManifestEntry → List Snapshot → Except CommandError (List SnapshotLayout)
  | entry :: entries, s :: snapshots => do
    let layout ← ofEntry entry s
    return layout :: (← ofEntries entries snapshots)
  | _, _ => .ok []

end SnapshotLayout

open FileAction

/-- Removes the directories of some entries. -/
def removeSnapshots (out : String) : List ManifestEntry → FileAction FileFault Unit
  | [] => pure ()
  | entry :: rest => do
    let dir := Path.join out entry.dir
    if DirectoryName.isValid entry.dir && (← get).isDirectory dir then removeDirectory dir
    removeSnapshots out rest

/-- Removes the directories of the replay that is kept in an output directory. -/
def removePrevious (out : String) : FileAction FileFault Unit := do
  match Manifest.load out (← get) with
  | .ok previous => removeSnapshots out previous.snapshots
  | .error _ => pure ()

/-- Writes files into the directory of a snapshot. -/
def writeFiles (dir : String) : List (PlacedFile × ByteArray) → FileAction FileFault Unit
  | [] => pure ()
  | (placed, contents) :: rest => do
    let path := Path.join dir placed.relative
    makeParents path
    write path contents
    writeFiles dir rest

/-- Writes some snapshots. -/
def writeLayouts (out : String) : List SnapshotLayout → FileAction FileFault Unit
  | [] => pure ()
  | layout :: rest => do
    writeFiles (Path.join out layout.dir) layout.files
    writeLayouts out rest

/-- Keeps a result in an output directory, and gives its manifest. -/
def writeSnapshots (out package : String) (sort : SortStrategy) (result : JobResult) :
    FileAction CommandError Manifest := do
  let manifest := Manifest.describe package sort result
  let layouts ← FileAction.ofExcept (SnapshotLayout.ofEntries manifest.snapshots result.snapshots)
  mapError .io do
    makeDirectories out
    removePrevious out
    writeLayouts out layouts
    manifest.save out
  return manifest

end CoverageReplay
