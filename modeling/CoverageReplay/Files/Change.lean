import CoverageReplay.Files.Tree

/-!
# Differences between trees of files

The changes that turn one tree into another: what goes away comes first, then what is new or
different, each directory before what it holds.
-/

namespace CoverageReplay

/-- One difference. -/
inductive FileChange where
  | drop (l : Location)
  | put (l : Location) (e : FileEntry)
  deriving DecidableEq, Inhabited

/-- The location that a change is about. -/
def FileChange.location : FileChange → Location
  | drop l => l
  | put l _ => l

/-- The changes that turn a tree into another. -/
def FileTree.changes (before after : FileTree) : List FileChange :=
  let gone := before.entries.entries.filter fun e => (after.find? e.1).isNone
  let new := after.entries.entries.filter fun e => before.find? e.1 ≠ some e.2
  gone.map (fun e => .drop e.1) ++ new.map fun e => .put e.1 e.2

end CoverageReplay
