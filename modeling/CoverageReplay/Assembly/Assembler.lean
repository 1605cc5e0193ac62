import CoverageReplay.Assembly.Sources
import CoverageReplay.Assembly.Task
import CoverageReplay.Job.Config
import CoverageReplay.Pruning
import CoverageReplay.TestOrder.Rank

/-!
# Assembling snapshots

A job asks for the profile of each test, orders the tests, and goes through them in this order,
merging their coverage. After each test it prunes every file that the merged coverage knows. The
files as they were form the baseline.

A file is parsed once for a job and read once for its baseline; later snapshots prune the same tree.
-/

namespace CoverageReplay

/-- What all snapshots of a job are made with. -/
structure Assembler where
  sources : SourceSet
  order : TestOrder
  maxPasses : Nat

/-- What a job keeps of source files from one snapshot to the next. -/
structure Workbench where
  /-- The trees as parsed. -/
  pristine : SortedMap String SourceTree
  /-- The contents as read. -/
  baseline : Snapshot
  deriving Inhabited

namespace Workbench

/-- The workbench of a new job. -/
def empty : Workbench := ⟨.empty, .empty⟩

/-- The tree of a file, parsed unless it has been before. -/
def tree (sources : SourceSet) (path : String) (bench : Workbench) :
    Except ReplayError (SourceTree × Workbench) :=
  match bench.pristine.get? path with
  | some t => .ok (t, bench)
  | none => do
    let t ← sources.parse path
    return (t, { bench with pristine := bench.pristine.insert path t })

/-- Reads a file for the baseline unless it has been read before. -/
def keep (sources : SourceSet) (path : String) (bench : Workbench) : Except ReplayError Workbench :=
  if bench.baseline.contains path then .ok bench
  else do
    let contents ← sources.read path
    return { bench with baseline := bench.baseline.insert path contents }

/-- The contents of a pruned file. -/
def pruneFile (a : Assembler) (merged : MergedCoverage) (path : String) (bench : Workbench) :
    Except ReplayError (ByteArray × Workbench) := do
  let (t, bench) ← bench.tree a.sources path
  let (pruned, _) ← t.prune? merged a.maxPasses
  let contents ← a.sources.render pruned
  let bench ← bench.keep a.sources path
  return (contents, bench)

/-- The contents of some pruned files. -/
def pruneFiles (a : Assembler) (merged : MergedCoverage) :
    List String → Workbench → Except ReplayError (List (String × ByteArray) × Workbench)
  | [], bench => .ok ([], bench)
  | path :: rest, bench => do
    let (contents, bench) ← pruneFile a merged path bench
    let (others, bench) ← pruneFiles a merged rest bench
    return ((path, contents) :: others, bench)

/-- The snapshot for merged coverage. -/
def snapshot (a : Assembler) (merged : MergedCoverage) (bench : Workbench) :
    Except ReplayError (Snapshot × Workbench) := do
  let (files, bench) ← pruneFiles a merged merged.files.keys bench
  return (⟨files⟩, bench)

end Workbench

namespace Assembler

/-- The snapshots for the tests that are left, after those of `order` before them. -/
def assembleFrom (a : Assembler) (order : List String) (profiles : TestProfiles)
    (snapshots : List Snapshot) (merged : MergedCoverage) (bench : Workbench) : List String → Task
  | [] => .done (.ok ⟨order, snapshots ++ [bench.baseline]⟩)
  | test :: rest =>
    .report ("Constructing snapshot " ++ toString (snapshots.length + 1) ++ " of " ++
        toString order.length) <|
      match profiles.get? test with
      | none => .done (.error (.config ("no profile for test " ++ test)))
      | some p =>
        let merged := merged.merge p
        match bench.snapshot a merged with
        | .error e => .done (.error e)
        | .ok (s, bench) => assembleFrom a order profiles (snapshots ++ [s]) merged bench rest

/-- One snapshot for each test of an order, then the baseline. -/
def assemble (a : Assembler) (order : List String) (profiles : TestProfiles) : Task :=
  a.assembleFrom order profiles [] .empty .empty order

/-- Asks for the profiles of the tests that are left, `profiles` being those of the tests before,
and goes on with all of them. -/
def collectFrom (package : String) (total : Nat) (next : TestProfiles → Task)
    (profiles : TestProfiles) : List String → Task
  | [] => next profiles
  | test :: rest =>
    .report ("Computing coverage for " ++ toString (profiles.size + 1) ++ " of " ++
        toString total ++ " tests") <|
      .ask package test fun
        | .error e => .done (.error e)
        | .ok p => collectFrom package total next (profiles.insert test p) rest

/-- Asks for the profiles of tests, which must be different, and goes on with them. -/
def collectProfiles (package : String) (tests : List String) (next : TestProfiles → Task) : Task :=
  match ensureDistinct tests with
  | .error e => .done (.error e)
  | .ok () => collectFrom package tests.length next .empty tests

/-- Profiles, orders and snapshots tests. -/
def run (a : Assembler) (package : String) (tests : List String) : Task :=
  collectProfiles package tests fun profiles =>
    .report "Computing test ordering" (a.assemble (a.order.apply profiles) profiles)

end Assembler

end CoverageReplay
