import CoverageReplay.Assembly.Snapshot
import CoverageReplay.Document.Job
import CoverageReplay.Files.Action
import CoverageReplay.Json.Reader
import CoverageReplay.Json.Writer
import CoverageReplay.Snapshots.Layout

/-!
# Manifests

A manifest lists the snapshots of a replay with their directories and files. It is kept as an
indented JSON document, `manifest.json`, beside the directories.
-/

namespace CoverageReplay

/-- One snapshot in a manifest. -/
structure ManifestEntry where
  index : Nat
  /-- The test that the snapshot belongs to, or `baseline`. -/
  label : String
  /-- The name of the directory that holds the files. -/
  dir : String
  /-- The files by the names that profiles give them. -/
  files : List String
  deriving DecidableEq, Repr, Inhabited

/-- The snapshots of a replay. -/
structure Manifest where
  package : String
  sort : SortStrategy
  /-- The tests in the order of the replay. -/
  tests : List String
  snapshots : List ManifestEntry
  deriving DecidableEq, Repr, Inhabited

open Json

namespace ManifestEntry

/-- The entry of a snapshot. -/
def ofSnapshot (index : Nat) (label : String) (snapshot : Snapshot) : ManifestEntry :=
  ⟨index, label, DirectoryName.ofLabel index label, snapshot.keys⟩

/-- The document of an entry. -/
def toJson (e : ManifestEntry) : Json :=
  .object [("index", .ofNat e.index), ("label", .text e.label), ("dir", .text e.dir),
    ("files", textsToJson e.files)]

/-- The entry of a document. -/
def ofJson? (v : Json) : Option ManifestEntry := do
  match ← record? ["index", "label", "dir", "files"] v with
  | [index, label, dir, files] =>
    return ⟨← need count? index, ← need text? label, ← need text? dir, ← need (list? text?) files⟩
  | _ => none

end ManifestEntry

namespace Manifest

/-- The label of the snapshot that holds the files as they were. -/
def baselineLabel : String := "baseline"

/-- The entries of snapshots from an index on. Those beyond the tests are baselines. -/
def entriesFrom (index : Nat) : List String → List Snapshot → List ManifestEntry
  | _, [] => []
  | [], s :: rest => .ofSnapshot index baselineLabel s :: entriesFrom (index + 1) [] rest
  | test :: tests, s :: rest => .ofSnapshot index test s :: entriesFrom (index + 1) tests rest

/-- The manifest of a result. -/
def describe (package : String) (sort : SortStrategy) (result : JobResult) : Manifest :=
  ⟨package, sort, result.tests, entriesFrom 0 result.tests result.snapshots⟩

/-- The entry of a snapshot. -/
def snapshot? (m : Manifest) (index : Nat) : Except CommandError ManifestEntry :=
  match m.snapshots[index]? with
  | some entry => .ok entry
  | none =>
    .error (.invalidArgument ("snapshot index " ++ toString index ++ " out of range (run has " ++
      toString m.snapshots.length ++ " snapshots)"))

/-- The document of a manifest. -/
def toJson (m : Manifest) : Json :=
  .object [("package", .text m.package), ("sort", m.sort.toJson), ("tests", textsToJson m.tests),
    ("snapshots", Json.ofList ManifestEntry.toJson m.snapshots)]

/-- The manifest of a document. -/
def ofJson? (v : Json) : Option Manifest := do
  match ← record? ["package", "sort", "tests", "snapshots"] v with
  | [package, sort, tests, snapshots] =>
    return ⟨← need text? package, ← need SortStrategy.ofJson? sort, ← need (list? text?) tests,
      ← need (list? ManifestEntry.ofJson?) snapshots⟩
  | _ => none

/-- The manifest of a text. -/
def parse? (text : String) : Except CommandError Manifest :=
  match (Json.read? text).bind ofJson? with
  | some m => .ok m
  | none => .error (.json "not a manifest")

/-- The text of a manifest. -/
def render (m : Manifest) : String := m.toJson.pretty

/-! ## Files -/

/-- The path of the manifest of an output directory. -/
def path (out : String) : String := Path.join out "manifest.json"

/-- Reads the manifest of an output directory. -/
def load (out : String) (t : FileTree) : Except CommandError Manifest :=
  match t.readText (path out) with
  | .ok contents => parse? contents
  | .error fault => .error (.invalidArgument (path out ++ ": " ++ fault.message))

/-- Writes the manifest of an output directory. -/
def save (m : Manifest) (out : String) : FileAction FileFault Unit :=
  FileAction.write (path out) m.render.toUTF8

end Manifest

end CoverageReplay
