import CoverageReplay.Document.Order
import CoverageReplay.Job.Config
import CoverageReplay.Job.Status
import CoverageReplay.Json.Real

/-!
# Documents about jobs

What a job is asked to do, its status and its result as JSON. The field `state` of a status says
which of its other fields belong to it. A status is read as a whole before its state is known, so
unlike the other documents it must be storable throughout, and nested at most 127 deep.
-/

namespace CoverageReplay

open Json

/-- The document of texts in a row. -/
def textsToJson (ts : List String) : Json := Json.ofList .text ts

namespace JobConfig

/-- The document of a job's settings. -/
def toJson (j : JobConfig) : Json :=
  .object [("package", .text j.package), ("tests", textsToJson j.tests), ("sort", j.sort.toJson)]

/-- The job's settings of a document. The caller's order is kept when it names no strategy. -/
def ofJson? (v : Json) : Option JobConfig := do
  match ← record? ["package", "tests", "sort"] v with
  | [package, tests, sort] =>
    return ⟨← need text? package, ← need (list? text?) tests,
      ← orElse SortStrategy.ofJson? .hardcoded sort⟩
  | _ => none

end JobConfig

/-- The document of a snapshot: an array of bytes for each file. -/
def snapshotToJson (s : Snapshot) : Json :=
  .object (s.entries.map fun (path, bytes) =>
    (path, Json.ofList (fun b => .ofNat b.toNat) bytes.data.toList))

/-- The contents of a file of a document. -/
def bytesOfJson? (v : Json) : Option ByteArray :=
  (list? byte? v).map fun bytes => ⟨bytes.toArray⟩

/-- The snapshot of a document. A path that is named again takes the later contents. -/
def snapshotOfJson? (v : Json) : Option Snapshot :=
  (entries? bytesOfJson? v).map SortedMap.ofList

namespace JobResult

/-- The fields of the document of a result. -/
def fields (r : JobResult) : List (String × Json) :=
  [("tests", textsToJson r.tests), ("snapshots", Json.ofList snapshotToJson r.snapshots)]

/-- The document of a result. -/
def toJson (r : JobResult) : Json := .object r.fields

/-- The result of a document. -/
def ofJson? (v : Json) : Option JobResult := do
  match ← record? ["tests", "snapshots"] v with
  | [tests, snapshots] =>
    return ⟨← need (list? text?) tests, ← need (list? snapshotOfJson?) snapshots⟩
  | _ => none

end JobResult

namespace JobStatus

/-- The document of a status. -/
def toJson : JobStatus → Json
  | inProgress details => .object [("state", .text "in_progress"), ("details", .text details)]
  | complete result => .object (("state", .text "complete") :: result.fields)
  | failed reason => .object [("state", .text "failed"), ("error", .text reason)]

/-- The only field of a record. -/
def onlyText? (name : String) (v : Json) : Option String := do
  match ← record? [name] v with
  | [field] => need text? field
  | _ => none

/-- The status of a state and the document of its fields. -/
def ofState? (fields : Json) : String → Option JobStatus
  | "in_progress" => (onlyText? "details" fields).map inProgress
  | "complete" => (JobResult.ofJson? fields).map complete
  | "failed" => (onlyText? "error" fields).map failed
  | _ => none

/-- The state that a document names, and the document of its fields. In an array the state stands
first. -/
def split? : Json → Option (String × Json)
  | .object fields => do
    let state ← (← single? "state" fields).bind text?
    return (state, .object (fields.filter fun f => f.1 ≠ "state"))
  | .array (state :: rest) => (text? state).map (·, .array rest)
  | _ => none

/-- The status of a document. -/
def ofJson? (v : Json) : Option JobStatus :=
  if v.isStorable && v.depth ≤ 127 then
    (split? v).bind fun (state, fields) => ofState? fields state
  else none

end JobStatus

end CoverageReplay
