import CoverageReplay.Assembly.Task
import CoverageReplay.Job.Config
import CoverageReplay.Job.Id
import CoverageReplay.Oracle.Inquiry

/-!
# Workers

Each job has a worker. It announces the job, takes a slot or waits for one, runs the task of the
job, gives the slot back, and stores the final status. While it wants something of a cache it does
nothing else.
-/

namespace CoverageReplay

/-- How far a worker has come. -/
inductive WorkerStage where
  /-- Stores the first status; whoever starts the job waits for that. -/
  | announcing
  /-- Is about to take a slot. -/
  | arriving
  /-- Stores that it waits for a slot. -/
  | telling
  /-- Waits for a slot. -/
  | queued
  /-- Stores a report of the task. -/
  | reporting (details : String) (next : Task)
  /-- Asks for a profile. -/
  | asking (inquiry : Inquiry) (next : Except ReplayError Profile → Task)
  /-- Stores the final status. -/
  | finishing (status : JobStatus)
  | ended
  deriving Inhabited

namespace WorkerStage

/-- Whether a worker at this stage has a slot. -/
def holdsSlot : WorkerStage → Bool
  | reporting .. | asking .. => true
  | _ => false

/-- Whether the job counts as running at this stage. -/
def isActive : WorkerStage → Bool
  | announcing | ended => false
  | _ => true

/-- Where a worker is that goes on with a task. -/
def ofTask : Task → WorkerStage
  | .report details next => reporting details next
  | .ask package test next => asking (.begin package test) next
  | .done outcome => finishing (.ofOutcome outcome)

/-- Where a worker is that goes on with an inquiry. -/
def ofInquiry (i : Inquiry) (next : Except ReplayError Profile → Task) : WorkerStage :=
  match i.outcome? with
  | none => asking i next
  | some (.answer result) => ofTask (next result)
  | some (.panic reason) => finishing (.ofOutcome (.error (.workerPanicked reason)))

end WorkerStage

/-- The worker of a job. -/
structure Worker where
  id : JobId
  job : JobConfig
  /-- What is to be done once there is a slot. -/
  task : Task
  stage : WorkerStage
  /-- Whether what it wants of a cache has been sent. -/
  sent : Bool
  deriving Inhabited

/-- The two caches of an orchestrator. -/
inductive CacheRole where
  | jobs
  | profiles
  deriving DecidableEq, Repr, Inhabited

namespace Worker

/-- The worker of a new job. -/
def start (id : JobId) (job : JobConfig) (task : Task) : Worker :=
  ⟨id, job, task, .announcing, false⟩

/-- The request that stores a status of the job. -/
def publish (w : Worker) (s : JobStatus) : CacheRole × CacheRequest Payload :=
  (.jobs, .write w.id.text (.status s))

/-- What the worker wants of a cache. -/
def request? (w : Worker) : Option (CacheRole × CacheRequest Payload) :=
  match w.stage with
  | .announcing => some (w.publish (.inProgress "Initializing job"))
  | .telling => some (w.publish (.inProgress "Waiting for a worker slot"))
  | .reporting details _ => some (w.publish (.inProgress details))
  | .asking inquiry _ => inquiry.request?.map (.profiles, ·)
  | .finishing status => some (w.publish status)
  | _ => none

/-- Where the worker is after a reply. -/
def onReply (w : Worker) (profiles : Cache Payload) (reply : CacheReply Payload) : WorkerStage :=
  match w.stage with
  | .announcing => .arriving
  | .telling => .queued
  | .reporting _ next => .ofTask next
  | .asking inquiry next => .ofInquiry (inquiry.onReply profiles reply) next
  | .finishing _ => .ended
  | stage => stage

/-- The test that the worker consults the oracle for. -/
def consulting? (w : Worker) : Option (String × String) :=
  match w.stage with
  | .asking ⟨package, test, .consulting⟩ _ => some (package, test)
  | _ => none

end Worker

end CoverageReplay
