import CoverageReplay.Assembly.Snapshot
import CoverageReplay.Error

/-!
# The status of a job

A job is in progress until it is complete or has failed. These two are final.
-/

namespace CoverageReplay

/-- What can be seen of a job. -/
inductive JobStatus where
  /-- At work; the text names the current step. -/
  | inProgress (details : String)
  /-- Done. -/
  | complete (result : JobResult)
  /-- Given up; the text says why. -/
  | failed (reason : String)
  deriving Inhabited

namespace JobStatus

/-- Whether the job will not change its status again. -/
def isTerminal : JobStatus → Bool
  | inProgress _ => false
  | _ => true

/-- The final status for an outcome. -/
def ofOutcome : Except ReplayError JobResult → JobStatus
  | .ok result => complete result
  | .error e => failed e.message

end JobStatus

end CoverageReplay
