import CoverageReplay.Error

/-!
# Errors of commands

One constructor for each cause, `CommandError.message` for the wording.
-/

namespace CoverageReplay

/-- Why a command failed. -/
inductive CommandError where
  | config (reason : String)
  | invalidArgument (reason : String)
  /-- A replay job ended in failure. -/
  | jobFailed (reason : String)
  /-- Snapshots cannot be laid out in directories. -/
  | output (reason : String)
  | io (fault : FileFault)
  | json (reason : String)
  | replay (error : ReplayError)
  deriving DecidableEq, Repr, Inhabited

namespace CommandError

/-- The text shown for the error. -/
def message : CommandError → String
  | config reason => "Configuration error: " ++ reason
  | invalidArgument reason => "Invalid argument: " ++ reason
  | jobFailed reason => "Replay job failed: " ++ reason
  | output reason => "Snapshot output failed: " ++ reason
  | io fault => "I/O error: " ++ fault.message
  | json reason => "JSON error: " ++ reason
  | replay error => "Covreplay error: " ++ error.message

end CommandError

end CoverageReplay
