import CoverageReplay.Files.Fault

/-!
# Errors of a replay

One constructor for each cause, `ReplayError.message` for the wording.
-/

namespace CoverageReplay

/-- Why a replay operation failed. -/
inductive ReplayError where
  /-- No profile could be obtained for a test. -/
  | oracle (package test reason : String)
  /-- A line of a profile text is malformed. -/
  | profile (line : Nat) (reason : String)
  /-- A source file could not be parsed. -/
  | parse (path reason : String)
  /-- A pruned tree could not be turned back into text. -/
  | render (path reason : String)
  /-- A source file could not be read. -/
  | read (path reason : String)
  /-- A cache entry holds a payload of another type. -/
  | cacheProtocol (cache key : String)
  /-- A cache no longer answers. -/
  | cacheClosed (cache : String)
  /-- The last allowed pass still removed something. -/
  | pruneDiverged (path : String) (passes : Nat)
  /-- A job panicked. -/
  | workerPanicked (reason : String)
  | config (reason : String)
  | io (fault : FileFault)
  | json (reason : String)
  | yaml (reason : String)
  deriving DecidableEq, Repr, Inhabited

namespace ReplayError

/-- The text shown for the error. -/
def message : ReplayError → String
  | oracle package test reason =>
    "Coverage oracle failed for " ++ package ++ "-" ++ test ++ ": " ++ reason
  | profile line reason =>
    "Malformed coverage profile at line " ++ toString line ++ ": " ++ reason
  | parse path reason => "Failed to parse " ++ path ++ ": " ++ reason
  | render path reason => "Failed to render " ++ path ++ ": " ++ reason
  | read path reason => "Failed to read " ++ path ++ ": " ++ reason
  | cacheProtocol cache key =>
    "Unexpected payload type in " ++ cache ++ " cache for key " ++ key
  | cacheClosed cache => "The " ++ cache ++ " cache worker is no longer running"
  | pruneDiverged path passes =>
    "Pruning " ++ path ++ " did not reach a fixpoint within " ++ toString passes ++ " passes"
  | workerPanicked reason => "Job worker panicked: " ++ reason
  | config reason => "Configuration error: " ++ reason
  | io fault => "I/O error: " ++ fault.message
  | json reason => "JSON error: " ++ reason
  | yaml reason => "YAML error: " ++ reason

/-- Whether the cause lies with whoever supplies profiles or sources. -/
def isCollaborator : ReplayError → Bool
  | oracle .. | profile .. | parse .. | render .. | read .. => true
  | _ => false

end ReplayError

end CoverageReplay
