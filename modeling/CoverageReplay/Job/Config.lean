import CoverageReplay.TestOrder.Strategy

/-!
# What a job is asked to do
-/

namespace CoverageReplay

/-- The tests to replay. -/
structure JobConfig where
  package : String
  /-- The tests in the caller's order. -/
  tests : List String
  sort : SortStrategy
  deriving DecidableEq, Repr, Inhabited

/-- The first entry of a list that repeats one before it, `seen` being the entries before the
list. -/
def firstRepeated (seen : List String) : List String → Option String
  | [] => none
  | t :: rest => if seen.contains t then some t else firstRepeated (t :: seen) rest

/-- Refuses a list of tests that names one twice. -/
def ensureDistinct (tests : List String) : Except ReplayError Unit :=
  match firstRepeated [] tests with
  | none => .ok ()
  | some test => .error (.config ("test " ++ test ++ " is listed more than once"))

/-- Refuses a job that names a test twice. -/
def JobConfig.validate (job : JobConfig) : Except ReplayError Unit :=
  ensureDistinct job.tests

end CoverageReplay
