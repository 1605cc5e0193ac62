import CoverageReplay.Coverage.ProfileText
import CoverageReplay.Files.Tree

/-!
# Where profiles come from

An oracle knows the coverage profile of a test of a package, or why there is none. Profiles are
recorded in memory (`recordedOracle`) or as files of a directory (`directoryOracle`).
-/

namespace CoverageReplay

/-- What becomes of asking for a profile. -/
inductive OracleOutcome where
  | answer (result : Except ReplayError Profile)
  /-- The oracle broke down. -/
  | panic (reason : String)
  deriving Inhabited

/-- Knows the profile of a test of a package. -/
abbrev CoverageOracle := (package test : String) → OracleOutcome

/-- What is recorded of a test. -/
inductive RecordedOutcome where
  | profile (p : Profile)
  | failure (reason : String)
  | panic (reason : String)
  deriving Inhabited

/-- What is recorded, by package and test. -/
abbrev Recordings := List ((String × String) × RecordedOutcome)

/-- The oracle of some recordings, of which the last one of a test counts. -/
def recordedOracle (recordings : Recordings) : CoverageOracle := fun package test =>
  match recordings.reverse.find? fun r => r.1 = (package, test) with
  | some (_, .profile p) => .answer (.ok p)
  | some (_, .failure reason) => .answer (.error (.oracle package test reason))
  | some (_, .panic reason) => .panic reason
  | none => .answer (.error (.oracle package test "no coverage recorded"))

/-- The path of the profile of a test. -/
def profilePath (dir package test : String) : String :=
  Path.join (Path.join dir package) (test ++ ".out")

/-- The oracle of the profiles in a directory. -/
def directoryOracle (files : FileTree) (dir : String) : CoverageOracle := fun package test =>
  let path := profilePath dir package test
  match files.readText path with
  | .ok text => .answer (Profile.parse? text)
  | .error fault => .answer (.error (.oracle package test (path ++ ": " ++ fault.message)))

end CoverageReplay
