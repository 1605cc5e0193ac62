import CoverageReplay.Coverage.Profile

/-!
# The profiles of several tests

Tests in the order in which the caller listed them, each name once: a name that is listed again
keeps its first place and profile.
-/

namespace CoverageReplay

/-- The profiles of tests in the caller's order. -/
structure TestProfiles where
  entries : List (String × Profile)
  deriving DecidableEq, Repr, Inhabited

namespace TestProfiles

/-- No tests. -/
def empty : TestProfiles := ⟨[]⟩

/-- The names of the tests in the caller's order. -/
def names (tests : TestProfiles) : List String := tests.entries.map Prod.fst

/-- The profile of a test. -/
def get? (tests : TestProfiles) (test : String) : Option Profile :=
  (tests.entries.find? fun e => e.1 = test).map Prod.snd

/-- Whether a test is listed. -/
def contains (tests : TestProfiles) (test : String) : Bool :=
  tests.names.contains test

/-- Lists a test last, unless its name is listed already. -/
def insert (tests : TestProfiles) (test : String) (profile : Profile) : TestProfiles :=
  if tests.contains test then tests else ⟨tests.entries ++ [(test, profile)]⟩

/-- The tests of a list, of which a repeated name counts once. -/
def ofList (entries : List (String × Profile)) : TestProfiles :=
  entries.foldl (fun tests e => tests.insert e.1 e.2) empty

/-- The number of tests. -/
def size (tests : TestProfiles) : Nat := tests.entries.length

end TestProfiles

end CoverageReplay
