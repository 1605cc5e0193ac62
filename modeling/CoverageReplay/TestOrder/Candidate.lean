import CoverageReplay.SortedMap
import CoverageReplay.TestOrder.TestProfiles
import CoverageReplay.Total

/-!
# What a test contributes

A candidate is a test together with the regions that it runs. Two counts rank it: `raw`, the
statements that it covers on its own, and `gain`, those of them that lie in regions not seen before.
-/

namespace CoverageReplay

/-- A test with the regions that it runs and the statements of each. -/
structure Candidate where
  name : String
  statements : SortedMap Region Nat
  deriving DecidableEq, Repr, Inhabited

namespace Candidate

/-- The candidate of a test with the given profile. -/
def ofProfile (name : String) (profile : Profile) : Candidate :=
  ⟨name, .ofList (profile.coveredBlocks.map fun b => (b.region, b.statements.toNat))⟩

/-- The regions that the test runs. -/
def regions (c : Candidate) : List Region := c.statements.keys

/-- The statements that the test covers on its own. -/
def raw (c : Candidate) : Nat := total c.statements.values

/-- The statements that the test covers in regions not among `seen`. -/
def gain (seen : List Region) (c : Candidate) : Nat :=
  total ((c.statements.entries.filter fun e => !seen.contains e.1).map Prod.snd)

end Candidate

/-- The candidates of some tests, in the caller's order. -/
def TestProfiles.candidates (tests : TestProfiles) : List Candidate :=
  tests.entries.map fun (name, profile) => .ofProfile name profile

end CoverageReplay
