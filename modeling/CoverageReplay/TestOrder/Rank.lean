import CoverageReplay.TestOrder.Greedy
import CoverageReplay.TestOrder.Strategy

/-!
# The order of tests

`TestOrder.apply` puts tests in the order of a strategy, `explain` reports the two counts of each
test along any order, `TestOrder.rank` does both. Ties keep the caller's order.
-/

namespace CoverageReplay

/-- A strategy with the weights it may need. -/
structure TestOrder where
  strategy : SortStrategy
  weights : ImportanceWeights
  deriving Inhabited

/-- A test at its place in an order. -/
structure RankedTest where
  name : String
  /-- The statements that the test covers on its own. -/
  raw : Nat
  /-- The statements in regions that no test before it runs. -/
  netNew : Nat
  deriving DecidableEq, Repr, Inhabited

/-- A count as a score. -/
def countScore (n : Nat) : Float := (UInt64.ofNat n).toFloat

/-- The score of a candidate that counts only what it adds. -/
def netNewScore (seen : List Region) (c : Candidate) : Float :=
  countScore (c.gain seen)

/-- The weighted sum of what a candidate covers and what it adds. -/
def importanceScore (w : ImportanceWeights) (seen : List Region) (c : Candidate) : Float :=
  w.raw * countScore c.raw + w.netNew * countScore (c.gain seen)

/-- The candidates by falling `raw`. -/
def byRaw (candidates : List Candidate) : List Candidate :=
  candidates.mergeSort fun a b => decide (b.raw ≤ a.raw)

namespace TestOrder

/-- The candidates in the order of the strategy. -/
def arrange (order : TestOrder) (candidates : List Candidate) : List Candidate :=
  match order.strategy with
  | .hardcoded => candidates
  | .raw => byRaw candidates
  | .netNew => greedy netNewScore candidates
  | .importance => greedy (importanceScore order.weights) candidates

/-- The names of the tests in the order of the strategy. -/
def apply (order : TestOrder) (tests : TestProfiles) : List String :=
  (order.arrange tests.candidates).map Candidate.name

end TestOrder

/-- The statements of the regions not among `seen`, added to `count`, and the regions seen after
that. Each region counts where it stands first. -/
def countNew (seen : List Region) (count : Nat) : List (Region × Nat) → Nat × List Region
  | [] => (count, seen)
  | (region, statements) :: rest =>
    if seen.contains region then countNew seen count rest
    else countNew (region :: seen) (count + statements) rest

/-- The counts of some candidates in a row, after candidates that ran the regions `seen`. -/
def explainFrom (seen : List Region) : List Candidate → List RankedTest
  | [] => []
  | c :: rest =>
    let (netNew, seen) := countNew seen 0 c.statements.entries
    ⟨c.name, c.raw, netNew⟩ :: explainFrom seen rest

/-- The counts of the tests with the given names, in their order. Names without a test are
skipped. -/
def explain (order : List String) (tests : TestProfiles) : List RankedTest :=
  explainFrom [] (order.filterMap fun name => (tests.get? name).map (.ofProfile name))

/-- The tests in the order of the strategy, with their counts. -/
def TestOrder.rank (order : TestOrder) (tests : TestProfiles) : List RankedTest :=
  explain (order.apply tests) tests

end CoverageReplay
