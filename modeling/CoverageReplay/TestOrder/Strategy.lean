import CoverageReplay.Error
import CoverageReplay.Text.Blank
import CoverageReplay.Text.Quoted

/-!
# Ways to order tests

The four strategies with their written names, and the weights of the one that blends two counts.
-/

namespace CoverageReplay

/-- How the tests of a replay are ordered. -/
inductive SortStrategy where
  /-- As the caller listed them. -/
  | hardcoded
  /-- By the statements that a test covers on its own, most first. -/
  | raw
  /-- Always the test next that adds most statements to those before it. -/
  | netNew
  /-- Always the test next with the largest weighted sum of both counts. -/
  | importance
  deriving DecidableEq, Repr, Inhabited

namespace SortStrategy

/-- The name shown to the user. -/
def name : SortStrategy → String
  | hardcoded => "hardcoded"
  | raw => "raw"
  | netNew => "net"
  | importance => "importance"

/-- The name in stored documents. -/
def key : SortStrategy → String
  | netNew => "net-new"
  | strategy => strategy.name

/-- All strategies. -/
def all : List SortStrategy := [hardcoded, raw, netNew, importance]

/-- The strategy with a name in stored documents. -/
def ofKey? (key : String) : Option SortStrategy :=
  all.find? fun strategy => strategy.key = key

/-- The strategy that a user's text names: blanks around the name and the case of ASCII letters do
not count, and an empty text keeps the caller's order. -/
def parse? (text : String) : Except ReplayError SortStrategy :=
  match String.ofList (Text.lowerAscii (Text.trim text.toList)) with
  | "hardcoded" | "" => .ok hardcoded
  | "raw" => .ok raw
  | "net" | "net-new" => .ok netNew
  | "importance" => .ok importance
  | other => .error (.config ("unknown sort strategy " ++ Text.quote other))

/-- The strategy that a user's text names; any other text keeps the caller's order. -/
def parseLossy (text : String) : SortStrategy :=
  (parse? text).toOption.getD hardcoded

end SortStrategy

/-- The weights of the two counts in the `importance` strategy. -/
structure ImportanceWeights where
  /-- The weight of the statements that a test covers on its own. -/
  raw : Float
  /-- The weight of the statements that it adds. -/
  netNew : Float
  deriving Inhabited

namespace ImportanceWeights

/-- What a test adds counts twice as much as what it covers. -/
def standard : ImportanceWeights := ⟨1.0, 2.0⟩

end ImportanceWeights

end CoverageReplay
