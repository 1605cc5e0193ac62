import CoverageReplay.Json.Decode
import CoverageReplay.TestOrder.Rank

/-!
# Documents about the order of tests

Strategies and ranked tests as JSON.
-/

namespace CoverageReplay

open Json

namespace SortStrategy

/-- The document of a strategy. -/
def toJson (s : SortStrategy) : Json := .text s.key

/-- The strategy of a document. -/
def ofJson? (v : Json) : Option SortStrategy := (name? v).bind ofKey?

end SortStrategy

namespace RankedTest

/-- The document of a ranked test. -/
def toJson (t : RankedTest) : Json :=
  .object [("name", .text t.name), ("raw", .ofNat t.raw), ("net_new", .ofNat t.netNew)]

/-- The ranked test of a document. -/
def ofJson? (v : Json) : Option RankedTest := do
  match ← record? ["name", "raw", "net_new"] v with
  | [name, raw, netNew] => return ⟨← need text? name, ← need count? raw, ← need count? netNew⟩
  | _ => none

end RankedTest

end CoverageReplay
