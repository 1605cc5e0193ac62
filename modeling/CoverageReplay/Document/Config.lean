import CoverageReplay.Config
import CoverageReplay.Json.Decode
import CoverageReplay.Json.Real

/-!
# Settings as JSON

A setting that a document leaves out keeps its standard value.
-/

namespace CoverageReplay

open Json

namespace ImportanceWeights

/-- The document of weights. -/
def toJson (w : ImportanceWeights) : Json :=
  .object [("raw", .ofFloat w.raw), ("net_new", .ofFloat w.netNew)]

/-- The weights of a document. -/
def ofJson? (v : Json) : Option ImportanceWeights := do
  match ← record? ["raw", "net_new"] v with
  | [raw, netNew] =>
    return ⟨← orElse float? standard.raw raw, ← orElse float? standard.netNew netNew⟩
  | _ => none

end ImportanceWeights

namespace ReplayConfig

/-- The names of the settings in documents. -/
def settingNames : List String :=
  ["max_concurrent_jobs", "cache_queue_depth", "max_prune_passes", "verify_render",
    "importance_weights"]

/-- The document of settings. -/
def toJson (c : ReplayConfig) : Json :=
  .object (settingNames.zip
    [.ofNat c.maxConcurrentJobs, .ofNat c.cacheQueueDepth, .ofNat c.maxPrunePasses,
      .bool c.verifyRender, c.weights.toJson])

/-- The settings of a document. -/
def ofJson? (v : Json) : Option ReplayConfig := do
  match ← record? settingNames v with
  | [jobs, depth, passes, verify, weights] =>
    return ⟨← orElse count? standard.maxConcurrentJobs jobs,
      ← orElse count? standard.cacheQueueDepth depth,
      ← orElse count? standard.maxPrunePasses passes,
      ← orElse bool? standard.verifyRender verify,
      ← orElse ImportanceWeights.ofJson? standard.weights weights⟩
  | _ => none

end ReplayConfig

end CoverageReplay
