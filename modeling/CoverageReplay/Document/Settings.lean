import CoverageReplay.Config
import CoverageReplay.Document.Config
import CoverageReplay.Files.Tree
import CoverageReplay.Yaml.Decode

/-!
# Settings as YAML

A settings file names only the settings that it changes.
-/

namespace CoverageReplay

/-- The weights of a node. -/
def ImportanceWeights.ofYaml? (d : Yaml.Document) (n : Yaml.Node) : Option ImportanceWeights := do
  let fields ← d.fields? n
  return ⟨← Yaml.Document.field? fields "raw" d.float? standard.raw,
    ← Yaml.Document.field? fields "net_new" d.float? standard.netNew⟩

namespace ReplayConfig

/-- The settings of a document. -/
def ofYaml? (d : Yaml.Document) : Option ReplayConfig := do
  let fields ← d.fields? d.root
  return ⟨← Yaml.Document.field? fields "max_concurrent_jobs" d.count? standard.maxConcurrentJobs,
    ← Yaml.Document.field? fields "cache_queue_depth" d.count? standard.cacheQueueDepth,
    ← Yaml.Document.field? fields "max_prune_passes" d.count? standard.maxPrunePasses,
    ← Yaml.Document.field? fields "verify_render" d.bool? standard.verifyRender,
    ← Yaml.Document.field? fields "importance_weights" (ImportanceWeights.ofYaml? d)
      standard.weights⟩

/-- The settings of a text, if a replay can run with them. -/
def parse? (text : String) : Except ReplayError ReplayConfig := do
  match (Yaml.Document.parse? text).bind ofYaml? with
  | none => .error (.yaml "not a mapping of settings")
  | some c =>
    c.validate
    return c

/-- The settings of a file. -/
def load (t : FileTree) (path : String) : Except ReplayError ReplayConfig :=
  match t.readText path with
  | .ok text => parse? text
  | .error fault => .error (.io fault)

end ReplayConfig

end CoverageReplay
