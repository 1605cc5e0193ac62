import CoverageReplay.TestOrder.Strategy

/-!
# Settings of a replay

Every setting has a standard value. `ReplayConfig.validate` refuses settings that no replay can run
with, and names the first of them.
-/

namespace CoverageReplay

/-- The settings of jobs and of what they do. -/
structure ReplayConfig where
  /-- How many jobs may work at the same time. -/
  maxConcurrentJobs : Nat
  /-- How many requests may wait for a cache. -/
  cacheQueueDepth : Nat
  /-- How many passes pruning one file may take. -/
  maxPrunePasses : Nat
  /-- Whether pruned text is parsed again. -/
  verifyRender : Bool
  weights : ImportanceWeights
  deriving Inhabited

namespace ReplayConfig

/-- The standard settings. -/
def standard : ReplayConfig := ⟨4, 64, 256, true, .standard⟩

/-- Refuses settings that no replay can run with. -/
def validate (c : ReplayConfig) : Except ReplayError Unit :=
  if c.maxConcurrentJobs = 0 then .error (.config "max_concurrent_jobs must be at least 1")
  else if c.cacheQueueDepth = 0 then .error (.config "cache_queue_depth must be at least 1")
  else if c.maxPrunePasses = 0 then .error (.config "max_prune_passes must be at least 1")
  else if c.weights.raw.isFinite && c.weights.netNew.isFinite then .ok ()
  else .error (.config "importance weights must be finite")

end ReplayConfig

end CoverageReplay
