import CoverageReplay.Proofs.Job.Runs

/-!
# Slots and running jobs

Each slot is free or has one worker that is at its task, and the count of running jobs is the number
of workers that have announced their job and not ended (`Counted`). A worker takes both counts along
when it goes on to another stage, so the equations hold in every state (`counted_run`).
-/

namespace CoverageReplay

/-- A reply does not give a slot to a worker. -/
theorem Worker.holdsSlot_of_onReply {w : Worker} {profiles : Cache Payload}
    {reply : CacheReply Payload} (h : (w.onReply profiles reply).holdsSlot) :
    w.stage.holdsSlot := by
  unfold onReply at h
  cases hstage : w.stage with
  | reporting | asking => rfl
  | announcing | telling | finishing | arriving | queued | ended =>
    rw [hstage] at h
    cases h

namespace Orchestrator

variable {o o' o₁ o₂ : Orchestrator} {m : Move} {n : Nat} {w w' : Worker}
  {before during : List (Surroundings × Move)}

/-- What replacing one worker does to a count of workers. -/
theorem countP_set_worker {workers : List Worker} (worker : workers[n]? = some w) (w' : Worker)
    (p : Worker → Bool) :
    (workers.set n w').countP p + one (p w) = workers.countP p + one (p w') := by
  obtain ⟨hn, hw⟩ := List.getElem?_eq_some_iff.mp worker
  rw [List.countP_set hn, hw]
  unfold one
  split
  next hp =>
    have hpos := List.countP_pos_iff.mpr ⟨w, List.mem_of_getElem? worker, hp⟩
    omega
  next => omega

/-- Whether each slot is free or taken by one worker, and the running jobs are counted. -/
structure Counted (o : Orchestrator) : Prop where
  slots : o.free + o.workers.countP (·.stage.holdsSlot) = o.config.maxConcurrentJobs
  running : o.active = o.workers.countP (·.stage.isActive)

namespace Counted

/-- A worker goes on to a stage for which it has a slot or finds one. -/
theorem goOn {stage : WorkerStage} (h : Counted o) (worker : o.workers[n]? = some w)
    (room : stage.holdsSlot → w.stage.holdsSlot ∨ 0 < o.free) : Counted (o.goOn n w stage) := by
  have hslots := countP_set_worker worker { w with stage, sent := false } (·.stage.holdsSlot)
  have hactive := countP_set_worker worker { w with stage, sent := false } (·.stage.isActive)
  dsimp only at hslots hactive
  have htotal := h.slots
  have hrunning := h.running
  -- Nothing is cut off below zero when the slot is taken.
  have hroom : one stage.holdsSlot ≤ one w.stage.holdsSlot + o.free := by
    unfold one
    split
    next hholds =>
      rcases room hholds with hhas | hfree
      · rw [if_pos hhas]
        omega
      · omega
    next => omega
  constructor
  · have hfree : (o.goOn n w stage).free = o.free + one w.stage.holdsSlot - one stage.holdsSlot :=
      rfl
    rw [goOn_workers, goOn_config, hfree]
    omega
  · have hcount : (o.goOn n w stage).active =
        o.active + one stage.isActive - one w.stage.isActive := rfl
    rw [goOn_workers, hcount]
    omega

/-- Slots stay counted if neither they change nor the workers. -/
theorem of_same (h : Counted o) (config : o'.config = o.config) (free : o'.free = o.free)
    (active : o'.active = o.active) (workers : o'.workers = o.workers) : Counted o' := by
  constructor
  · rw [free, workers, config]
    exact h.slots
  · rw [active, workers]
    exact h.running

theorem setCache (h : Counted o) (c : Cache Payload) (role : CacheRole) :
    Counted (o.setCache c role) :=
  h.of_same setCache_config setCache_free setCache_active setCache_workers

theorem within (h : Counted o) (s : Surroundings) : Counted (o.within s) :=
  h.of_same rfl rfl rfl rfl

/-- With each change the slots stay counted. -/
theorem change (h : Counted o) (hchange : Change o m o') : Counted o' := by
  cases hchange with
  | start valid =>
    constructor
    · rw [List.countP_append]
      exact h.slots
    · rw [List.countP_append]
      exact h.running
  | @send n w role r c worker wants unsent sends =>
    -- Sending a request does not change the stage.
    have hslots := countP_set_worker worker { w with sent := true } (·.stage.holdsSlot)
    have hactive := countP_set_worker worker { w with sent := true } (·.stage.isActive)
    dsimp only at hslots hactive
    have hcounted := h.setCache c role
    constructor
    · refine Eq.trans ?_ hcounted.slots
      dsimp only
      rw [setCache_workers]
      omega
    · refine hcounted.running.trans ?_
      dsimp only
      rw [setCache_workers]
      omega
  | @receive n w role r reply c worker wants sent receives =>
    refine (h.setCache c role).goOn (by rwa [setCache_workers]) fun hholds => Or.inl ?_
    exact Worker.holdsSlot_of_onReply hholds
  | wait worker arrives full => exact h.goOn worker nofun
  | acquire worker waits room => exact h.goOn worker fun _ => Or.inr room
  | answer worker asks => exact h.goOn worker fun _ => Or.inl (by rw [asks]; rfl)
  | serve serves => exact h.setCache _ _
  | ask sends => exact h.of_same rfl rfl rfl rfl
  | read asked receives => exact h.of_same rfl rfl rfl rfl

end Counted

section Created

variable {config : ReplayConfig} {oracle : CoverageOracle} {sources : SourceSet}
  (created : new config oracle sources = .ok o)
include created

/-- Settings are the same at each moment of a run. -/
theorem config_run (run : o.runIn? before = some o₁) : o₁.config = config := by
  refine invariant (P := fun o => o.config = config) ?_ (fun h hchange => ?_) run
  · obtain ⟨_, rfl⟩ := new_spec created
    rfl
  · exact hchange.fixed.1.trans h

/-- At each moment of a run the slots are counted. -/
theorem counted_run (run : o.runIn? before = some o₁) : Counted o₁ := by
  refine invariant (P := Counted) ?_ (fun h hchange => ?_) run
  · obtain ⟨_, rfl⟩ := new_spec created
    exact ⟨rfl, rfl⟩
  · exact (h.within _).change hchange

end Created

/-- Where nothing counts as running, every worker that has announced its job has ended. -/
theorem Counted.ended_of_idle (h : Counted o) (idle : o.active = 0) (worker : w ∈ o.workers)
    (announced : w.stage ≠ .announcing) : w.stage = .ended := by
  have hinactive := List.countP_eq_zero.mp (h.running.symm.trans idle) w worker
  cases hstage : w.stage with
  | announcing => exact absurd hstage announced
  | ended => rfl
  | arriving | telling | queued | reporting | asking | finishing =>
    rw [hstage] at hinactive
    exact absurd rfl hinactive

end Orchestrator

end CoverageReplay
