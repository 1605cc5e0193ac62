import CoverageReplay.Proofs.Job.Slots
import CoverageReplay.Proofs.Job.Statuses

/-!
# When no job is running

Where no job counts as running, each job whose start has returned has ended, its final status is
stored, and whoever asks for it is told that status.
-/

namespace CoverageReplay.Orchestrator

variable {o o₁ o₂ : Orchestrator} {w : Worker} {before during : List (Surroundings × Move)}

/-- The status of a job is final once its worker has ended. -/
theorem exists_terminal {config : ReplayConfig} {oracle : CoverageOracle} {sources : SourceSet}
    (created : new config oracle sources = .ok o) (run : o.runIn? before = some o₁)
    (fresh : FreshIds o₁) (worker : w ∈ o₁.workers) (ended : w.stage = .ended) :
    ∃ s, s.isTerminal ∧ o₁.stored? w.id = some s := by
  obtain ⟨waited, k, final, hterminal, _, hover⟩ := exists_course created run fresh worker
  refine ⟨final, hterminal, ?_⟩
  rw [stored?_eq_getLast? created run fresh, hover ended, JobStatus.course, List.getLast?_concat]

/-- In every state that a run comes to, each slot is free or has one worker at its task, and as many
jobs count as running as have been announced and have not ended; so the count of a job that ends is
there to be taken back. If no job counts as running, every job whose start has returned has ended
and its final status is stored, and whoever asks for it from then on is told that status. -/
theorem slots_of_runs {config : ReplayConfig} {oracle : CoverageOracle} {sources : SourceSet}
    (created : new config oracle sources = .ok o) (run : o.runIn? before = some o₁) :
    o₁.free + o₁.workers.countP (·.stage.holdsSlot) = config.maxConcurrentJobs ∧
      o₁.active = o₁.workers.countP (·.stage.isActive) ∧
      (∀ w ∈ o₁.workers, w.stage.isActive → 1 ≤ o₁.active) ∧
      (o₁.active = 0 → ∀ w ∈ o₁.workers, w.stage ≠ .announcing → w.stage = .ended ∧
        ∀ during o₂, o₁.runIn? during = some o₂ → FreshIds o₂ → ∃ s, s.isTerminal ∧
          o₁.stored? w.id = some s ∧
          ∀ (n : Nat) (answer : StatusAnswer), o₁.readers.length ≤ n →
            o₂.readers[n]? = some ⟨w.id, some answer⟩ → answer = .ok (some s)) := by
  have hcounted := counted_run created run
  refine ⟨?_, hcounted.running, ?_, ?_⟩
  · rw [← config_run created run]
    exact hcounted.slots
  · intro w hw hactive
    rw [hcounted.running]
    exact List.countP_pos_iff.mpr ⟨w, hw, hactive⟩
  · intro hidle w hw hannounced
    have hended := hcounted.ended_of_idle hidle hw hannounced
    refine ⟨hended, fun during o₂ hduring hfresh => ?_⟩
    obtain ⟨s, hterminal, hstored⟩ := exists_terminal created run (hfresh.before hduring) hw hended
    refine ⟨s, hterminal, hstored, fun n answer hlater hreader => ?_⟩
    obtain ⟨first, rest, u, _, hfirst, hrest, rfl⟩ :=
      exists_moment created run hduring hlater hreader
    obtain ⟨k, hk⟩ := List.mem_iff_getElem?.mp hw
    obtain ⟨w', hw', hcontinues⟩ := exists_continues hfirst hk
    rw [← hcontinues.id] at hstored ⊢
    rw [stored?_of_terminal created run hfirst (hfresh.before hrest)
      (List.mem_of_getElem? hw') hstored hterminal]

/-- After both jobs have ended, the slot is free again, and the second job is read with its final
status. -/
theorem slots_of_runs_two : ∃ o₁ o₂ w,
    let before := (twoJobsStart ++ twoJobsEnd).map (twoJobsSurroundings, ·)
    let during := twoJobsRead.map (twoJobsSurroundings, ·)
    oneSlotOrchestrator.runIn? before = some o₁ ∧ o₁.runIn? during = some o₂ ∧ FreshIds o₂ ∧
      o₁.active = 0 ∧ o₁.free + o₁.workers.countP (·.stage.holdsSlot) = 1 ∧
      w ∈ o₁.workers ∧ w.id = numbered 2 ∧ w.stage = .ended ∧
      o₁.stored? w.id = some (.failed "Job worker panicked: no coverage") := by
  obtain ⟨o₁, o₂, o₃, hfirst, hsecond, hthird, hfresh, ⟨hidle, hcount, hworkers⟩, _, hreaders⟩ :=
    exists_twoJobs
  have hrun :
    oneSlotOrchestrator.runIn? ((twoJobsStart ++ twoJobsEnd).map (twoJobsSurroundings, ·)) =
      some o₂ := by
    rw [List.map_append]
    exact runIn?_trans hfirst hsecond
  have hmem : (numbered 2, none) ∈ o₂.workers.map fun w => (w.id, w.stage.announced?) := by
    rw [hworkers]
    simp
  obtain ⟨w, hw, heq⟩ := List.mem_map.mp hmem
  injection heq with hid hnone
  have hannounced : w.stage ≠ .announcing := by
    intro h
    rw [h] at hnone
    cases hnone
  obtain ⟨hslots, _, _, hidle'⟩ := slots_of_runs new_oneSlot hrun
  obtain ⟨hended, hread⟩ := hidle' hidle w hw hannounced
  obtain ⟨s, _, hstored, hanswer⟩ := hread _ o₃ hthird hfresh
  have hlast :=
    hanswer 2 (.ok (some (.failed "Job worker panicked: no coverage"))) (Nat.le_of_eq hcount)
    (by rw [hreaders, hid]; rfl)
  injection hlast with hlast
  rw [← hlast] at hstored
  exact ⟨o₂, o₃, w, hrun, hthird, hfresh, hidle, hslots, hw, hid, hended, hstored⟩

end CoverageReplay.Orchestrator
