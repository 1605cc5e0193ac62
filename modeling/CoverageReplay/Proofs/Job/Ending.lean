import CoverageReplay.Proofs.Job.Reads
import CoverageReplay.Proofs.Job.Slots

/-!
# Jobs can end

No state of a run is a dead end: from each of them moves lead to a state in which all workers have
ended (`Endable.exists_end`). A worker that wants something of a cache can get it
(`Linked.exists_exchange`), so a worker with a slot comes to the end of its task, by induction on
the task (`ends_ofTask`). As long as no slot is free, some worker has one and can end; as soon as
one is free, any worker that waits can take it.
-/

namespace CoverageReplay

namespace Inquiry

variable {i : Inquiry}

/-- How many replies and answers an inquiry waits for at most. -/
def remaining (i : Inquiry) : Nat :=
  match i.stage with
  | .looking => 3
  | .consulting => 2
  | .keeping _ => 1
  | .done _ => 0

/-- A reply brings an inquiry closer to its end. -/
theorem remaining_onReply {r : CacheRequest Payload} (wants : i.request? = some r)
    (cache : Cache Payload) (reply : CacheReply Payload) :
    (i.onReply cache reply).remaining < i.remaining := by
  unfold request? at wants
  unfold onReply
  cases hstage : i.stage with
  | looking =>
    have hremaining : i.remaining = 3 := by rw [remaining, hstage]
    rw [hremaining]
    dsimp only
    split
    next => simp [remaining]
    next => simp [remaining]
    next => simp [remaining]
  | keeping p =>
    have hremaining : i.remaining = 1 := by rw [remaining, hstage]
    rw [hremaining]
    simp [remaining]
  | consulting | done =>
    rw [hstage] at wants
    cases wants

/-- The answer of an oracle brings an inquiry closer to its end. -/
theorem remaining_onOutcome (consulting : i.stage = .consulting) (outcome : OracleOutcome) :
    (i.onOutcome outcome).remaining < i.remaining := by
  have hremaining : i.remaining = 2 := by rw [remaining, consulting]
  rw [hremaining]
  unfold onOutcome
  split
  next => simp [remaining]
  next => simp [remaining]

/-- An inquiry that is not answered wants something of the cache or consults the oracle. -/
theorem consulting_of_request?_none (unanswered : i.outcome? = none) (idle : i.request? = none) :
    i.stage = .consulting := by
  unfold outcome? at unanswered
  unfold request? at idle
  cases hstage : i.stage with
  | consulting => rfl
  | looking | keeping =>
    rw [hstage] at idle
    cases idle
  | done =>
    rw [hstage] at unanswered
    cases unanswered

end Inquiry

/-- Whether a worker has nothing left to do. -/
def WorkerStage.hasEnded : WorkerStage → Bool
  | ended => true
  | _ => false

/-- A worker has not ended at another stage. -/
theorem WorkerStage.hasEnded_of_ne {stage : WorkerStage} (h : stage ≠ .ended) :
    stage.hasEnded = false := by
  cases stage with
  | ended => exact absurd rfl h
  | announcing | arriving | telling | queued | reporting | asking | finishing => rfl

namespace Orchestrator

variable {o o' o₁ : Orchestrator} {m : Move} {n : Nat} {w w₁ : Worker} {s : Surroundings}

/-- Whether moves in the same surroundings lead from a state to another one. -/
def Leads (s : Surroundings) (o o' : Orchestrator) : Prop :=
  ∃ moves : List Move, o.runIn? (moves.map (s, ·)) = some o'

namespace Leads

theorem refl (s : Surroundings) (o : Orchestrator) : Leads s o o := ⟨[], rfl⟩

/-- Moves that lead on from where others led make one way. -/
theorem trans (h : Leads s o o₁) (h' : Leads s o₁ o') : Leads s o o' := by
  obtain ⟨moves, hrun⟩ := h
  obtain ⟨moves', hrun'⟩ := h'
  refine ⟨moves ++ moves', ?_⟩
  rw [List.map_append, runIn?_append, hrun, Option.bind_some, hrun']

/-- A move that is possible leads to what it makes. -/
theorem step (h : (o.within s).step? m = some o') : Leads s o o' := by
  refine ⟨[m], ?_⟩
  rw [List.map_singleton, runIn?, h]
  rfl

theorem replicate {k : Nat} (h : o.runIn? (List.replicate k (s, m)) = some o') : Leads s o o' := by
  refine ⟨List.replicate k m, ?_⟩
  rw [List.map_replicate, h]

theorem linked (h : Leads s o o') (linked : Linked o) : Linked o' := by
  obtain ⟨_, hrun⟩ := h
  exact linked.run hrun

end Leads

/-! ## Requests and their replies -/

/-- A worker that wants something of a cache can send its request. -/
theorem Linked.exists_sent (linked : Linked o) (worker : o.workers[n]? = some w) {role : CacheRole}
    {r : CacheRequest Payload} (wants : w.request? = some (role, r)) (s : Surroundings) :
    ∃ o', Leads s o o' ∧ o'.workers = o.workers.set n { w with sent := true } ∧
      o'.free = o.free := by
  -- A request that is under way already need not be sent again.
  cases hsent : w.sent with
  | true =>
    have hsame : { w with sent := true } = w := by rw [← hsent]
    obtain ⟨hn, hw⟩ := List.getElem?_eq_some_iff.mp worker
    refine ⟨o, .refl s o, ?_, rfl⟩
    rw [hsame, ← hw, List.set_getElem_self]
  | false =>
    obtain ⟨k, o₁, hrun, hempty, _, hworkers, hfree⟩ := linked.exists_serveAll role s
    have hserving := (linked.run hrun).serving role
    -- Once the cache has served all that waited, there is room in its queue.
    have hroom : (o₁.cache role).queue.length < (o₁.cache role).depth := by
      rw [hempty]
      exact hserving.2
    obtain ⟨c, hsend⟩ := Cache.exists_send? hserving.1 hroom (workerClient n) r
    have hworker : (o₁.within s).workers[n]? = some w := by
      rw [← worker, ← hworkers]
      rfl
    have hstep : (o₁.within s).step? (.send n) = some
        { (o₁.within s).setCache c role with
          workers := o₁.workers.set n { w with sent := true } } := by
      refine Option.bind_eq_some_iff.mpr ⟨w, hworker,
        Option.bind_eq_some_iff.mpr ⟨(role, r), wants, ?_⟩⟩
      dsimp only
      rw [if_neg (by rw [hsent]; exact Bool.false_ne_true), cache_within, hsend]
      rfl
    refine ⟨_, (Leads.replicate hrun).trans (.step hstep), ?_, setCache_free.trans hfree⟩
    rw [hworkers]

/-- A worker that wants something of a cache can get it and go on. -/
theorem Linked.exists_exchange (linked : Linked o) (worker : o.workers[n]? = some w)
    {role : CacheRole} {r : CacheRequest Payload} (wants : w.request? = some (role, r))
    (s : Surroundings) :
    ∃ o' profiles reply, Leads s o o' ∧
      o'.workers = o.workers.set n { w with stage := w.onReply profiles reply, sent := false } ∧
      o'.free = o.free + one w.stage.holdsSlot - one (w.onReply profiles reply).holdsSlot := by
  -- The request is sent, the cache serves all that waits, and the worker takes its reply.
  obtain ⟨o₁, hleads, hworkers, hfree⟩ := linked.exists_sent worker wants s
  obtain ⟨k, o₂, hrun, hempty, _, hworkers₂, hfree₂⟩ :=
    (hleads.linked linked).exists_serveAll role s
  have hworker : (o₂.within s).workers[n]? = some { w with sent := true } := by
    have hn := (List.getElem?_eq_some_iff.mp worker).1
    refine Eq.trans (congrArg (·[n]?) (hworkers₂.trans hworkers)) ?_
    exact List.getElem?_set_self hn
  have hasked : (o₂.within s).asked? role (workerClient n) = some r := by
    rw [asked?_workerClient, hworker, Option.bind_some,
      Worker.asked?_of_sent (w := { w with sent := true }) rfl wants, if_pos rfl]
  have hlinked := ((hleads.linked linked).run hrun).within s
  have hstands := hlinked.stands role (workerClient n)
  rw [hasked] at hstands
  obtain ⟨reply, c, hreceive⟩ := hstands.exists_receive? (by rw [cache_within, hempty])
  have hstep : (o₂.within s).step? (.receive n) = some
      (((o₂.within s).setCache c role).goOn n { w with sent := true }
        (w.onReply o₂.profiles reply)) := by
    refine Option.bind_eq_some_iff.mpr ⟨_, hworker,
      Option.bind_eq_some_iff.mpr ⟨(role, r), wants, ?_⟩⟩
    dsimp only
    rw [if_pos rfl, hreceive]
    rfl
  refine ⟨_, o₂.profiles, reply, hleads.trans ((Leads.replicate hrun).trans (.step hstep)), ?_, ?_⟩
  · rw [goOn_workers, setCache_workers]
    have hboth : (o₂.within s).workers = o.workers.set n { w with sent := true } :=
      hworkers₂.trans hworkers
    rw [hboth, List.set_set]
  · have hboth : (o₂.within s).free = o.free := hfree₂.trans hfree
    rw [Orchestrator.goOn, setCache_free, hboth]

/-! ## One worker comes to its end -/

/-- Whether a worker can come to its end while the others stay as they are. -/
def Ends (s : Surroundings) (o : Orchestrator) (n : Nat) : Prop :=
  ∃ o' w, Leads s o o' ∧ o'.workers = o.workers.set n w ∧ w.stage = .ended

section Ends

variable {next : Except ReplayError Profile → Task} {t : Task}

/-- A worker can come to its end if it can do so from where moves lead that change no other worker.
-/
theorem Ends.of_leads (h : Ends s o₁ n) (leads : Leads s o o₁)
    (workers : o₁.workers = o.workers.set n w) :
    Ends s o n := by
  obtain ⟨o', w', hleads, hworkers, hended⟩ := h
  exact ⟨o', w', leads.trans hleads, by rw [hworkers, workers, List.set_set], hended⟩

/-- A worker with a request can end if it can after any reply. -/
theorem Linked.ends_of_reply (linked : Linked o) (worker : o.workers[n]? = some w)
    {role : CacheRole} {r : CacheRequest Payload} (wants : w.request? = some (role, r))
    (after : ∀ profiles reply o₁ w₁, Linked o₁ → o₁.workers[n]? = some w₁ →
      w₁.stage = w.onReply profiles reply →
      o₁.free = o.free + one w.stage.holdsSlot - one (w.onReply profiles reply).holdsSlot →
      Ends s o₁ n) :
    Ends s o n := by
  obtain ⟨o₁, profiles, reply, hleads, hworkers, hfree⟩ := linked.exists_exchange worker wants s
  have hworker : o₁.workers[n]? =
      some { w with stage := w.onReply profiles reply, sent := false } := by
    rw [hworkers]
    exact List.getElem?_set_self (List.getElem?_eq_some_iff.mp worker).1
  exact (after profiles reply o₁ _ (hleads.linked linked) hworker rfl hfree).of_leads
    hleads hworkers

/-- A worker that can go on by itself can end if it can from its next stage. -/
theorem Linked.ends_of_step (linked : Linked o) (worker : o.workers[n]? = some w)
    {stage : WorkerStage} (step : (o.within s).step? m = some ((o.within s).goOn n w stage))
    (after : ∀ o₁ w₁, Linked o₁ → o₁.workers[n]? = some w₁ → w₁.stage = stage → Ends s o₁ n) :
    Ends s o n := by
  have hleads : Leads s o ((o.within s).goOn n w stage) := .step step
  have hworker : ((o.within s).goOn n w stage).workers[n]? = some { w with stage, sent := false } :=
    List.getElem?_set_self (List.getElem?_eq_some_iff.mp worker).1
  exact (after _ _ (hleads.linked linked) hworker rfl).of_leads hleads goOn_workers

theorem ends_of_ended (worker : o.workers[n]? = some w) (ended : w.stage = .ended) :
    Ends s o n := by
  obtain ⟨hn, hw⟩ := List.getElem?_eq_some_iff.mp worker
  exact ⟨o, w, .refl s o, by rw [← hw, List.set_getElem_self], ended⟩

/-- A worker that has yet to store its final status can do so, and then ends. -/
theorem ends_finishing (linked : Linked o) (worker : o.workers[n]? = some w) {status : JobStatus}
    (finishing : w.stage = .finishing status) : Ends s o n := by
  have hwants : w.request? = some (w.publish status) := by rw [Worker.request?, finishing]
  refine linked.ends_of_reply worker hwants fun profiles reply o₁ w₁ _ hworker hstage _ => ?_
  rw [Worker.onReply, finishing] at hstage
  exact ends_of_ended hworker hstage

/-- A worker that asks comes to its end if its task does, whatever the answer is. -/
theorem ends_asking
    (rest : ∀ answer {o w}, Linked o → o.workers[n]? = some w →
      w.stage = .ofTask (next answer) → Ends s o n)
    {i : Inquiry} (linked : Linked o) (worker : o.workers[n]? = some w)
    (asks : w.stage = .asking i next) (unanswered : i.outcome? = none) : Ends s o n := by
  -- The induction is on the steps that the inquiry still has to take, so it covers whatever the
  -- caches reply in between.
  induction hremaining : i.remaining using Nat.strong_induction_on generalizing i o w with
  | _ k ih =>
    subst hremaining
    have hafter : ∀ {j : Inquiry} {o₁ w₁}, j.remaining < i.remaining → Linked o₁ →
        o₁.workers[n]? = some w₁ → w₁.stage = .ofInquiry j next → Ends s o₁ n := by
      intro j o₁ w₁ hless hlinked hworker hstage
      unfold WorkerStage.ofInquiry at hstage
      cases houtcome : j.outcome? with
      | none =>
        rw [houtcome] at hstage
        exact ih _ hless hlinked hworker hstage houtcome rfl
      | some outcome =>
        rw [houtcome] at hstage
        cases outcome with
        | answer result => exact rest result hlinked hworker hstage
        | panic reason => exact ends_finishing hlinked hworker hstage
    -- Either the inquiry waits for the cache of profiles, or it consults the oracle.
    cases hrequest : i.request? with
    | some r =>
      have hwants : w.request? = some (.profiles, r) := by
        rw [Worker.request?, asks]
        exact congrArg (Option.map (CacheRole.profiles, ·)) hrequest
      refine linked.ends_of_reply worker hwants
        fun profiles reply o₁ w₁ hlinked hworker hstage _ => ?_
      rw [Worker.onReply, asks] at hstage
      exact hafter (Inquiry.remaining_onReply hrequest profiles reply) hlinked hworker hstage
    | none =>
      have hconsulting := Inquiry.consulting_of_request?_none unanswered hrequest
      obtain ⟨package, test, stage⟩ := i
      subst hconsulting
      have hstep : (o.within s).step? (.answer n) = some ((o.within s).goOn n w
          (.ofInquiry (Inquiry.onOutcome ⟨package, test, .consulting⟩ (s.oracle package test))
            next)) := by
        refine Option.bind_eq_some_iff.mpr ⟨w, worker, ?_⟩
        rw [asks]
        dsimp only
        rw [Worker.consulting?, asks]
        rfl
      refine linked.ends_of_step worker hstep fun o₁ w₁ hlinked hworker hstage => ?_
      exact hafter (Inquiry.remaining_onOutcome rfl _) hlinked hworker hstage

/-- A worker with a task comes to its end. -/
theorem ends_ofTask (linked : Linked o) (worker : o.workers[n]? = some w)
    (stage : w.stage = .ofTask t) :
    Ends s o n := by
  induction t generalizing o w with
  | report details next ih =>
    have hwants : w.request? = some (w.publish (.inProgress details)) := by
      rw [Worker.request?, stage]
      rfl
    refine linked.ends_of_reply worker hwants
      fun profiles reply o₁ w₁ hlinked hworker hstage _ => ?_
    rw [Worker.onReply, stage] at hstage
    exact ih hlinked hworker hstage
  | ask package test next ih => exact ends_asking ih linked worker stage rfl
  | done outcome => exact ends_finishing linked worker stage

/-- A worker that is not waiting for a slot comes to its end. -/
theorem ends_of_slot (linked : Linked o) (worker : o.workers[n]? = some w)
    (unanswered : w.stage.Unanswered) (holds : w.stage.holdsSlot) : Ends s o n := by
  cases hstage : w.stage with
  | reporting details next =>
    exact ends_ofTask (t := .report details next) linked worker hstage
  | asking i next =>
    rw [hstage] at unanswered
    exact ends_asking (fun _ _ _ => ends_ofTask) linked worker hstage unanswered
  | announcing | arriving | telling | queued | finishing | ended =>
    rw [hstage] at holds
    cases holds

/-- A worker that waits for a slot comes to its end if one is free. -/
theorem ends_of_waiting (linked : Linked o) (worker : o.workers[n]? = some w)
    (waits : w.stage = .arriving ∨ w.stage = .queued) (room : 0 < o.free) : Ends s o n := by
  obtain ⟨k, hfree⟩ := Nat.exists_eq_add_one_of_ne_zero (Nat.ne_of_gt room)
  have hstep : (o.within s).step? (.acquire n) = some ((o.within s).goOn n w (.ofTask w.task)) := by
    refine Option.bind_eq_some_iff.mpr ⟨w, worker, ?_⟩
    have hfree' : (o.within s).free = k + 1 := hfree
    rcases waits with hstage | hstage
    · rw [hstage, hfree']
      rfl
    · rw [hstage, hfree']
      rfl
  exact linked.ends_of_step worker hstep fun o₁ w₁ hlinked hworker hstage =>
    ends_ofTask hlinked hworker hstage

/-- Every worker comes to its end if a slot is free. -/
theorem ends_of_room (linked : Linked o) (worker : o.workers[n]? = some w)
    (unanswered : w.stage.Unanswered) (room : 0 < o.free) : Ends s o n := by
  cases hstage : w.stage with
  | announcing =>
    have hwants : w.request? = some (w.publish (.inProgress "Initializing job")) := by
      rw [Worker.request?, hstage]
    refine linked.ends_of_reply worker hwants
      fun profiles reply o₁ w₁ hlinked hworker hstage₁ hfree => ?_
    rw [Worker.onReply, hstage] at hstage₁ hfree
    exact ends_of_waiting hlinked hworker (Or.inl hstage₁) (hfree ▸ room)
  | telling =>
    have hwants : w.request? = some (w.publish (.inProgress "Waiting for a worker slot")) := by
      rw [Worker.request?, hstage]
    refine linked.ends_of_reply worker hwants
      fun profiles reply o₁ w₁ hlinked hworker hstage₁ hfree => ?_
    rw [Worker.onReply, hstage] at hstage₁ hfree
    exact ends_of_waiting hlinked hworker (Or.inr hstage₁) (hfree ▸ room)
  | arriving => exact ends_of_waiting linked worker (Or.inl hstage) room
  | queued => exact ends_of_waiting linked worker (Or.inr hstage) room
  | reporting | asking => exact ends_of_slot linked worker unanswered (by rw [hstage]; rfl)
  | finishing => exact ends_finishing linked worker hstage
  | ended => exact ends_of_ended worker hstage

end Ends

/-! ## All workers come to their ends -/

/-- What a state of a run is like, as far as it matters for jobs to end. -/
structure Endable (o : Orchestrator) : Prop where
  linked : Linked o
  counted : Counted o
  slots : 0 < o.config.maxConcurrentJobs
  unanswered : ∀ w ∈ o.workers, w.stage.Unanswered

namespace Endable

theorem within (h : Endable o) (s : Surroundings) : Endable (o.within s) :=
  ⟨h.linked.within s, h.counted.within s, h.slots, h.unanswered⟩

/-- After each change all jobs can still end. -/
theorem change (h : Endable o) (hchange : Change o m o') : Endable o' where
  linked := h.linked.change hchange
  counted := h.counted.change hchange
  slots := hchange.fixed.1.symm ▸ h.slots
  unanswered := by
    intro w hw
    obtain ⟨n, hn⟩ := List.mem_iff_getElem?.mp hw
    rcases hchange.worker_before hn with ⟨w₀, hw₀, hcontinues⟩ | ⟨id, job, rfl⟩
    · exact hcontinues.unanswered (h.unanswered w₀ (List.mem_of_getElem? hw₀))
    · trivial

theorem run {moves : List (Surroundings × Move)} (h : Endable o) (run : o.runIn? moves = some o') :
    Endable o' :=
  invariant h (fun h hchange => (h.within _).change hchange) run

/-- As long as a worker has not ended, that one or one that has a slot can end. -/
theorem exists_ends (h : Endable o) (worker : w ∈ o.workers) (going : w.stage ≠ .ended)
    (s : Surroundings) : ∃ k w', o.workers[k]? = some w' ∧ w'.stage ≠ .ended ∧ Ends s o k := by
  rcases Nat.eq_zero_or_pos o.free with hfull | hroom
  · have hslots := h.counted.slots
    have hpos : 0 < o.workers.countP (·.stage.holdsSlot) := by
      rw [hfull, Nat.zero_add] at hslots
      exact hslots ▸ h.slots
    obtain ⟨w', hw', hholds⟩ := List.countP_pos_iff.mp hpos
    obtain ⟨k, hk⟩ := List.mem_iff_getElem?.mp hw'
    refine ⟨k, w', hk, fun hended => ?_, ends_of_slot h.linked hk (h.unanswered w' hw') hholds⟩
    rw [hended] at hholds
    cases hholds
  · obtain ⟨n, hn⟩ := List.mem_iff_getElem?.mp worker
    exact ⟨n, w, hn, going, ends_of_room h.linked hn (h.unanswered w worker) hroom⟩

/-- Moves lead from every state to one in which all workers have ended. -/
theorem exists_end (h : Endable o) (s : Surroundings) :
    ∃ o', Leads s o o' ∧ o'.workers.length = o.workers.length ∧
      ∀ w ∈ o'.workers, w.stage = .ended := by
  -- Each round ends a worker that has not ended, and leaves the others where they are.
  induction hcount :
    o.workers.countP (!·.stage.hasEnded) using Nat.strong_induction_on generalizing o with
  | _ c ih =>
    subst hcount
    by_cases hall : ∀ w ∈ o.workers, w.stage = .ended
    · exact ⟨o, .refl s o, rfl, hall⟩
    · obtain ⟨w, hw, hgoing⟩ : ∃ w ∈ o.workers, w.stage ≠ .ended := by
        push Not at hall
        exact hall
      obtain ⟨k, w', hk, hgoing', o₁, w₁, hleads, hworkers, hended⟩ := h.exists_ends hw hgoing s
      have hset := countP_set_worker hk w₁ (!·.stage.hasEnded)
      have hless :
          o₁.workers.countP (!·.stage.hasEnded) < o.workers.countP (!·.stage.hasEnded) := by
        rw [← hworkers, hended, WorkerStage.hasEnded_of_ne hgoing'] at hset
        replace hset : o₁.workers.countP (!·.stage.hasEnded) + 1 =
          o.workers.countP (!·.stage.hasEnded) + 0 := hset
        omega
      obtain ⟨moves, hrun⟩ := hleads
      obtain ⟨o', hleads', hlength, hall'⟩ := ih _ hless (h.run hrun) rfl
      refine ⟨o', .trans ⟨moves, hrun⟩ hleads', ?_, hall'⟩
      rw [hlength, hworkers, List.length_set]

end Endable

/-- In a new orchestrator there is nothing that could keep a job from its end. -/
theorem endable_new {config : ReplayConfig} {oracle : CoverageOracle} {sources : SourceSet}
    (created : new config oracle sources = .ok o) : Endable o := by
  obtain ⟨hvalid, rfl⟩ := new_spec created
  refine ⟨linked_new created, ⟨rfl, rfl⟩, ?_, fun _ hw => absurd hw List.not_mem_nil⟩
  refine Nat.pos_of_ne_zero fun hzero => ?_
  replace hzero : config.maxConcurrentJobs = 0 := hzero
  rw [ReplayConfig.validate, if_pos hzero] at hvalid
  cases hvalid

end Orchestrator

end CoverageReplay
