import CoverageReplay.Proofs.Job.Id
import CoverageReplay.Proofs.Job.Progress
import CoverageReplay.Proofs.Job.Runs
import CoverageReplay.Proofs.SortedMap

/-!
# What is stored for a job

The statuses that a run stores for a job are its `history`. Only the worker of the job stores any of
them (`storing?_spec`), so what other workers do does not touch it, and what is stored is always the
last of the history. How much of the history there is, is told by the stage of the worker: `Told` is
kept by every change (`Told.change`), and makes the history the beginning of a course of the job
(`Worker.Told.exists_course`).
-/

namespace CoverageReplay

/-- Whether `told` is what has been stored for a worker so far, `replies` being those that wait for
it: all up to its stage, and with a reply the status of its stage as well. -/
structure Worker.Told (w : Worker) (replies : List (CacheReply Payload)) (told : List JobStatus) :
    Prop where
  task : w.task.Follows (jobReports w.job.tests.length)
  stage : ∃ past, w.stage.Published w.job.tests.length past ∧
    ((replies = [] ∧ told = past) ∨
      (replies ≠ [] ∧ ∃ s, w.stage.announced? = some s ∧ told = past ++ [s]))

namespace Worker.Told

variable {w : Worker} {told : List JobStatus} {replies : List (CacheReply Payload)} {s : JobStatus}

/-- A worker whose stage has no status of its own goes on without storing anything. -/
theorem goOn {stage : WorkerStage} {sent : Bool} (h : w.Told replies told)
    (silent : w.stage.announced? = none)
    (goes : ∀ past, w.stage.Published w.job.tests.length past →
      stage.Published w.job.tests.length past) :
    ({ w with stage, sent } : Worker).Told replies told := by
  obtain ⟨past, hpublished, ⟨hreplies, htold⟩ | ⟨_, s, hannounced, _⟩⟩ := h.stage
  · exact ⟨h.task, past, goes past hpublished, Or.inl ⟨hreplies, htold⟩⟩
  · rw [silent] at hannounced
    cases hannounced

/-- The status of the stage is stored, and a reply waits for the worker. -/
theorem store (h : w.Told [] told) (announced : w.stage.announced? = some s)
    (hreplies : replies ≠ []) : w.Told replies (told ++ [s]) := by
  obtain ⟨past, hpublished, ⟨_, htold⟩ | ⟨hnone, _⟩⟩ := h.stage
  · exact ⟨h.task, past, hpublished, Or.inr ⟨hreplies, s, announced, by rw [htold]⟩⟩
  · exact absurd rfl hnone

/-- The worker takes the reply and goes on. -/
theorem take (h : w.Told replies told) (hreplies : replies ≠ []) (profiles : Cache Payload)
    (reply : CacheReply Payload) :
    ({ w with stage := w.onReply profiles reply, sent := false } : Worker).Told [] told := by
  obtain ⟨past, hpublished, ⟨hnone, _⟩ | ⟨_, s, hannounced, htold⟩⟩ := h.stage
  · exact absurd hnone hreplies
  · rw [htold]
    exact ⟨h.task, _, w.published_onReply hpublished hannounced profiles reply, Or.inl ⟨rfl, rfl⟩⟩

/-- What has been told is the beginning of a course, and all of it once the worker has ended. -/
theorem exists_course (h : w.Told replies told) :
    ∃ waited k final, final.isTerminal ∧
      told <+: JobStatus.course w.job.tests.length waited k final ∧
      (w.stage = .ended → told = JobStatus.course w.job.tests.length waited k final) := by
  obtain ⟨past, hpublished, ⟨_, rfl⟩ | ⟨_, s, hannounced, rfl⟩⟩ := h.stage
  · by_cases hended : w.stage = .ended
    · rw [hended] at hpublished
      obtain ⟨waited, k, s, rfl, hterminal⟩ := hpublished
      exact ⟨waited, k, s, hterminal, List.prefix_rfl, fun _ => rfl⟩
    · obtain ⟨waited, k, final, hterminal, hbegins⟩ := hpublished.exists_course
      exact ⟨waited, k, final, hterminal, hbegins, fun h => absurd h hended⟩
  · have hnext := w.published_onReply hpublished hannounced default default
    obtain ⟨waited, k, final, hterminal, hbegins⟩ := hnext.exists_course
    refine ⟨waited, k, final, hterminal, hbegins, fun hended => ?_⟩
    rw [hended] at hannounced
    cases hannounced

/-- Something has been told by a worker that has announced its job. -/
theorem ne_nil (h : w.Told replies told) (announced : w.stage ≠ .announcing) : told ≠ [] := by
  obtain ⟨past, hpublished, ⟨_, rfl⟩ | ⟨_, s, _, rfl⟩⟩ := h.stage
  · exact hpublished.ne_nil announced
  · exact List.append_ne_nil_of_right_ne_nil _ nofun

end Worker.Told

/-- What a worker wants of the jobs cache is to store the status of its stage. -/
theorem Worker.request?_jobs {w : Worker} {r : CacheRequest Payload}
    (h : w.request? = some (.jobs, r)) :
    ∃ s, w.stage.announced? = some s ∧ r = .write w.id.text (.status s) := by
  unfold request? at h
  cases hstage : w.stage with
  | announcing | telling | reporting | finishing =>
    rw [hstage] at h
    cases h
    exact ⟨_, rfl, rfl⟩
  | asking =>
    rw [hstage] at h
    obtain ⟨_, _, h⟩ := Option.map_eq_some_iff.mp h
    cases h
  | arriving | queued | ended =>
    rw [hstage] at h
    cases h

/-- What a worker wants of the profiles cache is what its inquiry wants. -/
theorem Worker.request?_profiles {w : Worker} {r : CacheRequest Payload}
    (h : w.request? = some (.profiles, r)) :
    ∃ i next, w.stage = .asking i next ∧ i.request? = some r := by
  unfold request? at h
  cases hstage : w.stage with
  | asking i next =>
    rw [hstage] at h
    obtain ⟨r', hr', heq⟩ := Option.map_eq_some_iff.mp h
    cases heq
    exact ⟨i, next, rfl, hr'⟩
  | announcing | arriving | telling | queued | reporting | finishing | ended =>
    rw [hstage] at h
    cases h

namespace Orchestrator

variable {o o' o₀ o₁ : Orchestrator} {m : Move} {n : Nat} {w : Worker} {id : JobId}
  {moves after : List (Surroundings × Move)}

/-- The status that is stored for a job. -/
def stored? (o : Orchestrator) (id : JobId) : Option JobStatus :=
  (o.jobs.store.get? id.text).bind Payload.status?

/-- The status that a move stores for a job, if it does. -/
def storing? (o : Orchestrator) (id : JobId) : Move → Option JobStatus
  | .serve .jobs =>
    match o.jobs.queue with
    | (_, .write key (.status s)) :: _ => if key = id.text then some s else none
    | _ => none
  | _ => none

/-- The statuses that a run stores for a job, in order. -/
def history (o : Orchestrator) (id : JobId) : List (Surroundings × Move) → List JobStatus
  | [] => []
  | (s, m) :: rest =>
    (o.storing? id m).toList ++ (((o.within s).step? m).map (history · id rest)).getD []

/-- The history of a run continues with what the moves after it store. -/
theorem history_append (run : o.runIn? moves = some o') (after : List (Surroundings × Move)) :
    o.history id (moves ++ after) = o.history id moves ++ o'.history id after := by
  induction moves generalizing o with
  | nil =>
    cases run
    rfl
  | cons e rest ih =>
    obtain ⟨s, m⟩ := e
    obtain ⟨o₁, hstep, hrest⟩ := Option.bind_eq_some_iff.mp run
    rw [List.cons_append, history, history, hstep, Option.map_some, Option.map_some,
      Option.getD_some, Option.getD_some, ih hrest, List.append_assoc]

/-- The history of a run ends with what its last move stores. -/
theorem history_concat (run : o.runIn? moves = some o₁) (s : Surroundings) (m : Move) :
    o.history id (moves ++ [(s, m)]) = o.history id moves ++ (o₁.storing? id m).toList := by
  rw [history_append run, history]
  cases (o₁.within s).step? m with
  | none => simp [history]
  | some => simp [history]

/-! ## Who stores a status -/

/-- What waits for the jobs cache: a worker stores the status of its stage, a reader asks for the
status of its job. -/
theorem Linked.jobs_request (linked : Linked o) {client : Client} {r : CacheRequest Payload}
    (h : (client, r) ∈ o.jobs.queue) :
    (∃ n w s, client = workerClient n ∧ o.workers[n]? = some w ∧ w.stage.announced? = some s ∧
        r = .write w.id.text (.status s)) ∨
      ∃ n reader, client = readerClient n ∧ o.readers[n]? = some reader ∧
        r = .read reader.id.text := by
  have hasked : o.asked? .jobs client = some r := (linked.stands .jobs client).asked_of_mem h
  obtain ⟨n, rfl | rfl⟩ := eq_client client
  · rw [asked?_workerClient] at hasked
    obtain ⟨w, hw, hasked⟩ := Option.bind_eq_some_iff.mp hasked
    obtain ⟨s, hannounced, hr⟩ := Worker.request?_jobs (Worker.request?_of_asked? hasked)
    exact Or.inl ⟨n, w, s, rfl, hw, hannounced, hr⟩
  · rw [asked?_readerClient] at hasked
    obtain ⟨reader, hreader, hasked⟩ := Option.bind_eq_some_iff.mp hasked
    exact Or.inr ⟨n, reader, rfl, hreader, (StatusReader.asked?_spec hasked).2.2⟩

/-- The jobs cache serves a worker, whose status it stores, or a reader. -/
theorem Linked.serve_jobs (linked : Linked o) {c : Cache Payload} (h : o.jobs.serve? = some c) :
    (∃ n w s rest, o.workers[n]? = some w ∧ w.stage.announced? = some s ∧
        o.jobs.queue = (workerClient n, .write w.id.text (.status s)) :: rest ∧
        c = { o.jobs with
          store := o.jobs.store.insert w.id.text (.status s)
          queue := rest
          replies := o.jobs.replies ++ [(workerClient n, .stored)] }) ∨
      ∃ n reader rest, o.readers[n]? = some reader ∧
        o.jobs.queue = (readerClient n, .read reader.id.text) :: rest ∧
        c = { o.jobs with
          queue := rest
          replies :=
            o.jobs.replies ++ [(readerClient n, .found (o.jobs.store.get? reader.id.text))] } := by
  obtain ⟨client, r, rest, hqueue, rfl⟩ := Cache.serve?_spec h
  have hmem : (client, r) ∈ o.jobs.queue := hqueue ▸ List.mem_cons_self
  rcases linked.jobs_request hmem with ⟨n, w, s, rfl, hw, hannounced, rfl⟩ | ⟨n, reader, rfl,
    hreader, rfl⟩
  · exact Or.inl ⟨n, w, s, rest, hw, hannounced, hqueue, rfl⟩
  · exact Or.inr ⟨n, reader, rest, hreader, hqueue, rfl⟩

/-- Of all moves, those that serve the worker of a job store a status for it. -/
theorem storing?_spec (linked : Linked o) {s : JobStatus} (h : o.storing? id m = some s) :
    m = .serve .jobs ∧ ∃ n w rest, o.workers[n]? = some w ∧ w.id.text = id.text ∧
      w.stage.announced? = some s ∧
      o.jobs.queue = (workerClient n, .write id.text (.status s)) :: rest := by
  unfold storing? at h
  split at h
  next =>
    split at h
    next client key s' rest hqueue =>
      split at h
      next hkey =>
        cases h
        have hmem : (client, .write key (.status s)) ∈ o.jobs.queue := hqueue ▸ List.mem_cons_self
        rcases linked.jobs_request hmem with ⟨n, w, s', rfl, hw, hannounced, hr⟩ | ⟨_, _, _, _, hr⟩
        · injection hr with hid hs
          injection hs with hs
          subst hs
          exact ⟨rfl, n, w, rest, hw, hid.symm.trans hkey, hannounced, hkey ▸ hqueue⟩
        · cases hr
      next => cases h
    next => cases h
  next => cases h

/-- Only serving the jobs cache stores a status. -/
theorem storing?_of_ne (h : m ≠ .serve .jobs) : o.storing? id m = none := by
  unfold storing?
  split
  next => exact absurd rfl h
  next => rfl

/-- After a move, the status of a job is what the move has stored, or what it was. -/
theorem Change.stored? (h : Change o m o') (linked : Linked o) (id : JobId) :
    o'.stored? id = (o.storing? id m).or (o.stored? id) := by
  rcases h.cache_cases .jobs with ⟨hm, hstore, _⟩ | ⟨rfl, c, hserve, rfl⟩
  · rw [storing?_of_ne hm, Option.none_or]
    exact congrArg (fun store => (store.get? id.text).bind Payload.status?) hstore
  · rcases linked.serve_jobs hserve with ⟨n, w, s, rest, _, _, hqueue, rfl⟩ | ⟨n, reader, rest, _,
      hqueue, rfl⟩
    · rw [Orchestrator.stored?, storing?, hqueue]
      dsimp only [setCache]
      rw [SortedMap.get?_insert]
      split
      next => rfl
      next => rfl
    · rw [Orchestrator.stored?, storing?, hqueue]
      rfl

/-- Whether the jobs cache keeps statuses and nothing else. -/
def StatusesOnly (o : Orchestrator) : Prop :=
  ∀ key p, o.jobs.store.get? key = some p → ∃ s, p = .status s

theorem StatusesOnly.within (h : StatusesOnly o) (s : Surroundings) : StatusesOnly (o.within s) := h

/-- With each change the jobs cache keeps statuses only. -/
theorem StatusesOnly.change (h : StatusesOnly o) (hchange : Change o m o') (linked : Linked o) :
    StatusesOnly o' := by
  intro key p hget
  rcases hchange.cache_cases .jobs with ⟨_, hstore, _⟩ | ⟨rfl, c, hserve, rfl⟩
  · exact h key p (hstore ▸ hget)
  · rcases linked.serve_jobs hserve with ⟨n, w, s, rest, _, _, _, rfl⟩ | ⟨n, reader,
      rest, _, _, rfl⟩
    · dsimp only [setCache] at hget
      rw [SortedMap.get?_insert] at hget
      split at hget
      next =>
        cases hget
        exact ⟨s, rfl⟩
      next => exact h key p hget
    · exact h key p hget

/-! ## What is stored and what workers have told -/

/-- Whether `told` is what has been stored for each job so far: the last of it is there to be read,
and it is what the worker of the job has told. For what is no job nothing has been stored. -/
structure Told (o : Orchestrator) (told : JobId → List JobStatus) : Prop where
  stored (id : JobId) : o.stored? id = (told id).getLast?
  worker {n : Nat} {w : Worker} : o.workers[n]? = some w →
    w.Told (o.jobs.repliesTo (workerClient n)) (told w.id)
  others {id : JobId} : id.bytes.length = 16 → (∀ w ∈ o.workers, w.id ≠ id) → told id = []

section Told

variable {told : JobId → List JobStatus} {k : Nat} {w' w₁ : Worker}

/-- If one worker has told what it should after a change, and the others have the replies they had,
all have. -/
theorem told_set (h : Told o told)
    (others : ∀ k, k ≠ n → o'.jobs.repliesTo (workerClient k) = o.jobs.repliesTo (workerClient k))
    (changed : w'.Told (o'.jobs.repliesTo (workerClient n)) (told w'.id))
    (h₁ : (o.workers.set n w')[k]? = some w₁) :
    w₁.Told (o'.jobs.repliesTo (workerClient k)) (told w₁.id) := by
  obtain ⟨rfl, rfl⟩ | ⟨hk, h₁⟩ := eq_or_of_getElem?_set h₁
  · exact changed
  · rw [others k hk]
    exact h.worker h₁

/-- A worker that goes on without announcing anything has told what it told before. -/
theorem told_goOn {stage : WorkerStage} (h : Told o told) (worker : o.workers[n]? = some w)
    (silent : w.stage.announced? = none)
    (goes : ∀ past, w.stage.Published w.job.tests.length past →
      stage.Published w.job.tests.length past)
    (h₁ : (o.goOn n w stage).workers[k]? = some w₁) :
    w₁.Told ((o.goOn n w stage).jobs.repliesTo (workerClient k)) (told w₁.id) := by
  rw [goOn_workers] at h₁
  rw [goOn_jobs]
  have htold : ({ w with stage, sent := false } : Worker).Told (o.jobs.repliesTo (workerClient n))
      (told w.id) := (h.worker worker).goOn silent goes
  exact told_set h (fun _ _ => rfl) htold h₁

/-- A worker that starts has told nothing, and nothing has been stored for it. -/
theorem Told.worker_start (h : Told o told) (linked : Linked o) {job : JobConfig}
    (fresh : ((o.workers ++ [Worker.start id job ((o.assembler job).run job.package job.tests)]).map
      Worker.id).Nodup) (full : id.bytes.length = 16)
    (h₁ : (o.workers ++ [Worker.start id job ((o.assembler job).run job.package job.tests)])[k]? =
      some w₁) :
    w₁.Told (o.jobs.repliesTo (workerClient k)) (told w₁.id) := by
  obtain ⟨rfl, rfl⟩ | h₁ := eq_or_of_getElem?_concat h₁
  · -- Nothing has been stored for an identifier that no job has had.
    have hnone : told id = [] := by
      refine h.others full fun w hw heq => ?_
      rw [List.map_append, List.nodup_append] at fresh
      exact fresh.2.2 w.id (List.mem_map_of_mem hw) id List.mem_cons_self heq
    have hunasked : o.asked? .jobs (workerClient o.workers.length) = none := by
      rw [asked?_workerClient, List.getElem?_eq_none (Nat.le_refl _), Option.bind_none]
    have hreplies : o.jobs.repliesTo (workerClient o.workers.length) = [] :=
      linked.repliesTo_of_unasked hunasked
    exact ⟨Assembler.follows_run _ _ _, [], rfl, Or.inl ⟨hreplies, hnone⟩⟩
  · exact h.worker h₁

/-- Serving a worker stores what its stage announces, and leaves it a reply. -/
theorem Told.worker_served (h : Told o told) (linked : Linked o) (fresh : FreshIds o)
    {s : JobStatus} {rest : List (Client × CacheRequest Payload)} {store : SortedMap String Payload}
    (worker : o.workers[n]? = some w) (announced : w.stage.announced? = some s)
    (queue : o.jobs.queue = (workerClient n, .write w.id.text (.status s)) :: rest)
    (h₁ : o.workers[k]? = some w₁) :
    w₁.Told (Cache.repliesTo { o.jobs with
        store, queue := rest, replies :=
          o.jobs.replies ++ [(workerClient n, .stored)] } (workerClient k))
      (told w₁.id ++ (o.storing? w₁.id (.serve .jobs)).toList) := by
  unfold Cache.repliesTo
  rw [ofClient_append]
  have hstoring : o.storing? w₁.id (.serve .jobs) =
      if w.id.text = w₁.id.text then some s else none := by
    rw [storing?, queue]
  by_cases hk : k = n
  · subst hk
    rw [worker] at h₁
    cases h₁
    -- A request of the worker waits, so no reply does.
    have hreplies : o.jobs.repliesTo (workerClient k) = [] :=
      (linked.stands .jobs (workerClient k)).replies_of_mem (queue ▸ List.mem_cons_self)
    rw [hstoring, if_pos rfl]
    have htold := h.worker worker
    rw [hreplies] at htold
    exact htold.store announced (by simp)
  · have hne : w.id.text ≠ w₁.id.text := by
      intro htext
      have hid := JobId.eq_of_text_eq (fresh.full w (List.mem_of_getElem? worker))
        (fresh.full w₁ (List.mem_of_getElem? h₁)) htext
      exact hk (fresh.place_inj worker h₁ hid).symm
    rw [hstoring, if_neg hne, Option.toList_none, List.append_nil,
      ofClient_cons_of_ne (by rwa [Ne, workerClient_inj, eq_comm]), ofClient_nil, List.append_nil]
    exact h.worker h₁

/-- Serving a reader stores nothing, and leaves workers the replies they have. -/
theorem Told.reader_served (h : Told o told) {key : String}
    {rest : List (Client × CacheRequest Payload)} {reply : CacheReply Payload}
    (queue : o.jobs.queue = (readerClient n, .read key) :: rest) (h₁ : o.workers[k]? = some w₁) :
    w₁.Told (Cache.repliesTo { o.jobs with
        queue := rest, replies := o.jobs.replies ++ [(readerClient n, reply)] } (workerClient k))
      (told w₁.id ++ (o.storing? w₁.id (.serve .jobs)).toList) := by
  have hstoring : o.storing? w₁.id (.serve .jobs) = none := by
    rw [storing?, queue]
  unfold Cache.repliesTo
  rw [hstoring, Option.toList_none, List.append_nil, ofClient_append,
    ofClient_cons_of_ne (workerClient_ne_readerClient k n).symm, ofClient_nil, List.append_nil]
  exact h.worker h₁

/-- A worker that takes a reply of the jobs cache has been told all up to its new stage; one that
takes a reply of the profiles cache goes on with its inquiry, of which nothing is stored. -/
theorem Told.worker_received (h : Told o told) (linked : Linked o) {role : CacheRole}
    {r : CacheRequest Payload} {reply : CacheReply Payload} {c : Cache Payload}
    (worker : o.workers[n]? = some w) (wants : w.request? = some (role, r))
    (receives : (o.cache role).receive? (workerClient n) = some (reply, c))
    (h₁ : (o.workers.set n { w with stage := w.onReply o.profiles reply, sent := false })[k]? =
      some w₁) :
    w₁.Told ((o.setCache c role).jobs.repliesTo (workerClient k)) (told w₁.id) := by
  have hothers : ∀ k, k ≠ n →
      (o.setCache c role).jobs.repliesTo (workerClient k) = o.jobs.repliesTo (workerClient k) := by
    intro k hk
    cases role with
    | jobs =>
      obtain ⟨_, _, _, hothers⟩ := Cache.receive?_spec receives
      exact hothers _ (by rwa [Ne, workerClient_inj])
    | profiles => rfl
  -- A reply of the jobs cache ends an announcement; one of the profiles cache announces nothing.
  have htold : ({ w with stage := w.onReply o.profiles reply, sent := false } : Worker).Told
      ((o.setCache c role).jobs.repliesTo (workerClient n)) (told w.id) := by
    cases role with
    | jobs =>
      obtain ⟨hafter, _, _, _, hreplies⟩ := (linked.stands .jobs (workerClient n)).receive receives
      have hempty : (o.setCache c .jobs).jobs.repliesTo (workerClient n) = [] := hafter.2
      have hwaiting : o.jobs.repliesTo (workerClient n) ≠ [] :=
        ne_of_eq_of_ne hreplies (List.cons_ne_nil _ _)
      rw [hempty]
      exact (h.worker worker).take hwaiting o.profiles reply
    | profiles =>
      obtain ⟨i, next, hstage, _⟩ := Worker.request?_profiles wants
      refine (h.worker worker).goOn (by rw [hstage]; rfl) fun past hpast => ?_
      rw [hstage] at hpast
      rw [Worker.onReply, hstage]
      exact WorkerStage.published_ofInquiry hpast
  exact told_set h hothers htold h₁

/-- Workers have told what they should after a change, when what the change stores is added. -/
theorem Told.worker_change (h : Told o told) (hchange : Change o m o') (linked : Linked o)
    (fresh : FreshIds o') (h₁ : o'.workers[k]? = some w₁) :
    w₁.Told (o'.jobs.repliesTo (workerClient k)) (told w₁.id ++ (o.storing? w₁.id m).toList) := by
  by_cases hm : m = .serve .jobs
  · subst hm
    have hfresh : FreshIds o := fresh.of_continues hchange.worker_continues
    cases hchange with
    | @serve _ c serves =>
      rcases linked.serve_jobs serves with ⟨n, w, s, rest, hw, hannounced, hqueue, rfl⟩ |
        ⟨n, reader, rest, _, hqueue, rfl⟩
      · exact h.worker_served linked hfresh hw hannounced hqueue h₁
      · exact h.reader_served hqueue h₁
  -- No other move stores anything, and only the worker that moves has another stage or other
  -- replies.
  rw [storing?_of_ne hm, Option.toList_none, List.append_nil]
  cases hchange with
  | start valid =>
    have hfull := fresh.full _ (List.mem_append_right _ List.mem_cons_self)
    exact h.worker_start linked fresh.distinct hfull h₁
  | @send n w role r c worker wants unsent sends =>
    have hreplies : (o.setCache c role).jobs.replies = o.jobs.replies := by
      obtain ⟨_, rfl⟩ := Cache.send?_spec sends
      cases role with
      | jobs => rfl
      | profiles => rfl
    have hsame : ∀ k, (o.setCache c role).jobs.repliesTo (workerClient k) =
        o.jobs.repliesTo (workerClient k) := fun k => congrArg (ofClient (workerClient k)) hreplies
    have htold :
        ({ w with sent := true } : Worker).Told
          ((o.setCache c role).jobs.repliesTo (workerClient n))
        (told w.id) := by
      rw [hsame]
      exact ⟨(h.worker worker).task, (h.worker worker).stage⟩
    exact told_set h (fun k _ => hsame k) htold h₁
  | @receive n w role r reply c worker wants sent receives =>
    rw [goOn_workers, setCache_workers] at h₁
    rw [goOn_jobs]
    exact h.worker_received linked worker wants receives h₁
  | @wait n w worker arrives full =>
    refine told_goOn h worker (by rw [arrives]; rfl) (fun past hpast => ?_) h₁
    rw [arrives] at hpast
    exact hpast
  | @acquire n w worker waits room =>
    have hfollows := (h.worker worker).task
    rcases waits with hstage | hstage
    · refine told_goOn h worker (by rw [hstage]; rfl) (fun past hpast => ?_) h₁
      rw [hstage] at hpast
      exact hpast ▸ WorkerStage.published_ofTask (k := 0) hfollows
    · refine told_goOn h worker (by rw [hstage]; rfl) (fun past hpast => ?_) h₁
      rw [hstage] at hpast
      exact hpast ▸ WorkerStage.published_ofTask (k := 0) hfollows
  | @answer n w package test next worker asks =>
    refine told_goOn h worker (by rw [asks]; rfl) (fun past hpast => ?_) h₁
    rw [asks] at hpast
    exact WorkerStage.published_ofInquiry hpast
  | @serve role c serves =>
    cases role with
    | jobs => exact absurd rfl hm
    | profiles => exact h.worker h₁
  | ask sends =>
    obtain ⟨_, rfl⟩ := Cache.send?_spec sends
    exact h.worker h₁
  | @read n reader reply c asked receives =>
    obtain ⟨_, _, _, hothers⟩ := Cache.receive?_spec receives
    have hreplies := hothers (workerClient k) (workerClient_ne_readerClient k n)
    dsimp only
    rw [hreplies]
    exact h.worker h₁

/-- With each change what a move stores is what the worker of that job told next. -/
theorem Told.change (h : Told o told) (hchange : Change o m o')
    (linked : Linked o) (fresh : FreshIds o') :
    Told o' fun id => told id ++ (o.storing? id m).toList := by
  have hfresh : FreshIds o := fresh.of_continues hchange.worker_continues
  refine ⟨fun id => ?_, h.worker_change hchange linked fresh, ?_⟩
  · rw [hchange.stored? linked, h.stored, List.getLast?_append]
    cases o.storing? id m with
    | none => rfl
    | some => rfl
  · intro id hfull hnone
    have hbefore : ∀ w ∈ o.workers, w.id ≠ id := by
      intro w hw heq
      obtain ⟨n, hn⟩ := List.mem_iff_getElem?.mp hw
      obtain ⟨w', hw', hcontinues⟩ := hchange.worker_continues hn
      exact hnone w' (List.mem_of_getElem? hw') (hcontinues.id.trans heq)
    rw [h.others hfull hbefore]
    cases hstoring : o.storing? id m with
    | none => rfl
    | some s =>
      obtain ⟨_, n, w, _, hw, htext, _⟩ := storing?_spec linked hstoring
      have hmem := List.mem_of_getElem? hw
      exact absurd (JobId.eq_of_text_eq (hfresh.full w hmem) hfull htext) (hbefore w hmem)

theorem Told.within (h : Told o told) (s : Surroundings) : Told (o.within s) told :=
  ⟨h.stored, h.worker, h.others⟩

end Told

/-! ## Runs from the start -/

section Created

variable {config : ReplayConfig} {oracle : CoverageOracle} {sources : SourceSet}

theorem told_new (created : new config oracle sources = .ok o) : Told o fun _ => [] := by
  obtain ⟨_, rfl⟩ := new_spec created
  exact ⟨fun _ => rfl, nofun, fun _ _ => rfl⟩

theorem statusesOnly_new (created : new config oracle sources = .ok o) : StatusesOnly o := by
  obtain ⟨_, rfl⟩ := new_spec created
  exact fun _ _ h => nomatch h

/-- In a run the jobs cache keeps statuses only. -/
theorem statusesOnly_run (linked : Linked o) (h : StatusesOnly o) (run : o.runIn? moves = some o') :
    StatusesOnly o' :=
  (invariant (P := fun o => Linked o ∧ StatusesOnly o) ⟨linked, h⟩
    (fun h hchange => ⟨(h.1.within _).change hchange, (h.2.within _).change hchange (h.1.within _)⟩)
      run).2

/-- All along a run, what is stored for jobs is as workers have told. -/
theorem told_run (created : new config oracle sources = .ok o) (run : o.runIn? moves = some o')
    (fresh : FreshIds o') : Told o' (o.history · moves) := by
  refine run_induction (P := fun moves o' => FreshIds o' → Told o' (o.history · moves))
    (fun _ => told_new created) (fun {moves o₁ s m o₂} hrun h hchange hfresh => ?_) run fresh
  have htold := ((h (hfresh.before_change hchange)).within s).change hchange
    (((linked_new created).run hrun).within s) hfresh
  have hhistory : (o.history · (moves ++ [(s, m)])) =
      fun id => o.history id moves ++ ((o₁.within s).storing? id m).toList := by
    funext id
    exact history_concat hrun s m
  rw [hhistory]
  exact htold

end Created

end Orchestrator

end CoverageReplay
