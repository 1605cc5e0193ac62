import CoverageReplay.Proofs.Job.Alone
import CoverageReplay.Proofs.Job.Idle

/-!
# Jobs do not affect each other

Jobs share a cache of profiles, which several workers fill and read at the same time. As long as
different tests have different keys, the cache never has anything for a test but the profile that
the oracle knows (`Truthful`), so each worker comes to the outcome that its task has with the oracle
alone. The final status of a job depends on the job itself, the weights and the allowed passes, and
on nothing else (`aloneOutcome`).
-/

namespace CoverageReplay

/-- What assembling the snapshots of a job comes to with an oracle alone. -/
def aloneOutcome (weights : ImportanceWeights) (maxPasses : Nat) (oracle : CoverageOracle)
    (sources : SourceSet) (job : JobConfig) : Except ReplayError JobResult :=
  (((⟨sources, ⟨job.sort, weights⟩, maxPasses⟩ : Assembler).run job.package job.tests).run oracle).2

namespace Worker

variable {oracle : CoverageOracle} {w : Worker}

/-- Whether a test belongs to the job of a worker. -/
def Owns (w : Worker) (package test : String) : Prop := package = w.job.package ∧ test ∈ w.job.tests

/-- What the task of a worker comes to with an oracle alone. -/
def outcome (oracle : CoverageOracle) (w : Worker) : Except ReplayError JobResult :=
  (w.task.run oracle).2

/-- Whether a worker will come to the outcome of its task, and asks for tests of its own only. -/
structure Faithful (oracle : CoverageOracle) (w : Worker) : Prop where
  asks : w.task.Asks w.Owns
  stage : w.stage.Faithful oracle w.Owns (w.outcome oracle)

namespace Faithful

/-- A worker at another stage that leads to the same outcome. -/
theorem goOn {stage : WorkerStage} {sent : Bool} (h : w.Faithful oracle)
    (faithful : stage.Faithful oracle w.Owns (w.outcome oracle)) :
    ({ w with stage, sent } : Worker).Faithful oracle := ⟨h.asks, faithful⟩

theorem start (id : JobId) (job : JobConfig) (a : Assembler) :
    (Worker.start id job (a.run job.package job.tests)).Faithful oracle :=
  ⟨Assembler.asks_run a job.package job.tests, trivial⟩

/-- A worker begins its task. -/
theorem ofTask (h : w.Faithful oracle) :
    (WorkerStage.ofTask w.task).Faithful oracle w.Owns (w.outcome oracle) :=
  WorkerStage.faithful_ofTask rfl h.asks

/-- A reply that is true takes a worker to a stage that leads to the same outcome. -/
theorem onReply (h : w.Faithful oracle) (profiles : Cache Payload) {reply : CacheReply Payload}
    (truthful : ∀ i next, w.stage = .asking i next → i.stage = .looking →
      ∀ payload, reply = .found (some payload) →
        ∃ p, payload = .profile p ∧ oracle i.package i.test = .answer (.ok p)) :
    (w.onReply profiles reply).Faithful oracle w.Owns (w.outcome oracle) := by
  have hfaithful := h.stage
  unfold Worker.onReply
  cases hstage : w.stage with
  | announcing | telling | finishing | arriving | queued | ended => trivial
  | reporting details next =>
    rw [hstage] at hfaithful
    exact WorkerStage.faithful_ofTask hfaithful.1 hfaithful.2
  | asking i next =>
    rw [hstage] at hfaithful
    exact WorkerStage.faithful_ofInquiry hfaithful (i.onReply_package profiles reply)
      (hfaithful.2.2.2.onReply profiles (truthful i next hstage))

end Faithful

end Worker

namespace Orchestrator

variable {o o' o₁ o₂ : Orchestrator} {m : Move} {n : Nat} {w w' : Worker} {oracle : CoverageOracle}
  {moves : List Move} {key : String} {payload : Payload}

/-- Whether different tests of jobs have different keys in the cache of profiles. -/
def KeysApart (o : Orchestrator) : Prop :=
  ∀ w ∈ o.workers, ∀ w' ∈ o.workers, ∀ test ∈ w.job.tests, ∀ test' ∈ w'.job.tests,
    Inquiry.cacheKey w.job.package test = Inquiry.cacheKey w'.job.package test' →
      w.job.package = w'.job.package ∧ test = test'

/-- Keys of tests of one package are different anyway. -/
theorem keysApart_of_package {package : String} (h : ∀ w ∈ o.workers, w.job.package = package) :
    KeysApart o := by
  intro w hw w' hw' test _ test' _ hkey
  rw [h w hw, h w' hw'] at hkey ⊢
  exact ⟨rfl, (String.append_right_inj _).mp hkey⟩

/-- Tests whose keys are apart at the end had them apart before. -/
theorem KeysApart.of_continues (h : KeysApart o')
    (continues : ∀ {n : Nat} {w : Worker}, o.workers[n]? = some w →
      ∃ w', o'.workers[n]? = some w' ∧ w.Continues w') : KeysApart o := by
  have hjob : ∀ w ∈ o.workers, ∃ w' ∈ o'.workers, w'.job = w.job := by
    intro w hw
    obtain ⟨n, hn⟩ := List.mem_iff_getElem?.mp hw
    obtain ⟨w', hw', hcontinues⟩ := continues hn
    exact ⟨w', List.mem_of_getElem? hw', hcontinues.job⟩
  intro w hw w' hw'
  obtain ⟨v, hv, hsame⟩ := hjob w hw
  obtain ⟨v', hv', hsame'⟩ := hjob w' hw'
  rw [← hsame, ← hsame']
  exact h v hv v' hv'

/-- Whether a payload is the profile that an oracle knows for the test of a key. -/
def Recorded (oracle : CoverageOracle) (o : Orchestrator) (key : String) (payload : Payload) :
    Prop :=
  ∃ w ∈ o.workers, ∃ test ∈ w.job.tests, ∃ p, key = Inquiry.cacheKey w.job.package test ∧
    payload = .profile p ∧ oracle w.job.package test = .answer (.ok p)

/-- What is recorded for a key stays recorded, since no job ever goes away. -/
theorem Recorded.change (h : Recorded oracle o key payload) (hchange : Change o m o') :
    Recorded oracle o' key payload := by
  obtain ⟨w, hw, test, htest, p, hkey, hpayload, hp⟩ := h
  obtain ⟨n, hn⟩ := List.mem_iff_getElem?.mp hw
  obtain ⟨w', hw', hcontinues⟩ := hchange.worker_continues hn
  refine ⟨w', List.mem_of_getElem? hw', test, ?_, p, ?_, hpayload, ?_⟩
  · rwa [hcontinues.job]
  · rwa [hcontinues.job]
  · rwa [hcontinues.job]

/-- What is recorded under the key of a test is the profile of that test. -/
theorem Recorded.profile (h : Recorded oracle o key payload) (apart : KeysApart o)
    (worker : w ∈ o.workers) {package test : String} (owns : w.Owns package test)
    (hkey : key = Inquiry.cacheKey package test) :
    ∃ p, payload = .profile p ∧ oracle package test = .answer (.ok p) := by
  obtain ⟨w', hw', test', htest', p, hkey', hpayload, hp⟩ := h
  obtain ⟨rfl, htest⟩ := owns
  obtain ⟨hpackage, rfl⟩ := apart w worker w' hw' test htest test' htest' (hkey.symm.trans hkey')
  exact ⟨p, hpayload, hpackage ▸ hp⟩

/-! ## The cache of profiles -/

/-- The profiles cache serves workers only, each with what its inquiry wants. -/
theorem Linked.serve_profiles (linked : Linked o) {c : Cache Payload}
    (h : o.profiles.serve? = some c) :
    ∃ n w i next r rest, o.workers[n]? = some w ∧ w.stage = .asking i next ∧ i.request? = some r ∧
      o.profiles.queue = (workerClient n, r) :: rest ∧
      c = { o.profiles with
        store := (r.apply o.profiles.store).2
        queue := rest
        replies := o.profiles.replies ++ [(workerClient n, (r.apply o.profiles.store).1)] } := by
  obtain ⟨client, r, rest, hqueue, rfl⟩ := Cache.serve?_spec h
  have hasked : o.asked? .profiles client = some r :=
    (linked.stands .profiles client).asked_of_mem (by rw [cache, hqueue]; exact List.mem_cons_self)
  obtain ⟨n, rfl | rfl⟩ := eq_client client
  · rw [asked?_workerClient] at hasked
    obtain ⟨w, hw, hasked⟩ := Option.bind_eq_some_iff.mp hasked
    obtain ⟨i, next, hstage, hrequest⟩ :=
      Worker.request?_profiles (Worker.request?_of_asked? hasked)
    exact ⟨n, w, i, next, r, rest, hw, hstage, hrequest, hqueue, rfl⟩
  · rw [asked?_readerClient] at hasked
    obtain ⟨reader, _, hasked⟩ := Option.bind_eq_some_iff.mp hasked
    cases (StatusReader.asked?_spec hasked).1

/-- A worker that keeps a profile has it from the oracle. -/
theorem recorded_of_write {i : Inquiry} {next : Except ReplayError Profile → Task}
    (worker : w ∈ o.workers) (faithful : w.Faithful oracle) (asks : w.stage = .asking i next)
    (wants : i.request? = some (.write key payload)) : Recorded oracle o key payload := by
  have hstage := faithful.stage
  rw [asks] at hstage
  obtain ⟨_, ⟨hpackage, htest⟩, _, honest⟩ := hstage
  unfold Inquiry.request? at wants
  unfold Inquiry.Honest at honest
  cases hi : i.stage with
  | keeping p =>
    rw [hi] at wants honest
    cases wants
    exact ⟨w, worker, i.test, htest, p, by rw [← hpackage]; rfl, rfl, hpackage ▸ honest⟩
  | looking | consulting | done =>
    rw [hi] at wants
    cases wants

/-- Whether all that workers have learnt, or will learn from what the caches keep or have replied,
is what an oracle knows, and all final statuses are those to which the tasks of their workers
come. -/
structure Truthful (oracle : CoverageOracle) (o : Orchestrator) : Prop where
  workers : ∀ w ∈ o.workers, w.Faithful oracle
  kept : ∀ key payload, o.profiles.store.get? key = some payload → Recorded oracle o key payload
  replies : ∀ n w key payload, o.workers[n]? = some w → w.request? = some (.profiles, .read key) →
    .found (some payload) ∈ o.profiles.repliesTo (workerClient n) → Recorded oracle o key payload
  final : ∀ key s, o.jobs.store.get? key = some (.status s) → s.isTerminal →
    ∃ w ∈ o.workers, w.id.text = key ∧ s = .ofOutcome (w.outcome oracle)

namespace Truthful

/-- A worker that has looked up a test is told nothing but the profile of that test. -/
theorem payload_of_looking (h : Truthful oracle o) (apart : KeysApart o)
    (worker : o.workers[n]? = some w) {i : Inquiry} {next : Except ReplayError Profile → Task}
    (asks : w.stage = .asking i next) (looking : i.stage = .looking) {role : CacheRole}
    {r : CacheRequest Payload} {c : Cache Payload} (wants : w.request? = some (role, r))
    (receives : (o.cache role).receive? (workerClient n) = some (.found (some payload), c)) :
    ∃ p, payload = .profile p ∧ oracle i.package i.test = .answer (.ok p) := by
  have hrequest : w.request? = some (.profiles, .read i.key) := by
    rw [Worker.request?, asks]
    dsimp only
    rw [Inquiry.request?, looking]
    rfl
  rw [wants] at hrequest
  cases hrequest
  obtain ⟨_, _, hreplies, _⟩ := Cache.receive?_spec receives
  have hmem := List.mem_of_getElem? worker
  have hrecorded := h.replies n w i.key payload worker wants (hreplies ▸ List.mem_cons_self)
  have howns := (h.workers w hmem).stage
  rw [asks] at howns
  exact hrecorded.profile apart hmem howns.2.1 rfl

/-- A change leaves each worker faithful to its outcome. -/
theorem worker_change (h : Truthful o.oracle o) (hchange : Change o m o') (apart : KeysApart o) :
    ∀ w ∈ o'.workers, w.Faithful o.oracle := by
  have hset : ∀ {n : Nat} {w' : Worker}, w'.Faithful o.oracle →
      ∀ w₁ ∈ o.workers.set n w', w₁.Faithful o.oracle := by
    intro n w' hw' w₁ hw₁
    rcases List.mem_or_eq_of_mem_set hw₁ with hold | rfl
    · exact h.workers w₁ hold
    · exact hw'
  have hworker : ∀ {n : Nat} {w : Worker}, o.workers[n]? = some w → w.Faithful o.oracle :=
    fun hw => h.workers _ (List.mem_of_getElem? hw)
  -- Only a reply from a cache can bring a worker a profile that its oracle did not give.
  cases hchange with
  | start valid =>
    intro w hw
    rcases List.mem_append.mp hw with hold | hnew
    · exact h.workers w hold
    · rw [List.mem_singleton.mp hnew]
      exact .start _ _ _
  | send worker wants unsent sends => exact hset ⟨(hworker worker).asks, (hworker worker).stage⟩
  | @receive n w role r reply c worker wants sent receives =>
    rw [goOn_workers, setCache_workers]
    refine hset ((hworker worker).goOn ((hworker worker).onReply _ ?_))
    intro i next hasks hlooking payload hreply
    exact h.payload_of_looking apart worker hasks hlooking wants (hreply ▸ receives)
  | wait worker arrives full => exact hset ((hworker worker).goOn trivial)
  | acquire worker waits room => exact hset ((hworker worker).goOn (hworker worker).ofTask)
  | @answer n w package test next worker asks =>
    have hfaithful := (hworker worker).stage
    rw [asks] at hfaithful
    refine hset ((hworker worker).goOn ?_)
    exact WorkerStage.faithful_ofInquiry hfaithful (Inquiry.onOutcome_package _ _)
      (Inquiry.honest_onOutcome ⟨package, test, .consulting⟩)
  | serve serves =>
    rw [setCache_workers]
    exact h.workers
  | ask sends => exact h.workers
  | read asked receives => exact h.workers

/-- What the cache of profiles keeps after a change is what the oracle knows. -/
theorem kept_change (h : Truthful o.oracle o) (hchange : Change o m o') (linked : Linked o)
    (get : o'.profiles.store.get? key = some payload) : Recorded o.oracle o' key payload := by
  refine Recorded.change ?_ hchange
  rcases hchange.cache_cases .profiles with ⟨_, hstore, _⟩ | ⟨rfl, c, hserve, rfl⟩
  · exact h.kept key payload (hstore ▸ get)
  · obtain ⟨n, w, i, next, r, rest, hw, hstage, hrequest, _, rfl⟩ := linked.serve_profiles hserve
    -- The cache has a new entry only if it has served a worker that keeps a profile.
    cases r with
    | read | size => exact h.kept key payload get
    | write key' payload' =>
      have hmem := List.mem_of_getElem? hw
      dsimp only [setCache, CacheRequest.apply] at get
      rw [SortedMap.get?_insert] at get
      split at get
      next hkey =>
        cases get
        exact hkey ▸ recorded_of_write hmem (h.workers w hmem) hstage hrequest
      next => exact h.kept key payload get

/-- What waits as a reply for a worker after a change is what the oracle knows. -/
theorem replies_change (h : Truthful o.oracle o) (hchange : Change o m o') (linked : Linked o)
    (linked' : Linked o') (worker : o'.workers[n]? = some w)
    (wants : w.request? = some (.profiles, .read key))
    (reply : .found (some payload) ∈ o'.profiles.repliesTo (workerClient n)) :
    Recorded o.oracle o' key payload := by
  -- A worker with a reply has sent its request, so it has not just gone on to another stage.
  have hsent : w.sent = true := by
    by_contra hunsent
    have hunasked : o'.asked? .profiles (workerClient n) = none := by
      rw [asked?_workerClient, worker, Option.bind_some,
        Worker.asked?_of_unsent (Bool.not_eq_true _ ▸ hunsent)]
    have hnone : o'.profiles.repliesTo (workerClient n) = [] :=
      linked'.repliesTo_of_unasked hunasked
    rw [hnone] at reply
    cases reply
  obtain ⟨w₀, hw₀, hrequest⟩ := hchange.request?_before worker hsent
  rw [hrequest] at wants
  refine Recorded.change ?_ hchange
  rcases hchange.cache_cases .profiles with ⟨_, _, hreplies⟩ | ⟨rfl, c, hserve, rfl⟩
  · exact h.replies n w₀ key payload hw₀ wants (hreplies _ reply)
  · obtain ⟨k, w₁, i, next, r, rest, hw₁, hstage, hr, _, rfl⟩ := linked.serve_profiles hserve
    replace reply : .found (some payload) ∈ ofClient (workerClient n)
        (o.profiles.replies ++ [(workerClient k, (r.apply o.profiles.store).1)]) := reply
    rw [ofClient_append, List.mem_append] at reply
    rcases reply with hwaited | hnew
    · exact h.replies n w₀ key payload hw₀ wants hwaited
    · -- The new reply is the worker's own: it says what the cache keeps under the key.
      rw [mem_ofClient, List.mem_singleton, Prod.mk.injEq, workerClient_inj] at hnew
      obtain ⟨rfl, hnew⟩ := hnew
      rw [hw₁] at hw₀
      cases hw₀
      rw [Worker.request?, hstage] at wants
      dsimp only at wants
      rw [hr] at wants
      cases wants
      injection hnew with hnew
      exact h.kept key payload hnew.symm

/-- A final status that is there after a change is the outcome of the job's own task. -/
theorem final_change (h : Truthful o.oracle o) (hchange : Change o m o') (linked : Linked o)
    {s : JobStatus} (get : o'.jobs.store.get? key = some (.status s)) (terminal : s.isTerminal) :
    ∃ w ∈ o'.workers, w.id.text = key ∧ s = .ofOutcome (w.outcome o.oracle) := by
  -- Tasks do not change, so it is enough to find the worker before the move.
  suffices hbefore : ∃ w ∈ o.workers, w.id.text = key ∧ s = .ofOutcome (w.outcome o.oracle) by
    obtain ⟨w, hw, hid, hs⟩ := hbefore
    obtain ⟨n, hn⟩ := List.mem_iff_getElem?.mp hw
    obtain ⟨w', hw', hcontinues⟩ := hchange.worker_continues hn
    refine ⟨w', List.mem_of_getElem? hw', by rw [hcontinues.id, hid], ?_⟩
    rw [hs, Worker.outcome, Worker.outcome, hcontinues.task]
  rcases hchange.cache_cases .jobs with ⟨_, hstore, _⟩ | ⟨rfl, c, hserve, rfl⟩
  · exact h.final key s (hstore ▸ get) terminal
  · rcases linked.serve_jobs hserve with ⟨n, w, s', rest, hw, hannounced, _, rfl⟩ |
      ⟨n, reader, rest, _, _, rfl⟩
    · dsimp only [setCache] at get
      rw [SortedMap.get?_insert] at get
      split at get
      next hkey =>
        cases get
        have hmem := List.mem_of_getElem? hw
        have hstage := (h.workers w hmem).stage
        rw [WorkerStage.eq_finishing hannounced terminal] at hstage
        exact ⟨w, hmem, hkey, hstage⟩
      next => exact h.final key s get terminal
    · exact h.final key s get terminal

/-- What is known stays truthful with each change. -/
theorem change (h : Truthful o.oracle o) (hchange : Change o m o') (linked : Linked o)
    (apart : KeysApart o) : Truthful o'.oracle o' := by
  rw [hchange.fixed.2.1]
  exact {
    workers := h.worker_change hchange apart
    kept := fun _ _ => h.kept_change hchange linked
    replies := fun _ _ _ _ => h.replies_change hchange linked (linked.change hchange)
    final := fun _ _ => h.final_change hchange linked }

end Truthful

/-! ## Outcomes -/

/-- Whether the task of each worker is to assemble the snapshots of its job. -/
def OwnTasks (o : Orchestrator) : Prop :=
  ∀ w ∈ o.workers, w.task = (o.assembler w.job).run w.job.package w.job.tests

/-- With each change workers keep the tasks of their jobs. -/
theorem OwnTasks.change (h : OwnTasks o) (hchange : Change o m o') : OwnTasks o' := by
  obtain ⟨hconfig, _, hsources⟩ := hchange.fixed
  have hassembler : o'.assembler = o.assembler := by
    funext job
    rw [assembler, hconfig, hsources, assembler]
  intro w hw
  obtain ⟨n, hn⟩ := List.mem_iff_getElem?.mp hw
  rcases hchange.worker_before hn with ⟨w₀, hw₀, hcontinues⟩ | ⟨id, job, rfl⟩
  · rw [hcontinues.task, hcontinues.job, hassembler]
    exact h w₀ (List.mem_of_getElem? hw₀)
  · rw [hassembler]
    rfl

section Created

variable {config : ReplayConfig} {sources : SourceSet} (created : new config oracle sources = .ok o)
include created

/-- A new orchestrator knows nothing that could be untrue. -/
theorem truthful_new : Truthful o.oracle o := by
  obtain ⟨_, rfl⟩ := new_spec created
  constructor
  case workers => exact fun _ hw => absurd hw List.not_mem_nil
  case kept => exact fun _ _ hget => nomatch hget
  case replies => exact fun _ _ _ _ hworker => nomatch hworker
  case final => exact fun _ _ hget => nomatch hget

/-- What is known is truthful at the end of each run. -/
theorem truthful_run (run : o.run? moves = some o') (apart : KeysApart o') :
    Truthful o'.oracle o' := by
  have hstart : Linked o ∧ (KeysApart o → Truthful o.oracle o) :=
    ⟨linked_new created, fun _ => truthful_new created⟩
  refine (invariant_fixed (P := fun o => Linked o ∧ (KeysApart o → Truthful o.oracle o)) hstart
    (fun {o₁ m o₂} h hchange => ?_) run).2 apart
  refine ⟨h.1.change hchange, fun hapart => ?_⟩
  have hbefore := hapart.of_continues hchange.worker_continues
  exact (h.2 hbefore).change hchange h.1 hbefore

theorem ownTasks_new : OwnTasks o := by
  obtain ⟨_, rfl⟩ := new_spec created
  exact fun _ hw => absurd hw List.not_mem_nil

/-- Settings, oracle and source files are the same at the end of each run. -/
theorem fixed_run (run : o.run? moves = some o') :
    o'.config = config ∧ o'.oracle = oracle ∧ o'.sources = sources := by
  refine invariant_fixed (P :=
    fun o => o.config = config ∧ o.oracle = oracle ∧ o.sources = sources) ?_
    (fun {o₁ m o₂} h hchange => ?_) run
  · obtain ⟨_, rfl⟩ := new_spec created
    exact ⟨rfl, rfl, rfl⟩
  · obtain ⟨hconfig, horacle, hsources⟩ := hchange.fixed
    exact ⟨hconfig.trans h.1, horacle.trans h.2.1, hsources.trans h.2.2⟩

/-- What the task of a worker comes to alone depends on little. -/
theorem outcome_run (run : o.run? moves = some o') (worker : w ∈ o'.workers) :
    w.outcome oracle = aloneOutcome config.weights config.maxPrunePasses oracle sources w.job := by
  have hown : OwnTasks o' :=
    invariant_fixed (ownTasks_new created) (fun h hchange => h.change hchange) run
  obtain ⟨hconfig, _, hsources⟩ := fixed_run created run
  rw [Worker.outcome, hown w worker, assembler, hconfig, hsources]
  rfl

end Created

/-- In all runs in which the oracle and the source files stay as they are, different tests have
different keys, and identifiers are made afresh, the final status of a job is the outcome that its
own task has alone, whatever other jobs there are. It is stored once the worker of the job has
ended, and who is told a final status is told this one. -/
theorem final_status_alone {config : ReplayConfig} {sources : SourceSet}
    (created : new config oracle sources = .ok o) (run : o.run? moves = some o')
    (fresh : FreshIds o') (apart : KeysApart o') : ∀ w ∈ o'.workers,
      let final : JobStatus :=
        .ofOutcome (aloneOutcome config.weights config.maxPrunePasses oracle sources w.job)
      (w.stage = .ended → o'.stored? w.id = some final) ∧
        (∀ s, o'.stored? w.id = some s → s.isTerminal → s = final) ∧
        ∀ (n : Nat) (s : JobStatus), o'.readers[n]? = some ⟨w.id, some (.ok (some s))⟩ →
          s.isTerminal → s = final := by
  intro w hw final
  have houtcome := outcome_run created run hw
  have htruthful := truthful_run created run apart
  rw [(fixed_run created run).2.1] at htruthful
  have hrun := run
  rw [run?_eq_runIn?] at hrun
  have hstored : ∀ s, o'.stored? w.id = some s → s.isTerminal → s = final := by
    intro s hs hterminal
    obtain ⟨p, hget, hp⟩ := Option.bind_eq_some_iff.mp hs
    obtain ⟨s', rfl⟩ :=
      statusesOnly_run (linked_new created) (statusesOnly_new created) hrun _ p hget
    cases hp
    obtain ⟨w', hw', htext, hfinal⟩ := htruthful.final _ s hget hterminal
    rw [hfinal, fresh.eq_of_text hw' hw htext, houtcome]
  refine ⟨fun hended => ?_, hstored, fun n s hreader hterminal => ?_⟩
  · obtain ⟨s, hterminal, hs⟩ := exists_terminal created hrun fresh hw hended
    rw [hs, hstored s hs hterminal]
  · obtain ⟨first, rest, u, _, hfirst, hrest, hanswer⟩ := exists_moment_of_run created hrun hreader
    injection hanswer with hanswer
    have hlast := stored?_of_terminal created hfirst hrest fresh hw hanswer.symm hterminal
    exact hstored s hlast hterminal

/-- Two jobs that share a test, one of which fails, end as each does alone. -/
theorem final_status_alone_two : ∃ o', oneSlotOrchestrator.run? twoJobsRun = some o' ∧ FreshIds o' ∧
    KeysApart o' ∧
    JobStatus.complete ⟨["idle"], [.empty, .empty]⟩ = .ofOutcome (aloneOutcome oneSlot.weights
      oneSlot.maxPrunePasses twoJobsSurroundings.oracle twoJobsSurroundings.sources
      ⟨"pkg", ["idle"], .raw⟩) ∧
    JobStatus.failed "Job worker panicked: no coverage" = .ofOutcome (aloneOutcome oneSlot.weights
      oneSlot.maxPrunePasses twoJobsSurroundings.oracle twoJobsSurroundings.sources
      ⟨"pkg", ["idle", "bad"], .raw⟩) := by
  obtain ⟨o₁, o₂, o₃, hfirst, hsecond, hthird, hfresh, _, hjobs, hreaders⟩ := exists_twoJobs
  have hrun : oneSlotOrchestrator.run? twoJobsRun = some o₃ := by
    have hboth := runIn?_trans (runIn?_trans hfirst hsecond) hthird
    rw [← List.map_append, ← List.map_append] at hboth
    rw [run?_eq_runIn?]
    exact hboth
  have hapart : KeysApart o₃ := by
    refine @keysApart_of_package o₃ "pkg" fun w hw => ?_
    have hmem : (w.id, w.job) ∈ o₃.workers.map fun w => (w.id, w.job) := List.mem_map_of_mem hw
    have hpackage : ∀ started ∈ o₃.workers.map fun w =>
        (w.id, w.job), started.2.package = "pkg" := by
      rw [hjobs]
      decide
    exact hpackage _ hmem
  have hworker : ∀ {id : JobId} {job : JobConfig},
    (id, job) ∈ o₃.workers.map (fun w => (w.id, w.job)) →
      ∃ w ∈ o₃.workers, w.id = id ∧ w.job = job := by
    intro id job hmem
    obtain ⟨w, hw, heq⟩ := List.mem_map.mp hmem
    injection heq with hid hjob
    exact ⟨w, hw, hid, hjob⟩
  obtain ⟨w, hw, hid, hjob⟩ := hworker (hjobs ▸ List.mem_cons_self)
  obtain ⟨w', hw', hid', hjob'⟩ := hworker (hjobs ▸ List.mem_cons_of_mem _ List.mem_cons_self)
  refine ⟨o₃, hrun, hfresh, hapart, ?_, ?_⟩
  · rw [← hjob]
    exact (final_status_alone new_oneSlot hrun hfresh hapart w hw).2.2 1
      _ (by rw [hreaders, hid]; rfl) rfl
  · rw [← hjob']
    exact (final_status_alone new_oneSlot hrun hfresh hapart w' hw').2.2 2 _
      (by rw [hreaders, hid']; rfl) rfl

end Orchestrator

end CoverageReplay
