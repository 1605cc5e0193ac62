import CoverageReplay.Proofs.Job.Ending
import Mathlib

/-!
# What can be relied on

Whatever jobs are started, whoever asks for statuses, and in whatever order workers and caches move:
the statuses of a job come in the order of its course, a final one is the last and can still be
reached, and who asks sees one of them, and never one from before what has been seen already.
`Reliable` lists all of it for a run that has come to one state and goes on to another.
-/

namespace CoverageReplay.Orchestrator

variable {o o₁ o₂ u : Orchestrator} {before during first rest : List (Surroundings × Move)}
  {config : ReplayConfig} {oracle : CoverageOracle} {sources : SourceSet} {id : JobId} {w : Worker}

/-! ## Histories of one run -/

theorem history_begins (id : JobId) (run : o.runIn? first = some u)
    (rest : List (Surroundings × Move)) :
    o.history id first <+: o.history id (first ++ rest) :=
  ⟨_, (history_append run rest).symm⟩

theorem runIn?_trans (first : o.runIn? before = some o₁) (rest : o₁.runIn? during = some o₂) :
    o.runIn? (before ++ during) = some o₂ := by
  rw [runIn?_append, first, Option.bind_some, rest]

/-- A status that has been stored last keeps its place in the history. -/
theorem getElem?_history (run : o.runIn? first = some u) {s : JobStatus}
    (last : (o.history id first).getLast? = some s) (rest : List (Surroundings × Move)) :
    (o.history id (first ++ rest))[(o.history id first).length - 1]? = some s := by
  obtain ⟨later, hlater⟩ := history_begins id run rest
  rw [List.getLast?_eq_getElem?] at last
  rw [← hlater, List.getElem?_append_left (List.getElem?_eq_some_iff.mp last).1, last]

/-- What somebody is told who asks for a status. -/
abbrev StatusAnswer := Except ReplayError (Option JobStatus)

section Created

variable (created : new config oracle sources = .ok o)
include created

/-- What is stored for a job at the end of a run. -/
theorem stored?_eq_getLast? (run : o.runIn? before = some o₁) (fresh : FreshIds o₁) (id : JobId) :
    o₁.stored? id = (o.history id before).getLast? :=
  (told_run created run fresh).stored id

/-- Nothing has been stored for what is no job. -/
theorem stored?_of_unknown (run : o.runIn? before = some o₁) (fresh : FreshIds o₁)
    (full : id.bytes.length = 16) (unknown : ∀ w ∈ o₁.workers, w.id ≠ id) :
    o₁.stored? id = none := by
  rw [stored?_eq_getLast? created run fresh, (told_run created run fresh).others full unknown]
  rfl

/-- Something is stored for a job from its announcement on. -/
theorem exists_stored? (run : o.runIn? before = some o₁) (fresh : FreshIds o₁)
    (worker : w ∈ o₁.workers) (announced : w.stage ≠ .announcing) :
    ∃ s, o₁.stored? w.id = some s := by
  obtain ⟨n, hn⟩ := List.mem_iff_getElem?.mp worker
  rw [stored?_eq_getLast? created run fresh]
  exact ⟨_, List.getLast?_eq_some_getLast
    (((told_run created run fresh).worker hn).ne_nil announced)⟩

/-- What has been stored for a job is the beginning of one of its courses, and all of it once its
worker has ended. -/
theorem exists_course (run : o.runIn? before = some o₁) (fresh : FreshIds o₁)
    (worker : w ∈ o₁.workers) :
    ∃ waited k final, final.isTerminal ∧
      o.history w.id before <+: JobStatus.course w.job.tests.length waited k final ∧
      (w.stage = .ended →
        o.history w.id before = JobStatus.course w.job.tests.length waited k final) := by
  obtain ⟨n, hn⟩ := List.mem_iff_getElem?.mp worker
  exact ((told_run created run fresh).worker hn).exists_course

/-- A final status stays. -/
theorem stored?_of_terminal (before_run : o.runIn? before = some o₁)
    (during_run : o₁.runIn? during = some o₂) (fresh : FreshIds o₂) (worker : w ∈ o₂.workers)
    {s : JobStatus} (stored : o₁.stored? w.id = some s) (terminal : s.isTerminal) :
    o₂.stored? w.id = some s := by
  have hrun := runIn?_trans before_run during_run
  rw [stored?_eq_getLast? created before_run (fresh.before during_run)] at stored
  obtain ⟨waited, k, final, _, hbegins, _⟩ := exists_course created hrun fresh worker
  have hfirst := history_begins w.id before_run during
  have hover := JobStatus.eq_course_of_terminal (hfirst.trans hbegins) stored terminal
  have hsame : o.history w.id (before ++ during) = o.history w.id before :=
    (hover ▸ hbegins).eq_of_length_le hfirst.length_le
  rw [stored?_eq_getLast? created hrun fresh, hsame, stored]

/-- Who asks after a state is told what is stored at some moment after it. -/
theorem exists_moment (before_run : o.runIn? before = some o₁)
    (during_run : o₁.runIn? during = some o₂) {n : Nat} {answer : StatusAnswer}
    (later : o₁.readers.length ≤ n) (reader : o₂.readers[n]? = some ⟨id, some answer⟩) :
    ∃ first rest u, during = first ++ rest ∧ o₁.runIn? first = some u ∧ u.runIn? rest = some o₂ ∧
      answer = .ok (u.stored? id) := by
  have hlinked := (linked_new created).run before_run
  have honly := statusesOnly_run (linked_new created) (statusesOnly_new created) before_run
  obtain ⟨u, hu, hanswer⟩ :=
    (answeredSince_run hlinked honly during_run n _ later reader).answer rfl
  obtain ⟨first, rest, hsplit, hfirst, hrest⟩ := hu.exists_rest during_run
  exact ⟨first, rest, u, hsplit, hfirst, hrest, hanswer⟩

theorem readers_new : o.readers.length = 0 := by
  obtain ⟨_, rfl⟩ := new_spec created
  rfl

/-- Who asks in a run from the start is told what is stored at some moment of it. -/
theorem exists_moment_of_run (run : o.runIn? before = some o₁) {n : Nat} {answer : StatusAnswer}
    (reader : o₁.readers[n]? = some ⟨id, some answer⟩) :
    ∃ first rest u, before = first ++ rest ∧ o.runIn? first = some u ∧ u.runIn? rest = some o₁ ∧
      answer = .ok (u.stored? id) := by
  have hstart : o.runIn? [] = some o := rfl
  have hlater : o.readers.length ≤ n := (readers_new created).symm ▸ Nat.zero_le n
  exact exists_moment created hstart run hlater reader

/-- A move that changes the status of a job has the jobs cache serve the worker of the job. -/
theorem served_of_changed (run : o.runIn? before = some o₁) (fresh : FreshIds o₁)
    (worker : w ∈ o₁.workers) {s : Surroundings} {m : Move}
    (step : (o₁.within s).step? m = some o₂) (changed : o₂.stored? w.id ≠ o₁.stored? w.id) :
    m = .serve .jobs ∧ ∃ n r rest, o₁.workers[n]? = some w ∧
      o₁.jobs.queue = (workerClient n, r) :: rest := by
  have hlinked := ((linked_new created).run run).within s
  rw [(change_of_step? step).stored? hlinked] at changed
  cases hstoring : (o₁.within s).storing? w.id m with
  | none =>
    rw [hstoring] at changed
    exact absurd rfl changed
  | some status =>
    obtain ⟨hm, n, w', rest, hw', htext, _, hqueue⟩ := storing?_spec hlinked hstoring
    have hsame : w' = w := fresh.eq_of_text (List.mem_of_getElem? hw') worker htext
    exact ⟨hm, n, _, rest, hsame ▸ hw', hqueue⟩

/-- Who asks for a job after its start has returned is told a status. -/
theorem exists_answer_of_announced (before_run : o.runIn? before = some o₁)
    (during_run : o₁.runIn? during = some o₂) (fresh : FreshIds o₂) (worker : w ∈ o₁.workers)
    (announced : w.stage ≠ .announcing) {n : Nat} {answer : StatusAnswer}
    (later : o₁.readers.length ≤ n) (reader : o₂.readers[n]? = some ⟨w.id, some answer⟩) :
    ∃ s, answer = .ok (some s) := by
  obtain ⟨first, rest, u, _, hfirst, hrest, rfl⟩ :=
    exists_moment created before_run during_run later reader
  obtain ⟨k, hk⟩ := List.mem_iff_getElem?.mp worker
  obtain ⟨w', hw', hcontinues⟩ := exists_continues hfirst hk
  obtain ⟨s, hs⟩ := exists_stored? created (runIn?_trans before_run hfirst) (fresh.before hrest)
    (List.mem_of_getElem? hw') fun h => announced (hcontinues.announced h)
  rw [hcontinues.id] at hs
  exact ⟨s, by rw [hs]⟩

/-- Who asks after somebody has been told a status is told that or one stored after it. -/
theorem answers_in_order (before_run : o.runIn? before = some o₁)
    (during_run : o₁.runIn? during = some o₂) (fresh : FreshIds o₂) {i j : Nat} {s : JobStatus}
    {answer : StatusAnswer} (earlier : o₁.readers[i]? = some ⟨id, some (.ok (some s))⟩)
    (later : o₁.readers.length ≤ j) (reader : o₂.readers[j]? = some ⟨id, some answer⟩) :
    ∃ (s' : JobStatus) (p q : Nat), answer = .ok (some s') ∧ p ≤ q ∧
      (o.history id (before ++ during))[p]? = some s ∧
      (o.history id (before ++ during))[q]? = some s' := by
  have hfresh := fresh.before during_run
  obtain ⟨first, rest, u, hsplit, hfirst, hrest, hu⟩ :=
    exists_moment_of_run created before_run earlier
  obtain ⟨first', rest', u', hsplit', hfirst', hrest', rfl⟩ :=
    exists_moment created before_run during_run later reader
  injection hu with hu
  have hrun' := runIn?_trans before_run hfirst'
  have hlast := stored?_eq_getLast? created hfirst (hfresh.before hrest) id
  rw [← hu] at hlast
  -- The history at the first answer is the beginning of that at the second one.
  have hbegins : o.history id first <+: o.history id (before ++ first') := by
    rw [hsplit, List.append_assoc]
    exact history_begins id hfirst _
  have hnonempty : o.history id (before ++ first') ≠ [] := by
    intro hnil
    rw [hnil, List.prefix_nil] at hbegins
    rw [hbegins] at hlast
    cases hlast
  obtain ⟨s', hs'⟩ : ∃ s', (o.history id (before ++ first')).getLast? = some s' :=
    ⟨_, List.getLast?_eq_some_getLast hnonempty⟩
  refine ⟨s', _, _, ?_, Nat.sub_le_sub_right hbegins.length_le 1, ?_, ?_⟩
  · rw [stored?_eq_getLast? created hrun' (fresh.before hrest'), hs']
  · rw [hsplit, List.append_assoc]
    exact getElem?_history hfirst hlast.symm _
  · rw [hsplit', ← List.append_assoc]
    exact getElem?_history hrun' hs' _

/-- Who asks for what is no job is told that there is none. -/
theorem answer_of_unknown (run : o.runIn? before = some o₁) (fresh : FreshIds o₁) {n : Nat}
    {answer : StatusAnswer} (reader : o₁.readers[n]? = some ⟨id, some answer⟩)
    (full : id.bytes.length = 16) (unknown : ∀ w ∈ o₁.workers, w.id ≠ id) : answer = .ok none := by
  obtain ⟨first, rest, u, _, hfirst, hrest, rfl⟩ := exists_moment_of_run created run reader
  have hnone : ∀ w ∈ u.workers, w.id ≠ id := by
    intro w hw heq
    obtain ⟨k, hk⟩ := List.mem_iff_getElem?.mp hw
    obtain ⟨w', hw', hcontinues⟩ := exists_continues hrest hk
    exact unknown w' (List.mem_of_getElem? hw') (hcontinues.id.trans heq)
  rw [stored?_of_unknown created hfirst (fresh.before hrest) full hnone]

/-- From every state on, all jobs can come to their ends, with their whole courses stored. -/
theorem exists_whole_courses (run : o.runIn? before = some o₁) (fresh : FreshIds o₁)
    (s : Surroundings) :
    ∃ (moves : List Move) (o' : Orchestrator), o₁.runIn? (moves.map (s, ·)) = some o' ∧
      ∀ w ∈ o₁.workers, ∃ waited k final, final.isTerminal ∧
        o.history w.id (before ++ moves.map (s, ·)) =
          JobStatus.course w.job.tests.length waited k final := by
  obtain ⟨o', ⟨moves, hrun⟩, hlength, hended⟩ := ((endable_new created).run run).exists_end s
  refine ⟨moves, o', hrun, fun w hw => ?_⟩
  obtain ⟨n, hn⟩ := List.mem_iff_getElem?.mp hw
  obtain ⟨w', hw', hcontinues⟩ := exists_continues hrun hn
  have hmem := List.mem_of_getElem? hw'
  obtain ⟨waited, k, final, hterminal, _, hover⟩ :=
    exists_course created (runIn?_trans run hrun) (fresh.of_length hrun hlength) hmem
  rw [hcontinues.id, hcontinues.job] at hover
  exact ⟨waited, k, final, hterminal, hover (hended w' hmem)⟩

end Created

/-! ## Jobs and those who ask for them -/

/-- What those who start jobs and ask for statuses can rely on when a run has come from `o` to `o₁`
and then to `o₂`. -/
structure Reliable (o : Orchestrator) (before : List (Surroundings × Move)) (o₁ : Orchestrator)
    (during : List (Surroundings × Move)) (o₂ : Orchestrator) : Prop where
  /-- What is stored for a job is the beginning of its course, and all of it once its worker has
  ended. -/
  course : ∀ w ∈ o₂.workers, ∃ waited k final, final.isTerminal ∧
    o.history w.id (before ++ during) <+: JobStatus.course w.job.tests.length waited k final ∧
    (w.stage = .ended →
      o.history w.id (before ++ during) = JobStatus.course w.job.tests.length waited k final)
  /-- All jobs can come to their ends, with their whole courses stored. -/
  endable (s : Surroundings) : ∃ (moves : List Move) (o' : Orchestrator),
    o₂.runIn? (moves.map (s, ·)) = some o' ∧ ∀ w ∈ o₂.workers, ∃ waited k final, final.isTerminal ∧
      o.history w.id (before ++ during ++ moves.map (s, ·)) =
        JobStatus.course w.job.tests.length waited k final
  /-- No status is stored twice for a job. -/
  distinct : ∀ w ∈ o₂.workers, (o.history w.id (before ++ during)).Nodup
  /-- The status of a job is the one stored last. -/
  last (id : JobId) : o₂.stored? id = (o.history id (before ++ during)).getLast?
  /-- A final status does not change. -/
  final : ∀ w ∈ o₂.workers, ∀ s, o₁.stored? w.id = some s → s.isTerminal → o₂.stored? w.id = some s
  /-- The only moves that change the status of a job are those by which the jobs cache serves its
  worker. -/
  own : ∀ w ∈ o₁.workers, ∀ s m o', (o₁.within s).step? m = some o' →
    o'.stored? w.id ≠ o₁.stored? w.id →
    m = .serve .jobs ∧ ∃ n r rest, o₁.workers[n]? = some w ∧
      o₁.jobs.queue = (workerClient n, r) :: rest
  /-- Who asks for a job after its start has returned is told a status. -/
  readable : ∀ w ∈ o₁.workers, w.stage ≠ .announcing → ∀ (n : Nat) (answer : StatusAnswer),
    o₁.readers.length ≤ n → o₂.readers[n]? = some ⟨w.id, some answer⟩ → ∃ s, answer = .ok (some s)
  /-- Who asks after somebody has been told a status is told that or one stored after it. -/
  forward (i j : Nat) (id : JobId) (s : JobStatus) (answer : StatusAnswer) :
    o₁.readers[i]? = some ⟨id, some (.ok (some s))⟩ →
    o₁.readers.length ≤ j → o₂.readers[j]? = some ⟨id, some answer⟩ →
    ∃ (s' : JobStatus) (p q : Nat), answer = .ok (some s') ∧ p ≤ q ∧
      (o.history id (before ++ during))[p]? = some s ∧
        (o.history id (before ++ during))[q]? = some s'
  /-- Who asks for what is no job is told that there is none. -/
  unknown (n : Nat) (id : JobId) (answer : StatusAnswer) :
    o₂.readers[n]? = some ⟨id, some answer⟩ → id.bytes.length = 16 →
    (∀ w ∈ o₂.workers, w.id ≠ id) → answer = .ok none
  /-- Nobody is told of an error. -/
  sound (n : Nat) (id : JobId) (answer : StatusAnswer) :
    o₂.readers[n]? = some ⟨id, some answer⟩ → ∃ status?, answer = .ok status?
  /-- Everybody can ask once the cache has served some requests. -/
  askable (id : JobId) (s : Surroundings) :
    ∃ k o', o₂.runIn? (List.replicate k (s, .serve .jobs) ++ [(s, .ask id)]) = some o' ∧
      o'.readers = o₂.readers ++ [⟨id, none⟩]
  /-- Everybody who waits for an answer can get it once the cache has served some requests. -/
  answerable (n : Nat) (id : JobId) (s : Surroundings) : o₂.readers[n]? = some ⟨id, none⟩ →
    ∃ k o' answer, o₂.runIn? (List.replicate k (s, .serve .jobs) ++ [(s, .read n)]) = some o' ∧
      o'.readers[n]? = some ⟨id, some answer⟩

/-- Jobs report to whoever asks for them as they should, in all runs in which their identifiers are
made afresh. -/
theorem reliable_of_runs (created : new config oracle sources = .ok o)
    (before_run : o.runIn? before = some o₁) (during_run : o₁.runIn? during = some o₂)
    (fresh : FreshIds o₂) : Reliable o before o₁ during o₂ := by
  have hrun := runIn?_trans before_run during_run
  have hlinked := (linked_new created).run hrun
  -- Each clause has a lemma of its own; the run comes in two parts since some speak of a later
  -- moment.
  constructor
  case course => exact fun w hw => exists_course created hrun fresh hw
  case endable => exact exists_whole_courses created hrun fresh
  case distinct =>
    intro w hw
    obtain ⟨waited, k, final, hterminal, hbegins, _⟩ := exists_course created hrun fresh hw
    exact (JobStatus.course_nodup _ waited k hterminal).sublist hbegins.sublist
  case last => exact stored?_eq_getLast? created hrun fresh
  case final =>
    exact fun w hw s hstored hterminal =>
      stored?_of_terminal created before_run during_run fresh hw hstored hterminal
  case own =>
    exact fun w hw s m o' hstep hchanged =>
      served_of_changed created before_run (fresh.before during_run) hw hstep hchanged
  case readable =>
    exact fun w hw hannounced n answer hlater hreader =>
      exists_answer_of_announced created before_run during_run fresh hw hannounced hlater hreader
  case forward =>
    exact fun i j id s answer hearlier hlater hreader =>
      answers_in_order created before_run during_run fresh hearlier hlater hreader
  case unknown =>
    exact fun n id answer hreader hfull hunknown =>
      answer_of_unknown created hrun fresh hreader hfull hunknown
  case sound =>
    intro n id answer hreader
    obtain ⟨_, _, u, _, _, _, rfl⟩ := exists_moment_of_run created hrun hreader
    exact ⟨_, rfl⟩
  case askable => exact hlinked.exists_ask
  case answerable => exact fun n id s hreader => hlinked.exists_answer hreader rfl s

/-! ## Two jobs and one slot -/

deriving instance DecidableEq for JobResult

deriving instance DecidableEq for JobStatus

deriving instance DecidableEq for StatusReader

/-- What is needed for two jobs: a test that covers nothing, one for which the oracle breaks down,
and no source files. -/
def twoJobsSurroundings : Surroundings :=
  ⟨recordedOracle [(("pkg", "idle"), .profile ⟨.set, []⟩), (("pkg", "bad"), .panic "no coverage")],
    memorySources .empty false⟩

/-- Settings with one slot. -/
def oneSlot : ReplayConfig :=
  { ReplayConfig.standard with maxConcurrentJobs := 1, cacheQueueDepth := 2 }

/-- An orchestrator with one slot. -/
def oneSlotOrchestrator : Orchestrator where
  config := oneSlot
  oracle := twoJobsSurroundings.oracle
  sources := twoJobsSurroundings.sources
  jobs := .spawn "jobs" 2
  profiles := .spawn "profiles" 2
  free := 1
  active := 0
  workers := []
  readers := []
  consulted := []

/-- The identifier of a job of a certain number. -/
def numbered (b : UInt8) : JobId := ⟨List.replicate 16 b⟩

/-- A worker asks a cache, is served, and takes the reply. -/
def exchange (n : Nat) (role : CacheRole) : List Move := [.send n, .serve role, .receive n]

/-- Somebody asks for the status of a job, is served, and takes the reply. -/
def inquiry (n : Nat) (id : JobId) : List Move := [.ask id, .serve .jobs, .read n]

/-- Two jobs are started, and the second one waits for the slot that the first one has. -/
def twoJobsStart : List Move :=
  [.start (numbered 1) ⟨"pkg", ["idle"], .raw⟩] ++ exchange 0 .jobs ++
    [.start (numbered 2) ⟨"pkg", ["idle", "bad"], .raw⟩] ++ exchange 1 .jobs ++
    [.acquire 0, .acquire 1] ++ exchange 1 .jobs ++ exchange 0 .jobs ++ inquiry 0 (numbered 1)

/-- The first job completes, then the second one takes its slot and fails. -/
def twoJobsEnd : List Move :=
  exchange 0 .profiles ++ [.answer 0] ++ exchange 0 .profiles ++ exchange 0 .jobs ++
    exchange 0 .jobs ++ exchange 0 .jobs ++ inquiry 1 (numbered 1) ++
    [.acquire 1] ++ exchange 1 .jobs ++ exchange 1 .profiles ++ exchange 1 .jobs ++
    exchange 1 .profiles ++ [.answer 1] ++ exchange 1 .jobs

/-- Somebody asks for the second job and for one that has not been started. -/
def twoJobsRead : List Move := inquiry 2 (numbered 2) ++ inquiry 3 (numbered 3)

theorem new_oneSlot :
    new oneSlot twoJobsSurroundings.oracle twoJobsSurroundings.sources = .ok oneSlotOrchestrator :=
  rfl

/-- All that happens to the two jobs. -/
def twoJobsRun : List Move := twoJobsStart ++ twoJobsEnd ++ twoJobsRead

/-- Both jobs end, and those who ask see their statuses. -/
theorem exists_twoJobs : ∃ o₁ o₂ o₃,
    oneSlotOrchestrator.runIn? (twoJobsStart.map (twoJobsSurroundings, ·)) = some o₁ ∧
      o₁.runIn? (twoJobsEnd.map (twoJobsSurroundings, ·)) = some o₂ ∧
      o₂.runIn? (twoJobsRead.map (twoJobsSurroundings, ·)) = some o₃ ∧ FreshIds o₃ ∧
      (o₂.active = 0 ∧ o₂.readers.length = 2 ∧
        o₂.workers.map (fun w => (w.id, w.stage.announced?)) =
          [(numbered 1, none), (numbered 2, none)]) ∧
      o₃.workers.map (fun w => (w.id, w.job)) =
        [(numbered 1, ⟨"pkg", ["idle"], .raw⟩), (numbered 2, ⟨"pkg", ["idle", "bad"], .raw⟩)] ∧
      o₃.readers = [
        ⟨numbered 1, some (.ok (some (.inProgress "Computing coverage for 1 of 1 tests")))⟩,
        ⟨numbered 1, some (.ok (some (.complete ⟨["idle"], [.empty, .empty]⟩)))⟩,
        ⟨numbered 2, some (.ok (some (.failed "Job worker panicked: no coverage")))⟩,
        ⟨numbered 3, some (.ok none)⟩] := by
  have hstart :
      (oneSlotOrchestrator.runIn? (twoJobsStart.map (twoJobsSurroundings, ·))).isSome := by
    decide +kernel
  have hidle : (oneSlotOrchestrator.runIn? ((twoJobsStart ++ twoJobsEnd).map
      (twoJobsSurroundings, ·))).map (fun o =>
        (o.active, o.readers.length, o.workers.map fun w => (w.id, w.stage.announced?))) =
      some (0, 2, [(numbered 1, none), (numbered 2, none)]) := by
    decide +kernel
  have hread : (oneSlotOrchestrator.runIn? (twoJobsRun.map (twoJobsSurroundings, ·))).map
      (fun o => (o.workers.map fun w => (w.id, w.job), o.readers)) = some
        ([(numbered 1, ⟨"pkg", ["idle"], .raw⟩), (numbered 2, ⟨"pkg", ["idle", "bad"], .raw⟩)], [
        ⟨numbered 1, some (.ok (some (.inProgress "Computing coverage for 1 of 1 tests")))⟩,
        ⟨numbered 1, some (.ok (some (.complete ⟨["idle"], [.empty, .empty]⟩)))⟩,
        ⟨numbered 2, some (.ok (some (.failed "Job worker panicked: no coverage")))⟩,
        ⟨numbered 3, some (.ok none)⟩]) := by
    decide +kernel
  obtain ⟨o₁, hfirst⟩ := Option.isSome_iff_exists.mp hstart
  obtain ⟨o₂, hsecond, hactive⟩ := Option.map_eq_some_iff.mp hidle
  obtain ⟨o₃, hthird, hend⟩ := Option.map_eq_some_iff.mp hread
  rw [Prod.mk.injEq, Prod.mk.injEq] at hactive
  rw [Prod.mk.injEq] at hend
  rw [twoJobsRun, List.map_append, runIn?_append, hsecond, Option.bind_some] at hthird
  rw [List.map_append, runIn?_append, hfirst, Option.bind_some] at hsecond
  have hids : o₃.workers.map Worker.id = [numbered 1, numbered 2] := by
    have hfirsts := congrArg (List.map Prod.fst) hend.1
    rwa [List.map_map] at hfirsts
  have hfresh : FreshIds o₃ := by
    constructor
    · rw [hids]
      decide
    · intro w hw
      have hmem : w.id ∈ [numbered 1, numbered 2] := hids ▸ List.mem_map_of_mem hw
      have hfull : ∀ id ∈ [numbered 1, numbered 2], id.bytes.length = 16 := by decide
      exact hfull w.id hmem
  exact ⟨o₁, o₂, o₃, hfirst, hsecond, hthird, hfresh, hactive, hend.1, hend.2⟩

/-- The first job is read in progress and then complete, the second one as failed, and a third one
as no job. -/
theorem reliable_of_runs_two : ∃ o₁ o₂,
    let before := twoJobsStart.map (twoJobsSurroundings, ·)
    let during := (twoJobsEnd ++ twoJobsRead).map (twoJobsSurroundings, ·)
    oneSlotOrchestrator.runIn? before = some o₁ ∧ o₁.runIn? during = some o₂ ∧ FreshIds o₂ ∧
      o₂.readers = [
        ⟨numbered 1, some (.ok (some (.inProgress "Computing coverage for 1 of 1 tests")))⟩,
        ⟨numbered 1, some (.ok (some (.complete ⟨["idle"], [.empty, .empty]⟩)))⟩,
        ⟨numbered 2, some (.ok (some (.failed "Job worker panicked: no coverage")))⟩,
        ⟨numbered 3, some (.ok none)⟩] ∧
      Reliable oneSlotOrchestrator before o₁ during o₂ := by
  obtain ⟨o₁, o₂, o₃, hfirst, hsecond, hthird, hfresh, _, _, hreaders⟩ := exists_twoJobs
  have hduring : o₁.runIn? ((twoJobsEnd ++ twoJobsRead).map (twoJobsSurroundings, ·)) =
      some o₃ := by
    rw [List.map_append]
    exact runIn?_trans hsecond hthird
  exact ⟨o₁, o₃, hfirst, hduring, hfresh, hreaders,
    reliable_of_runs new_oneSlot hfirst hduring hfresh⟩

end CoverageReplay.Orchestrator
