import CoverageReplay.Job.Orchestrator
import CoverageReplay.Proofs.Cache.Clients
import CoverageReplay.Proofs.Job.Id
import Mathlib.Data.List.Induction

/-!
# Runs of an orchestrator

A run is any order of moves. The oracle and the source files lie outside: they need not be the same
from one move to the next (`runIn?`), and a run with fixed ones is a special case
(`run?_eq_runIn?`).

`Change` says once what each move can do; that a property holds all along a run is shown for one
change after the other (`run_induction`). The property on which the others rest is `Linked`: what a
worker or a reader has asked a cache for, the cache has waiting or has replied to, and nothing else
is under way.
-/

namespace CoverageReplay

/-- Where profiles and source files come from. -/
structure Surroundings where
  oracle : CoverageOracle
  sources : SourceSet

/-! ## Workers -/

/-- A worker that goes on with a task does not announce its job. -/
theorem WorkerStage.ofTask_ne_announcing (t : Task) : ofTask t ≠ announcing := by
  cases t with
  | report => nofun
  | ask => nofun
  | done => nofun

/-- Nor does one that goes on with an inquiry. -/
theorem WorkerStage.ofInquiry_ne_announcing (i : Inquiry)
    (next : Except ReplayError Profile → Task) :
    ofInquiry i next ≠ announcing := by
  unfold ofInquiry
  split
  next => nofun
  next => exact ofTask_ne_announcing _
  next => nofun

/-- Whether the inquiry of a worker, if it has one, is still to be answered. -/
def WorkerStage.Unanswered : WorkerStage → Prop
  | asking i _ => i.outcome? = none
  | _ => True

/-- Before its first step a task has no inquiry that is answered. -/
theorem WorkerStage.unanswered_ofTask (t : Task) : (ofTask t).Unanswered := by
  cases t with
  | ask => rfl
  | report | done => trivial

/-- An inquiry that is taken up is still to be answered. -/
theorem WorkerStage.unanswered_ofInquiry (i : Inquiry) (next : Except ReplayError Profile → Task) :
    (ofInquiry i next).Unanswered := by
  unfold ofInquiry
  split
  next hnone => exact hnone
  next => exact unanswered_ofTask _
  next => trivial

namespace Worker

variable {w w' w'' : Worker}

/-- No reply has a worker announce its job again. -/
theorem onReply_ne_announcing (profiles : Cache Payload) (reply : CacheReply Payload) :
    w.onReply profiles reply ≠ .announcing := by
  unfold onReply
  split
  next => nofun
  next => nofun
  next => exact WorkerStage.ofTask_ne_announcing _
  next => exact WorkerStage.ofInquiry_ne_announcing _ _
  next => nofun
  next hannouncing _ _ _ _ => exact hannouncing

/-- A reply for which an unanswered inquiry waited leaves the worker with an unanswered inquiry, or
with none. -/
theorem unanswered_onReply (profiles : Cache Payload) (reply : CacheReply Payload)
    (h : w.stage.Unanswered) : (w.onReply profiles reply).Unanswered := by
  unfold onReply
  split
  next => trivial
  next => trivial
  next => exact WorkerStage.unanswered_ofTask _
  next => exact WorkerStage.unanswered_ofInquiry _ _
  next => trivial
  next => exact h

/-- Whether a worker may be what has become of another one: it has the same job, what was announced
stays announced, and a worker whose inquiry is answered has gone on. -/
structure Continues (w w' : Worker) : Prop where
  id : w'.id = w.id
  job : w'.job = w.job
  task : w'.task = w.task
  announced : w'.stage = .announcing → w.stage = .announcing
  unanswered : w.stage.Unanswered → w'.stage.Unanswered

theorem Continues.refl (w : Worker) : w.Continues w := ⟨rfl, rfl, rfl, fun h => h, fun h => h⟩

/-- What becomes of a worker continues it however many moves it takes. -/
theorem Continues.trans (h : w.Continues w') (h' : w'.Continues w'') : w.Continues w'' where
  id := h'.id.trans h.id
  job := h'.job.trans h.job
  task := h'.task.trans h.task
  announced := h.announced ∘ h'.announced
  unanswered := h'.unanswered ∘ h.unanswered

/-- A worker continues at any stage but the first, if an unanswered inquiry stays unanswered. -/
theorem Continues.goOn {stage : WorkerStage} {sent : Bool} (h : stage ≠ .announcing)
    (unanswered : w.stage.Unanswered → stage.Unanswered) : w.Continues { w with stage, sent } :=
  ⟨rfl, rfl, rfl, fun hstage => absurd hstage h, unanswered⟩

/-- What the worker has asked a cache for, if anything. -/
def asked? (w : Worker) (role : CacheRole) : Option (CacheRequest Payload) :=
  if w.sent then w.request?.bind fun (r, request) =>
    if r = role then some request else none else none

@[simp] theorem asked?_of_unsent (h : w.sent = false) (role : CacheRole) :
    w.asked? role = none := by
  simp [asked?, h]

/-- A worker that has sent its request has asked one cache for it and no other. -/
theorem asked?_of_sent {role : CacheRole} {r : CacheRequest Payload} (sent : w.sent)
    (wants : w.request? = some (role, r)) (other : CacheRole) :
    w.asked? other = if other = role then some r else none := by
  simp [asked?, sent, wants, eq_comm]

/-- What a worker has asked for is what it wants at its stage. -/
theorem request?_of_asked? {role : CacheRole} {r : CacheRequest Payload}
    (h : w.asked? role = some r) :
    w.request? = some (role, r) := by
  unfold asked? at h
  split at h
  next =>
    obtain ⟨⟨role', r'⟩, hrequest, h⟩ := Option.bind_eq_some_iff.mp h
    dsimp only at h
    split at h
    next hrole =>
      cases h
      rw [hrequest, hrole]
    next => cases h
  next => cases h

end Worker

/-- What a reader has asked a cache for and has not got. -/
def StatusReader.asked? (reader : StatusReader) : CacheRole → Option (CacheRequest Payload)
  | .jobs => if reader.answer.isNone then some (.read reader.id.text) else none
  | .profiles => none

/-- A reader asks the jobs cache for the status of its job, as long as it has no answer. -/
theorem StatusReader.asked?_spec {reader : StatusReader} {role : CacheRole}
    {r : CacheRequest Payload} (h : reader.asked? role = some r) :
    role = .jobs ∧ reader.answer = none ∧ r = .read reader.id.text := by
  cases role with
  | jobs =>
    rw [asked?] at h
    split at h
    next hnone =>
      cases h
      exact ⟨rfl, Option.isNone_iff_eq_none.mp hnone, rfl⟩
    next => cases h
  | profiles => cases h

namespace Orchestrator

variable {o o' o₀ o₁ : Orchestrator} {m : Move} {n : Nat} {w : Worker}

/-- The orchestrator in other surroundings. -/
def within (o : Orchestrator) (s : Surroundings) : Orchestrator :=
  { o with oracle := s.oracle, sources := s.sources }

/-- What some moves do, one after the other, each in surroundings of its own, if all are
possible. -/
def runIn? (o : Orchestrator) : List (Surroundings × Move) → Option Orchestrator
  | [] => some o
  | (s, m) :: rest => ((o.within s).step? m).bind (runIn? · rest)

/-! ## What a move does -/

/-- What a move can make of an orchestrator. -/
inductive Change (o : Orchestrator) : Move → Orchestrator → Prop where
  | start {id : JobId} {job : JobConfig} (valid : job.validate = .ok ()) :
      Change o (.start id job)
        { o with
          workers := o.workers ++ [.start id job ((o.assembler job).run job.package job.tests)] }
  | send {n : Nat} {w : Worker} {role : CacheRole} {r : CacheRequest Payload} {c : Cache Payload}
      (worker : o.workers[n]? = some w) (wants : w.request? = some (role, r))
      (unsent : w.sent = false)
      (sends : (o.cache role).send? (workerClient n) r = some c) :
      Change o (.send n)
        { o.setCache c role with
          workers := o.workers.set n { w with sent := true } }
  | receive {n : Nat} {w : Worker} {role : CacheRole} {r : CacheRequest Payload}
      {reply : CacheReply Payload} {c : Cache Payload}
      (worker : o.workers[n]? = some w) (wants : w.request? = some (role, r)) (sent : w.sent = true)
      (receives : (o.cache role).receive? (workerClient n) = some (reply, c)) :
      Change o (.receive n) ((o.setCache c role).goOn n w (w.onReply o.profiles reply))
  | wait {n : Nat} {w : Worker} (worker : o.workers[n]? = some w) (arrives : w.stage = .arriving)
      (full : o.free = 0) : Change o (.acquire n) (o.goOn n w .telling)
  | acquire {n : Nat} {w : Worker} (worker : o.workers[n]? = some w)
      (waits : w.stage = .arriving ∨ w.stage = .queued) (room : 0 < o.free) :
      Change o (.acquire n) (o.goOn n w (.ofTask w.task))
  | answer {n : Nat} {w : Worker} {package test : String} {next : Except ReplayError Profile → Task}
      (worker : o.workers[n]? = some w)
      (asks : w.stage = .asking ⟨package, test, .consulting⟩ next) :
      Change o (.answer n) (o.goOn n w
        (.ofInquiry (Inquiry.onOutcome ⟨package, test, .consulting⟩ (o.oracle package test)) next))
  | serve {role : CacheRole} {c : Cache Payload} (serves : (o.cache role).serve? = some c) :
      Change o (.serve role) (o.setCache c role)
  | ask {id : JobId} {c : Cache Payload}
      (sends : o.jobs.send? (readerClient o.readers.length) (.read id.text) = some c) :
      Change o (.ask id) { o with jobs := c, readers := o.readers ++ [⟨id, none⟩] }
  | read {n : Nat} {reader : StatusReader} {reply : CacheReply Payload} {c : Cache Payload}
      (asked : o.readers[n]? = some reader)
      (receives : o.jobs.receive? (readerClient n) = some (reply, c)) :
      Change o (.read n)
        { o with
          jobs := c
          readers := o.readers.set n
            { reader with answer := some (c.typed Payload.status? reader.id.text reply) } }

/-- A move that is possible is one of the changes. -/
theorem change_of_step? (h : o.step? m = some o') : Change o m o' := by
  cases m with
  | start id job =>
    simp only [step?, start] at h
    cases hvalid : job.validate with
    | error e =>
      rw [hvalid] at h
      cases h
    | ok _ =>
      rw [hvalid] at h
      cases h
      exact .start hvalid
  | send n =>
    obtain ⟨w, hw, h⟩ := Option.bind_eq_some_iff.mp h
    obtain ⟨⟨role, r⟩, hwants, h⟩ := Option.bind_eq_some_iff.mp h
    dsimp only at h
    split at h
    next => cases h
    next hunsent =>
      obtain ⟨c, hsends, h⟩ := Option.bind_eq_some_iff.mp h
      cases h
      exact .send hw hwants (Bool.eq_false_iff.mpr hunsent) hsends
  | receive n =>
    obtain ⟨w, hw, h⟩ := Option.bind_eq_some_iff.mp h
    obtain ⟨⟨role, r⟩, hwants, h⟩ := Option.bind_eq_some_iff.mp h
    dsimp only at h
    split at h
    next hsent =>
      obtain ⟨⟨reply, c⟩, hreceives, h⟩ := Option.bind_eq_some_iff.mp h
      cases h
      exact .receive hw hwants hsent hreceives
    next => cases h
  | acquire n =>
    obtain ⟨w, hw, h⟩ := Option.bind_eq_some_iff.mp h
    split at h
    next hstage hfree =>
      cases h
      exact .wait hw hstage hfree
    next hstage hfree =>
      cases h
      exact .acquire hw (Or.inl hstage) (by omega)
    next hstage hfree =>
      cases h
      exact .acquire hw (Or.inr hstage) (by omega)
    next => cases h
  | answer n =>
    obtain ⟨w, hw, h⟩ := Option.bind_eq_some_iff.mp h
    dsimp only at h
    split at h
    next inquiry next hstage =>
      obtain ⟨⟨package, test⟩, hconsults, h⟩ := Option.bind_eq_some_iff.mp h
      cases h
      -- There is something to answer only where the inquiry consults the oracle.
      unfold Worker.consulting? at hconsults
      split at hconsults
      next hstage' =>
        cases hconsults
        rw [hstage] at hstage'
        cases hstage'
        exact .answer hw hstage
      next => cases hconsults
    next => cases h
  | serve role =>
    obtain ⟨c, hserves, h⟩ := Option.map_eq_some_iff.mp h
    cases h
    exact .serve hserves
  | ask id =>
    obtain ⟨c, hsends, h⟩ := Option.bind_eq_some_iff.mp h
    cases h
    exact .ask hsends
  | read n =>
    obtain ⟨reader, hreader, h⟩ := Option.bind_eq_some_iff.mp h
    obtain ⟨⟨reply, c⟩, hreceives, h⟩ := Option.bind_eq_some_iff.mp h
    cases h
    exact .read hreader hreceives

/-! ## One change after the other -/

section Runs

variable {moves after : List (Surroundings × Move)}

/-- A run goes through its moves in order. -/
theorem runIn?_append (o : Orchestrator) (moves after : List (Surroundings × Move)) :
    o.runIn? (moves ++ after) = (o.runIn? moves).bind (runIn? · after) := by
  induction moves generalizing o with
  | nil => rfl
  | cons e rest ih =>
    obtain ⟨s, m⟩ := e
    rw [List.cons_append, runIn?, runIn?, Option.bind_assoc]
    simp only [ih]

/-- The last move of a run starts where the moves before it ended. -/
theorem runIn?_concat (o : Orchestrator) (moves : List (Surroundings × Move)) (s : Surroundings)
    (m : Move) :
    o.runIn? (moves ++ [(s, m)]) = (o.runIn? moves).bind fun o₁ => (o₁.within s).step? m := by
  rw [runIn?_append]
  congr 1
  funext o₁
  exact Option.bind_fun_some _

/-- What holds at the start of a run and stays with each change holds at its end. -/
theorem run_induction {P : List (Surroundings × Move) → Orchestrator → Prop} (start : P [] o)
    (change : ∀ {moves o₁ s m o₂}, o.runIn? moves = some o₁ → P moves o₁ →
      Change (o₁.within s) m o₂ → P (moves ++ [(s, m)]) o₂)
    (run : o.runIn? moves = some o') : P moves o' := by
  induction moves using List.reverseRecOn generalizing o' with
  | nil =>
    cases run
    exact start
  | append_singleton moves e ih =>
    obtain ⟨s, m⟩ := e
    rw [runIn?_concat] at run
    obtain ⟨o₁, hbefore, hstep⟩ := Option.bind_eq_some_iff.mp run
    exact change hbefore (ih hbefore) (change_of_step? hstep)

/-- What no change ends holds all along. -/
theorem invariant {P : Orchestrator → Prop} (start : P o)
    (change : ∀ {o₁ s m o₂}, P o₁ → Change (o₁.within s) m o₂ → P o₂)
    (run : o.runIn? moves = some o') :
    P o' :=
  run_induction (P := fun _ o => P o) start (fun _ => change) run

end Runs

/-! ## What moves leave alone -/

section Fields

variable {s : Surroundings} {c : Cache Payload} {role other : CacheRole} {stage : WorkerStage}

@[simp] theorem setCache_workers : (o.setCache c role).workers = o.workers := by
  cases role with
  | jobs => rfl
  | profiles => rfl

@[simp] theorem setCache_readers : (o.setCache c role).readers = o.readers := by
  cases role with
  | jobs => rfl
  | profiles => rfl

@[simp] theorem setCache_config : (o.setCache c role).config = o.config := by
  cases role with
  | jobs => rfl
  | profiles => rfl

@[simp] theorem setCache_free : (o.setCache c role).free = o.free := by
  cases role with
  | jobs => rfl
  | profiles => rfl

@[simp] theorem setCache_active : (o.setCache c role).active = o.active := by
  cases role with
  | jobs => rfl
  | profiles => rfl

@[simp] theorem setCache_oracle : (o.setCache c role).oracle = o.oracle := by
  cases role with
  | jobs => rfl
  | profiles => rfl

@[simp] theorem setCache_sources : (o.setCache c role).sources = o.sources := by
  cases role with
  | jobs => rfl
  | profiles => rfl

@[simp] theorem goOn_workers :
    (o.goOn n w stage).workers = o.workers.set n { w with stage, sent := false } := rfl

@[simp] theorem goOn_jobs : (o.goOn n w stage).jobs = o.jobs := rfl

@[simp] theorem goOn_config : (o.goOn n w stage).config = o.config := rfl

@[simp] theorem goOn_oracle : (o.goOn n w stage).oracle = o.oracle := rfl

@[simp] theorem goOn_sources : (o.goOn n w stage).sources = o.sources := rfl

/-- A cache depends on the fields of the orchestrator that hold the caches. -/
theorem cache_congr (jobs : o'.jobs = o.jobs) (profiles : o'.profiles = o.profiles)
    (role : CacheRole) :
    o'.cache role = o.cache role := by
  cases role
  · exact jobs
  · exact profiles

@[simp] theorem cache_within (s : Surroundings) (role : CacheRole) :
    (o.within s).cache role = o.cache role :=
  cache_congr rfl rfl role

@[simp] theorem cache_goOn (role : CacheRole) : (o.goOn n w stage).cache role = o.cache role :=
  cache_congr rfl rfl role

/-- Putting a cache back changes that cache and not the other. -/
theorem cache_setCache (o : Orchestrator) (c : Cache Payload) (role other : CacheRole) :
    (o.setCache c role).cache other = if other = role then c else o.cache other := by
  cases role with
  | jobs =>
    cases other with
    | jobs => rfl
    | profiles => rfl
  | profiles =>
    cases other with
    | jobs => rfl
    | profiles => rfl

end Fields

/-- Settings, oracle and source files are those of the start as far as moves go. -/
theorem Change.fixed (h : Change o m o') :
    o'.config = o.config ∧ o'.oracle = o.oracle ∧ o'.sources = o.sources := by
  cases h with
  | start | send | receive | wait | acquire | answer | serve | ask | read => simp

/-- What no change ends holds all along, when oracle and source files stay as they are. -/
theorem invariant_fixed {P : Orchestrator → Prop} {moves : List Move} (start : P o)
    (change : ∀ {o₁ m o₂}, P o₁ → Change o₁ m o₂ → P o₂) (run : o.run? moves = some o') : P o' := by
  induction moves generalizing o with
  | nil =>
    cases run
    exact start
  | cons m rest ih =>
    obtain ⟨o₁, hstep, hrest⟩ := Option.bind_eq_some_iff.mp run
    exact ih (change start (change_of_step? hstep)) hrest

/-- Moves in fixed surroundings are a run in which the surroundings are always the same. -/
theorem run?_eq_runIn? (o : Orchestrator) (moves : List Move) :
    o.run? moves = o.runIn? (moves.map (⟨o.oracle, o.sources⟩, ·)) := by
  induction moves generalizing o with
  | nil => rfl
  | cons m rest ih =>
    rw [List.map_cons, run?, runIn?]
    have hwithin : o.within ⟨o.oracle, o.sources⟩ = o := rfl
    rw [hwithin]
    cases hstep : o.step? m with
    | none => rfl
    | some o₁ =>
      obtain ⟨_, horacle, hsources⟩ := (change_of_step? hstep).fixed
      rw [Option.bind_some, Option.bind_some, ih, horacle, hsources]

/-- Putting back a cache with the map that it had and no more replies leaves both caches their maps,
and adds no replies. -/
theorem setCache_spares {c : Cache Payload} (other role : CacheRole)
    (store : c.store = (o.cache other).store)
    (replies : ∀ client, c.repliesTo client ⊆ (o.cache other).repliesTo client) :
    ((o.setCache c other).cache role).store = (o.cache role).store ∧
      ∀ client, ((o.setCache c other).cache role).repliesTo client ⊆
        (o.cache role).repliesTo client := by
  rw [cache_setCache]
  split
  next hrole =>
    rw [hrole]
    exact ⟨store, replies⟩
  next => exact ⟨rfl, fun _ => List.Subset.refl _⟩

/-- A move has a cache serve a request, or leaves the map of the cache as it is and adds no
replies. -/
theorem Change.cache_cases (h : Change o m o') (role : CacheRole) :
    (m ≠ .serve role ∧ (o'.cache role).store = (o.cache role).store ∧
        ∀ client, (o'.cache role).repliesTo client ⊆ (o.cache role).repliesTo client) ∨
      (m = .serve role ∧ ∃ c, (o.cache role).serve? = some c ∧ o' = o.setCache c role) := by
  cases h with
  | start | wait | acquire | answer =>
    refine Or.inl ⟨nofun, ?_⟩
    rw [cache_congr (by rfl) (by rfl) role]
    exact ⟨rfl, fun _ => List.Subset.refl _⟩
  | @send n w other r c worker wants unsent sends =>
    obtain ⟨_, rfl⟩ := Cache.send?_spec sends
    exact Or.inl ⟨nofun, setCache_spares other role rfl fun _ => List.Subset.refl _⟩
  | ask sends =>
    obtain ⟨_, rfl⟩ := Cache.send?_spec sends
    exact Or.inl ⟨nofun, setCache_spares .jobs role rfl fun _ => List.Subset.refl _⟩
  | @receive n w other r reply c worker wants sent receives =>
    obtain ⟨_, rfl, _⟩ := Cache.receive?_spec receives
    exact Or.inl ⟨nofun, setCache_spares other role rfl (Cache.repliesTo_of_receive? receives)⟩
  | read asked receives =>
    obtain ⟨_, rfl, _⟩ := Cache.receive?_spec receives
    exact Or.inl ⟨nofun, setCache_spares .jobs role rfl (Cache.repliesTo_of_receive? receives)⟩
  | @serve other c serves =>
    -- Serving one cache leaves the other one alone.
    by_cases hrole : other = role
    · subst hrole
      exact Or.inr ⟨rfl, c, serves, rfl⟩
    · refine Or.inl ⟨fun heq => hrole (by injection heq), ?_⟩
      rw [cache_setCache, if_neg (Ne.symm hrole)]
      exact ⟨rfl, fun _ => List.Subset.refl _⟩

/-! ## Workers stay at their jobs -/

/-- What is found in a list after an element was replaced is the new element, at its place, or has
been there before. -/
theorem eq_or_of_getElem?_set {α : Type} {l : List α} {k n : Nat} {a b : α}
    (h : (l.set k a)[n]? = some b) : (n = k ∧ b = a) ∨ (n ≠ k ∧ l[n]? = some b) := by
  by_cases hn : n = k
  · subst hn
    have hlt : n < l.length := List.length_set ▸ (List.getElem?_eq_some_iff.mp h).1
    rw [List.getElem?_set_self hlt] at h
    exact Or.inl ⟨rfl, (Option.some.inj h).symm⟩
  · rw [List.getElem?_set_ne (Ne.symm hn)] at h
    exact Or.inr ⟨hn, h⟩

/-- What is found in a list after an element was added is that element, behind all others, or has
been there before. -/
theorem eq_or_of_getElem?_concat {α : Type} {l : List α} {n : Nat} {a b : α}
    (h : (l ++ [a])[n]? = some b) : (n = l.length ∧ b = a) ∨ l[n]? = some b := by
  rcases Nat.lt_or_ge n l.length with hn | hn
  · exact Or.inr (List.getElem?_append_left hn ▸ h)
  · rw [List.getElem?_append_right hn] at h
    have hlt := (List.getElem?_eq_some_iff.mp h).1
    rw [List.length_singleton] at hlt
    exact Or.inl ⟨by omega, List.mem_singleton.mp (List.mem_of_getElem? h)⟩

/-- The worker of a number stays the worker of its job. -/
theorem Change.worker_continues (h : Change o m o') (worker : o.workers[n]? = some w) :
    ∃ w', o'.workers[n]? = some w' ∧ w.Continues w' := by
  have hset : ∀ {k w₁ w₂}, o.workers[k]? = some w₁ → w₁.Continues w₂ →
      ∃ w', (o.workers.set k w₂)[n]? = some w' ∧ w.Continues w' := by
    intro k w₁ w₂ hk hcontinues
    by_cases hkn : k = n
    · subst hkn
      rw [worker] at hk
      cases hk
      exact ⟨w₂, List.getElem?_set_self' ▸ by simp [worker], hcontinues⟩
    · rw [List.getElem?_set_ne hkn]
      exact ⟨w, worker, .refl w⟩
  cases h with
  | start =>
    have hn := (List.getElem?_eq_some_iff.mp worker).1
    exact ⟨w, by rw [List.getElem?_append_left hn, worker], .refl w⟩
  | send hw => exact hset hw ⟨rfl, rfl, rfl, id, id⟩
  | receive hw =>
    rw [goOn_workers, setCache_workers]
    exact hset hw (.goOn (Worker.onReply_ne_announcing _ _) (Worker.unanswered_onReply _ _))
  | wait hw => exact hset hw (.goOn nofun fun _ => trivial)
  | acquire hw =>
    exact hset hw (.goOn (WorkerStage.ofTask_ne_announcing _) fun _ =>
      WorkerStage.unanswered_ofTask _)
  | answer hw =>
    exact hset hw (.goOn (WorkerStage.ofInquiry_ne_announcing _ _)
      fun _ => WorkerStage.unanswered_ofInquiry _ _)
  | serve => exact ⟨w, by rwa [setCache_workers], .refl w⟩
  | ask => exact ⟨w, worker, .refl w⟩
  | read => exact ⟨w, worker, .refl w⟩

/-- A worker has been one before, or has just been started. -/
theorem Change.worker_before {w' : Worker} (h : Change o m o') (worker : o'.workers[n]? = some w') :
    (∃ w, o.workers[n]? = some w ∧ w.Continues w') ∨
      ∃ id job, w' = .start id job ((o.assembler job).run job.package job.tests) := by
  by_cases hn : n < o.workers.length
  · obtain ⟨w'', hw'', hcontinues⟩ := h.worker_continues (List.getElem?_eq_getElem hn)
    rw [worker] at hw''
    cases hw''
    exact Or.inl ⟨_, List.getElem?_eq_getElem hn, hcontinues⟩
  · have hn' := (List.getElem?_eq_some_iff.mp worker).1
    cases h with
    | @start id job valid =>
      obtain ⟨_, rfl⟩ | hbefore := eq_or_of_getElem?_concat worker
      · exact Or.inr ⟨id, job, rfl⟩
      · exact absurd (List.getElem?_eq_some_iff.mp hbefore).1 hn
    | send | receive | wait | acquire | answer | serve | ask | read =>
      simp at hn'
      omega

/-- A worker whose request has been sent has not just gone on to another stage, so it has wanted the
same before. -/
theorem Change.request?_before {w' : Worker} (h : Change o m o') (worker : o'.workers[n]? = some w')
    (sent : w'.sent = true) : ∃ w, o.workers[n]? = some w ∧ w'.request? = w.request? := by
  -- A worker that goes on to another stage has nothing sent.
  have hgoes : ∀ {k : Nat} {w₀ : Worker} {stage : WorkerStage},
      (o.workers.set k { w₀ with stage, sent := false })[n]? = some w' →
        ∃ w, o.workers[n]? = some w ∧ w'.request? = w.request? := by
    intro k w₀ stage hw
    obtain ⟨_, rfl⟩ | ⟨_, hw⟩ := eq_or_of_getElem?_set hw
    · cases sent
    · exact ⟨w', hw, rfl⟩
  cases h with
  | start valid =>
    obtain ⟨_, rfl⟩ | hw := eq_or_of_getElem?_concat worker
    · cases sent
    · exact ⟨w', hw, rfl⟩
  | @send k w₀ role r c worker₀ wants unsent sends =>
    obtain ⟨rfl, rfl⟩ | ⟨_, hw⟩ := eq_or_of_getElem?_set worker
    · exact ⟨w₀, worker₀, rfl⟩
    · exact ⟨w', hw, rfl⟩
  | receive =>
    rw [goOn_workers, setCache_workers] at worker
    exact hgoes worker
  | wait | acquire | answer => exact hgoes worker
  | serve =>
    rw [setCache_workers] at worker
    exact ⟨w', worker, rfl⟩
  | ask | read => exact ⟨w', worker, rfl⟩

/-- The worker of a number is that of the same job at the end of a run. -/
theorem exists_continues {moves : List (Surroundings × Move)} (run : o.runIn? moves = some o')
    (worker : o.workers[n]? = some w) : ∃ w', o'.workers[n]? = some w' ∧ w.Continues w' := by
  refine invariant (P := fun o' => ∃ w', o'.workers[n]? = some w' ∧ w.Continues w')
    ⟨w, worker, .refl w⟩ (fun h hchange => ?_) run
  obtain ⟨w₁, hw₁, hcontinues⟩ := h
  obtain ⟨w₂, hw₂, hnext⟩ := hchange.worker_continues hw₁
  exact ⟨w₂, hw₂, hcontinues.trans hnext⟩

/-- Whether identifiers of jobs are sixteen bytes each, and no two jobs have the same. -/
structure FreshIds (o : Orchestrator) : Prop where
  distinct : (o.workers.map Worker.id).Nodup
  full : ∀ w ∈ o.workers, w.id.bytes.length = 16

/-- Identifiers that are good in the end have been good before, since jobs keep them and their
places. -/
theorem FreshIds.of_continues (h : FreshIds o')
    (continues : ∀ {n : Nat} {w : Worker}, o.workers[n]? = some w →
      ∃ w', o'.workers[n]? = some w' ∧ w.Continues w') :
    FreshIds o := by
  have hbegins : o.workers.map Worker.id <+: o'.workers.map Worker.id := by
    rw [List.prefix_iff_getElem?]
    intro n hn
    rw [List.length_map] at hn
    obtain ⟨w', hw', hcontinues⟩ := continues (List.getElem?_eq_getElem hn)
    rw [List.getElem?_map, hw', Option.map_some, hcontinues.id, List.getElem_map]
  refine ⟨h.distinct.sublist hbegins.sublist, fun w hw => ?_⟩
  obtain ⟨w', hw', hid⟩ := List.mem_map.mp (hbegins.subset (List.mem_map_of_mem hw))
  rw [← hid]
  exact h.full w' hw'

theorem FreshIds.before (h : FreshIds o') {moves : List (Surroundings × Move)}
    (run : o.runIn? moves = some o') : FreshIds o :=
  h.of_continues (exists_continues run)

theorem FreshIds.before_change {s : Surroundings} (h : FreshIds o')
    (hchange : Change (o.within s) m o') :
    FreshIds o :=
  h.of_continues hchange.worker_continues

/-- A run that starts no jobs leaves identifiers as they are. -/
theorem FreshIds.of_length (h : FreshIds o) {moves : List (Surroundings × Move)}
    (run : o.runIn? moves = some o') (length : o'.workers.length = o.workers.length) :
    FreshIds o' := by
  have hids : o'.workers.map Worker.id = o.workers.map Worker.id := by
    refine List.ext_getElem? fun n => ?_
    rw [List.getElem?_map, List.getElem?_map]
    cases hn : o.workers[n]? with
    | none =>
      rw [List.getElem?_eq_none_iff, ← length] at hn
      rw [List.getElem?_eq_none hn]
    | some w =>
      obtain ⟨w', hw', hcontinues⟩ := exists_continues run hn
      rw [hw', Option.map_some, Option.map_some, hcontinues.id]
  refine ⟨hids ▸ h.distinct, fun w hw => ?_⟩
  obtain ⟨w₀, hw₀, hid⟩ := List.mem_map.mp (hids ▸ List.mem_map_of_mem hw)
  rw [← hid]
  exact h.full w₀ hw₀

/-- Workers with the same identifier are the same. -/
theorem FreshIds.place_inj (h : FreshIds o) {k : Nat} {w' : Worker}
    (worker : o.workers[n]? = some w) (worker' : o.workers[k]? = some w') (same : w.id = w'.id) :
    n = k := by
  have hn := (List.getElem?_eq_some_iff.mp worker).1
  refine (List.getElem?_inj (by rwa [List.length_map]) h.distinct).mp ?_
  rw [List.getElem?_map, List.getElem?_map, worker, worker', Option.map_some, Option.map_some, same]

/-- Jobs whose identifiers have the same text are the same. -/
theorem FreshIds.eq_of_text (h : FreshIds o) {w' : Worker} (worker : w ∈ o.workers)
    (worker' : w' ∈ o.workers) (same : w.id.text = w'.id.text) : w = w' := by
  obtain ⟨n, hn⟩ := List.mem_iff_getElem?.mp worker
  obtain ⟨k, hk⟩ := List.mem_iff_getElem?.mp worker'
  have hplace := h.place_inj hn hk (JobId.eq_of_text_eq (h.full w worker) (h.full w' worker') same)
  rw [hplace, hk] at hn
  injection hn with hn
  exact hn.symm

/-! ## Requests under way -/

/-- What a client has asked a cache for and has not got. -/
def asked? (o : Orchestrator) (role : CacheRole) (client : Client) :
    Option (CacheRequest Payload) :=
  if client % 2 = 0 then o.workers[client / 2]?.bind (·.asked? role)
  else o.readers[client / 2]?.bind (·.asked? role)

/-- Whether each client stands with each cache as it has asked, and the caches serve. -/
structure Linked (o : Orchestrator) : Prop where
  serving (role : CacheRole) : (o.cache role).running ∧ 0 < (o.cache role).depth
  stands (role : CacheRole) (client : Client) : (o.cache role).Stands client (o.asked? role client)

@[simp] theorem asked?_workerClient (o : Orchestrator) (role : CacheRole) (n : Nat) :
    o.asked? role (workerClient n) = o.workers[n]?.bind (·.asked? role) := by
  simp [asked?, workerClient]

/-- A reader is a client with an odd number. -/
@[simp] theorem asked?_readerClient (o : Orchestrator) (role : CacheRole) (n : Nat) :
    o.asked? role (readerClient n) = o.readers[n]?.bind (·.asked? role) := by
  have hplace : (2 * n + 1) / 2 = n := by omega
  simp [asked?, readerClient, hplace]

theorem eq_client (client : Client) : ∃ n, client = workerClient n ∨ client = readerClient n := by
  have hparity : ∀ k : Nat, k = 2 * (k / 2) ∨ k = 2 * (k / 2) + 1 := by omega
  exact ⟨client / 2, hparity client⟩

@[simp] theorem workerClient_inj {k n : Nat} : workerClient k = workerClient n ↔ k = n :=
  Nat.mul_right_inj (by decide)

@[simp] theorem readerClient_inj {k n : Nat} : readerClient k = readerClient n ↔ k = n :=
  Nat.succ_inj.trans (Nat.mul_right_inj (by decide))

theorem workerClient_ne_readerClient (k n : Nat) : workerClient k ≠ readerClient n := by
  have hparity : 2 * k ≠ 2 * n + 1 := by omega
  exact hparity

/-- Where askers do not change, neither does what clients have asked. -/
theorem asked?_congr (workers : o'.workers = o.workers) (readers : o'.readers = o.readers) :
    o'.asked? = o.asked? := by
  funext role client
  rw [asked?, workers, readers, asked?]

/-- Replacing an element of a list changes what is looked up at its place, and there only. -/
theorem bind_getElem?_set {α β : Type} {l : List α} {n : Nat} {a : α} (h : l[n]? = some a) (b : α)
    (f : α → Option β) (k : Nat) :
    (l.set n b)[k]?.bind f = if k = n then f b else l[k]?.bind f := by
  by_cases hk : k = n
  · subst hk
    have hlt := (List.getElem?_eq_some_iff.mp h).1
    rw [if_pos rfl, List.getElem?_set_self hlt, Option.bind_some]
  · rw [if_neg hk, List.getElem?_set_ne (Ne.symm hk)]

/-- Only the worker that changes asks for something else. -/
theorem asked?_set_worker {w' : Worker} (worker : o.workers[n]? = some w)
    (workers : o'.workers = o.workers.set n w') (readers : o'.readers = o.readers)
    (role : CacheRole) (client : Client) :
    o'.asked? role client =
      if client = workerClient n then w'.asked? role else o.asked? role client := by
  obtain ⟨k, rfl | rfl⟩ := eq_client client
  · rw [asked?_workerClient, asked?_workerClient, workers, bind_getElem?_set worker]
    simp only [workerClient_inj]
  · rw [asked?_readerClient, asked?_readerClient, readers,
      if_neg (workerClient_ne_readerClient n k).symm]

/-- Only the reader that changes asks for something else. -/
theorem asked?_set_reader {reader reader' : StatusReader} (asked : o.readers[n]? = some reader)
    (workers : o'.workers = o.workers) (readers : o'.readers = o.readers.set n reader')
    (role : CacheRole) (client : Client) :
    o'.asked? role client =
      if client = readerClient n then reader'.asked? role else o.asked? role client := by
  obtain ⟨k, rfl | rfl⟩ := eq_client client
  · rw [asked?_workerClient, asked?_workerClient, workers,
      if_neg (workerClient_ne_readerClient k n)]
  · rw [asked?_readerClient, asked?_readerClient, readers, bind_getElem?_set asked]
    simp only [readerClient_inj]

namespace Linked

variable {role : CacheRole} {client : Client} {r : CacheRequest Payload}
    {reply : CacheReply Payload} {c : Cache Payload}

/-- No reply waits for a client that has asked for nothing. -/
theorem repliesTo_of_unasked (h : Linked o) (unasked : o.asked? role client = none) :
    (o.cache role).repliesTo client = [] := by
  have hstands := h.stands role client
  rw [unasked] at hstands
  exact hstands.2

/-- All stays linked if neither the caches change nor what the clients have asked. -/
theorem of_same (h : Linked o) (caches : o'.cache = o.cache) (asked : o'.asked? = o.asked?) :
    Linked o' := by
  constructor
  · rw [caches]
    exact h.serving
  · rw [caches, asked]
    exact h.stands

/-- All stays linked when a client that has asked for nothing sends a request. -/
theorem of_send (h : Linked o) (unasked : o.asked? role client = none)
    (sends : (o.cache role).send? client r = some c)
    (caches : ∀ other, o'.cache other = if other = role then c else o.cache other)
    (asked : ∀ other client', o'.asked? other client' =
      if other = role ∧ client' = client then some r else o.asked? other client') : Linked o' := by
  have hserving := h.serving role
  constructor
  · intro other
    rw [caches]
    split
    next =>
      obtain ⟨_, rfl⟩ := Cache.send?_spec sends
      exact hserving
    next => exact h.serving other
  · intro other client'
    rw [caches, asked]
    -- Only the cache and the client of the new request stand otherwise than before.
    by_cases hrole : other = role
    · subst hrole
      rw [if_pos rfl]
      by_cases hclient : client' = client
      · subst hclient
        rw [if_pos ⟨rfl, rfl⟩]
        exact Cache.Stands.send (unasked ▸ h.stands other client') sends
      · rw [if_neg fun hand => hclient hand.2]
        exact (h.stands other client').send_other sends (Ne.symm hclient)
    · rw [if_neg hrole, if_neg fun hand => hrole hand.1]
      exact h.stands other client'

/-- All stays linked when a client takes the reply that it has waited for. -/
theorem of_receive (h : Linked o) (receives : (o.cache role).receive? client = some (reply, c))
    (caches : ∀ other, o'.cache other = if other = role then c else o.cache other)
    (asked : ∀ other client', o'.asked? other client' =
      if other = role ∧ client' = client then none else o.asked? other client') : Linked o' := by
  constructor
  · intro other
    rw [caches]
    split
    next =>
      obtain ⟨rest, rfl, _⟩ := Cache.receive?_spec receives
      exact h.serving role
    next => exact h.serving other
  · intro other client'
    rw [caches, asked]
    by_cases hrole : other = role
    · subst hrole
      rw [if_pos rfl]
      by_cases hclient : client' = client
      · subst hclient
        rw [if_pos ⟨rfl, rfl⟩]
        exact ((h.stands other client').receive receives).1
      · rw [if_neg fun hand => hclient hand.2]
        exact (h.stands other client').receive_other receives hclient
    · rw [if_neg hrole, if_neg fun hand => hrole hand.1]
      exact h.stands other client'

/-- All stays linked when a cache serves a request. -/
theorem of_serve (h : Linked o) (serves : (o.cache role).serve? = some c)
    (caches : ∀ other, o'.cache other = if other = role then c else o.cache other)
    (asked : o'.asked? = o.asked?) : Linked o' := by
  constructor
  · intro other
    rw [caches]
    split
    next =>
      obtain ⟨_, _, _, _, rfl⟩ := Cache.serve?_spec serves
      exact h.serving role
    next => exact h.serving other
  · intro other client'
    rw [caches, asked]
    split
    next hrole => exact hrole ▸ (h.stands role client').serve serves
    next => exact h.stands other client'

theorem within (h : Linked o) (s : Surroundings) : Linked (o.within s) :=
  h.of_same (funext (cache_within s)) (asked?_congr rfl rfl)

/-- A worker that goes on without a cache has asked for nothing before and after. -/
theorem goOn {stage : WorkerStage} (h : Linked o) (worker : o.workers[n]? = some w)
    (idle : w.request? = none) : Linked (o.goOn n w stage) := by
  refine h.of_same (funext fun role => cache_goOn role) ?_
  funext role client
  rw [asked?_set_worker worker (goOn_workers) rfl, Worker.asked?_of_unsent rfl]
  split
  next hclient =>
    rw [hclient, asked?_workerClient, worker, Option.bind_some, Worker.asked?, idle]
    simp
  next => rfl

/-- Every change keeps requests and replies together. -/
theorem change (h : Linked o) (hchange : Change o m o') : Linked o' := by
  cases hchange with
  | start valid =>
    -- The new worker has not asked for anything, like the client that was none before.
    refine h.of_same (funext (cache_congr rfl rfl)) ?_
    funext role client
    obtain ⟨k, rfl | rfl⟩ := eq_client client
    · rw [asked?_workerClient, asked?_workerClient, List.getElem?_append]
      split
      next => rfl
      next hk =>
        rw [List.getElem?_eq_none (Nat.le_of_not_lt hk), List.getElem?_singleton]
        split
        next => rfl
        next => rfl
    · rw [asked?_readerClient, asked?_readerClient]
  | @send n w role r c worker wants unsent sends =>
    have hunasked : ∀ other, o.asked? other (workerClient n) = none := by
      intro other
      rw [asked?_workerClient, worker, Option.bind_some, Worker.asked?_of_unsent unsent]
    refine h.of_send (hunasked role) sends
      (fun other => (cache_congr rfl rfl other).trans (cache_setCache o c role other))
      fun other client => ?_
    have hsent := Worker.asked?_of_sent (w := { w with sent := true }) rfl wants other
    refine Eq.trans (asked?_set_worker worker (by rfl) (by exact setCache_readers) other client) ?_
    rw [hsent]
    by_cases hclient : client = workerClient n
    · subst hclient
      simp [hunasked other]
    · simp [hclient]
  | @receive n w role r reply c worker wants sent receives =>
    have hasked : ∀ other,
        o.asked? other (workerClient n) = if other = role then some r else none := by
      intro other
      rw [asked?_workerClient, worker, Option.bind_some, Worker.asked?_of_sent sent wants]
    refine h.of_receive receives
      (fun other => (cache_goOn other).trans (cache_setCache o c role other)) fun other client => ?_
    refine Eq.trans (asked?_set_worker worker (by rw [goOn_workers, setCache_workers])
      (by exact setCache_readers) other client) ?_
    rw [Worker.asked?_of_unsent rfl]
    by_cases hclient : client = workerClient n
    · subst hclient
      by_cases hrole : other = role
      · simp [hrole]
      · simp [hasked other, hrole]
    · simp [hclient]
  -- The next three moves take a worker on from stages at which it wants nothing of a cache.
  | wait worker arrives full => exact h.goOn worker (by simp [Worker.request?, arrives])
  | acquire worker waits room =>
    refine h.goOn worker ?_
    rcases waits with hstage | hstage
    · simp [Worker.request?, hstage]
    · simp [Worker.request?, hstage]
  | answer worker asks => exact h.goOn worker (by simp [Worker.request?, asks, Inquiry.request?])
  | @serve role c serves =>
    exact h.of_serve serves (cache_setCache o c role)
      (asked?_congr setCache_workers setCache_readers)
  | @ask id c sends =>
    -- Readers are numbered one after the other, so nobody has asked under the next number.
    have hnew : ∀ other, o.asked? other (readerClient o.readers.length) = none := by
      intro other
      rw [asked?_readerClient, List.getElem?_eq_none (Nat.le_refl _), Option.bind_none]
    refine h.of_send (hnew .jobs) sends (cache_setCache o c .jobs) fun other client => ?_
    obtain ⟨k, rfl | rfl⟩ := eq_client client
    · rw [asked?_workerClient, asked?_workerClient, if_neg fun hand =>
        workerClient_ne_readerClient _ _ hand.2]
    · simp only [asked?_readerClient, readerClient_inj]
      by_cases hk : k = o.readers.length
      · subst hk
        rw [List.getElem?_concat_length, List.getElem?_eq_none (Nat.le_refl _)]
        cases other with
        | jobs => simp [StatusReader.asked?]
        | profiles => simp [StatusReader.asked?]
      · rw [if_neg fun hand => hk hand.2, List.getElem?_append]
        split
        next => rfl
        next hle =>
          rw [List.getElem?_singleton, if_neg (by omega), List.getElem?_eq_none (by omega)]
  | @read n reader reply c asked receives =>
    have hreceives : (o.cache .jobs).receive? (readerClient n) = some (reply, c) := receives
    refine h.of_receive hreceives (cache_setCache o c .jobs) fun other client => ?_
    refine Eq.trans (asked?_set_reader asked (by rfl) (by rfl) other client) ?_
    by_cases hclient : client = readerClient n
    · subst hclient
      rw [asked?_readerClient, asked]
      cases other with
      | jobs => simp [StatusReader.asked?]
      | profiles => simp [StatusReader.asked?]
    · simp [hclient]

theorem run {moves : List (Surroundings × Move)} (h : Linked o) (run : o.runIn? moves = some o') :
    Linked o' :=
  invariant h (fun h hchange => (h.within _).change hchange) run

end Linked

/-- A new orchestrator has valid settings, two empty caches and no workers. -/
theorem new_spec {config : ReplayConfig} {oracle : CoverageOracle} {sources : SourceSet}
    (h : new config oracle sources = .ok o) :
    config.validate = .ok () ∧ o =
      { config, oracle, sources
        jobs := .spawn "jobs" config.cacheQueueDepth
        profiles := .spawn "profiles" config.cacheQueueDepth
        free := config.maxConcurrentJobs
        active := 0, workers := [], readers := [], consulted := [] } := by
  unfold new at h
  cases hvalid : config.validate with
  | error e =>
    rw [hvalid] at h
    cases h
  | ok _ =>
    rw [hvalid] at h
    cases h
    exact ⟨rfl, rfl⟩

/-- In a new orchestrator all is linked. -/
theorem linked_new {config : ReplayConfig} {oracle : CoverageOracle} {sources : SourceSet}
    (h : new config oracle sources = .ok o) : Linked o := by
  obtain ⟨_, rfl⟩ := new_spec h
  constructor
  · intro role
    have hroom : 0 < max config.cacheQueueDepth 1 :=
      Nat.lt_of_lt_of_le Nat.zero_lt_one (Nat.le_max_right _ _)
    cases role with
    | jobs => exact ⟨rfl, hroom⟩
    | profiles => exact ⟨rfl, hroom⟩
  · intro role client
    unfold asked?
    cases role with
    | jobs =>
      split
      next => exact Cache.stands_spawn ..
      next => exact Cache.stands_spawn ..
    | profiles =>
      split
      next => exact Cache.stands_spawn ..
      next => exact Cache.stands_spawn ..

end Orchestrator

end CoverageReplay
