import CoverageReplay.Proofs.Job.Stored

/-!
# Asking for statuses

Who asks for the status of a job gets what is stored for it at some moment between asking and being
answered: the moment at which the cache serves the request (`AnsweredSince`). There is such an
answer as soon as the cache has served what waited before (`exists_answer`), and room for the
request as soon as it has served anything (`exists_ask`).
-/

namespace CoverageReplay.Orchestrator

variable {o o' o₁ o₂ u : Orchestrator} {m : Move} {n : Nat} {s : Surroundings}
  {before during after : List (Surroundings × Move)}

/-! ## Moments of a run -/

/-- Whether a run comes by a state, at its end at the latest. -/
def Passes (o : Orchestrator) (moves : List (Surroundings × Move)) (u : Orchestrator) : Prop :=
  ∃ before after, moves = before ++ after ∧ o.runIn? before = some u

theorem passes_end (run : o.runIn? before = some u) : o.Passes before u :=
  ⟨before, [], (List.append_nil _).symm, run⟩

/-- A run comes by what its beginning comes by. -/
theorem Passes.append (h : o.Passes before u) (after : List (Surroundings × Move)) :
    o.Passes (before ++ after) u := by
  obtain ⟨first, rest, rfl, hrun⟩ := h
  exact ⟨first, rest ++ after, List.append_assoc .., hrun⟩

/-- From a moment of a run, the rest of the run leads to its end. -/
theorem Passes.exists_rest (h : o.Passes before u) (run : o.runIn? before = some o') :
    ∃ first rest, before = first ++ rest ∧ o.runIn? first = some u ∧ u.runIn? rest = some o' := by
  obtain ⟨first, rest, rfl, hrun⟩ := h
  rw [runIn?_append, hrun, Option.bind_some] at run
  exact ⟨first, rest, rfl, hrun, run⟩

/-! ## Answers -/

/-- Whether a reader gets, or will get from the replies that wait for it, what was stored at some
moment of a run. -/
structure Sees (o : Orchestrator) (during : List (Surroundings × Move)) (reader : StatusReader)
    (replies : List (CacheReply Payload)) : Prop where
  replies : ∀ reply ∈ replies, ∃ u, o.Passes during u ∧
    reply = .found (u.jobs.store.get? reader.id.text)
  answer {answer : Except ReplayError (Option JobStatus)} : reader.answer = some answer →
    ∃ u, o.Passes during u ∧ answer = .ok (u.stored? reader.id)

/-- What was stored at some moment was stored at some moment of a longer run. -/
theorem Sees.append {reader : StatusReader} {replies : List (CacheReply Payload)}
    (h : Sees o during reader replies) (after : List (Surroundings × Move)) :
    Sees o (during ++ after) reader replies := by
  constructor
  · intro reply hreply
    obtain ⟨u, hu, heq⟩ := h.replies reply hreply
    exact ⟨u, hu.append after, heq⟩
  · intro answer hanswer
    obtain ⟨u, hu, heq⟩ := h.answer hanswer
    exact ⟨u, hu.append after, heq⟩

/-- Whether those who have asked since a state are answered with what was stored at some moment
since then. -/
def AnsweredSince (o : Orchestrator) (during : List (Surroundings × Move)) (o' : Orchestrator) :
    Prop :=
  ∀ n reader, o.readers.length ≤ n → o'.readers[n]? = some reader →
    Sees o during reader (o'.jobs.repliesTo (readerClient n))

/-- Before anything happens nobody has asked since. -/
theorem answeredSince_refl (o : Orchestrator) : AnsweredSince o [] o := by
  intro n reader hn hreader
  rw [List.getElem?_eq_none hn] at hreader
  cases hreader

/-- A move after which readers have no more replies than before, and have not been told anything. -/
theorem AnsweredSince.of_same (h : AnsweredSince o during o₁) (move : Surroundings × Move)
    (readers : o₂.readers = o₁.readers)
    (replies : ∀ client, o₂.jobs.repliesTo client ⊆ o₁.jobs.repliesTo client) :
    AnsweredSince o (during ++ [move]) o₂ := by
  intro n reader hn hreader
  rw [readers] at hreader
  have hsees := (h n reader hn hreader).append [move]
  exact ⟨fun reply hreply => hsees.replies reply (replies _ hreply), hsees.answer⟩

/-- Where only statuses are kept, the payload of a key is read as a status without an error. -/
theorem typed_found (h : StatusesOnly o) (c : Cache Payload) (id : JobId) :
    c.typed Payload.status? id.text (.found (o.jobs.store.get? id.text)) = .ok (o.stored? id) := by
  unfold stored?
  cases hget : o.jobs.store.get? id.text with
  | none => rfl
  | some p =>
    obtain ⟨s, rfl⟩ := h _ _ hget
    rfl

/-- The jobs cache serves somebody: the reply says what is stored at this moment of the run. -/
theorem AnsweredSince.served (h : AnsweredSince o during o₁) (run : o.runIn? during = some o₁)
    (linked : Linked o₁) (move : Surroundings × Move) {c : Cache Payload}
    (serves : o₁.jobs.serve? = some c) :
    AnsweredSince o (during ++ [move]) (o₁.setCache c .jobs) := by
  intro n reader hn hreader
  have hsees := (h n reader hn hreader).append [move]
  refine ⟨fun reply hreply => ?_, hsees.answer⟩
  rcases linked.serve_jobs serves with ⟨k, w, status, rest, _, _, _, rfl⟩ |
    ⟨k, reader', rest, hreader', _, rfl⟩
  · replace hreply : reply ∈ ofClient (readerClient n)
      (o₁.jobs.replies ++ [(workerClient k, CacheReply.stored)]) := hreply
    rw [ofClient_append, ofClient_cons_of_ne (workerClient_ne_readerClient k n), ofClient_nil,
      List.append_nil] at hreply
    exact hsees.replies reply hreply
  · replace hreply : reply ∈ ofClient (readerClient n) (o₁.jobs.replies ++
      [(readerClient k, CacheReply.found (o₁.jobs.store.get? reader'.id.text))]) := hreply
    rw [ofClient_append, List.mem_append] at hreply
    rcases hreply with hold | hnew
    · exact hsees.replies reply hold
    · rw [mem_ofClient, List.mem_singleton, Prod.mk.injEq, readerClient_inj] at hnew
      obtain ⟨rfl, rfl⟩ := hnew
      have hsame : reader = reader' := by
        have hboth := hreader.symm.trans hreader'
        injection hboth
      exact ⟨o₁, (passes_end run).append _, by rw [hsame]⟩

/-- With each change those who ask are answered with what was stored at some moment since. -/
theorem AnsweredSince.change (h : AnsweredSince o during o₁) (run : o.runIn? during = some o₁)
    (linked : Linked o) (only : StatusesOnly o) (hchange : Change (o₁.within s) m o₂) :
    AnsweredSince o (during ++ [(s, m)]) o₂ := by
  rcases hchange.cache_cases .jobs with ⟨_, _, hreplies⟩ | ⟨rfl, c, hserve, rfl⟩
  case inr => exact h.served run (linked.run run) (s, .serve .jobs) hserve
  cases hchange with
  | start | wait | acquire | answer => exact h.of_same _ rfl hreplies
  | send | receive | serve => exact h.of_same _ setCache_readers hreplies
  | @ask id c sends =>
    obtain ⟨_, rfl⟩ := Cache.send?_spec sends
    intro n reader hn hreader
    obtain ⟨rfl, rfl⟩ | hreader := eq_or_of_getElem?_concat hreader
    · -- A reader that has just asked has no reply.
      have hunasked : (o₁.within s).asked? .jobs (readerClient o₁.readers.length) = none := by
        rw [asked?_readerClient, List.getElem?_eq_none (by exact Nat.le_refl _), Option.bind_none]
      have hnone : o₁.jobs.repliesTo (readerClient o₁.readers.length) = [] :=
        ((linked.run run).within s).repliesTo_of_unasked hunasked
      refine ⟨fun reply hreply => ?_, nofun⟩
      replace hreply : reply ∈ o₁.jobs.repliesTo (readerClient o₁.readers.length) := hreply
      rw [hnone] at hreply
      cases hreply
    · exact (h n reader hn hreader).append _
  | @read k reader reply c asked receives =>
    obtain ⟨_, _, hfirst, _⟩ := Cache.receive?_spec receives
    intro n reader' hn hreader'
    obtain ⟨rfl, rfl⟩ | ⟨_, hreader'⟩ := eq_or_of_getElem?_set hreader'
    · -- What the reader takes was put there at some moment, and statuses are all that was kept
      -- then.
      have hsees := h n reader hn asked
      obtain ⟨u, hu, rfl⟩ := hsees.replies reply (hfirst ▸ List.mem_cons_self)
      obtain ⟨first, rest, _, hrun, _⟩ := hu.exists_rest run
      have honly := statusesOnly_run linked only hrun
      refine ⟨fun reply hreply => ?_, fun hanswer => ?_⟩
      · exact (hsees.append _).replies reply (hreplies _ hreply)
      · injection hanswer with hanswer
        exact ⟨u, hu.append _, by rw [← hanswer, typed_found honly]⟩
    · have hsees := (h n reader' hn hreader').append [(s, .read k)]
      exact ⟨fun reply hreply => hsees.replies reply (hreplies _ hreply), hsees.answer⟩

/-- In each run those who ask are answered with what was stored at some moment since. -/
theorem answeredSince_run (linked : Linked o) (only : StatusesOnly o)
    (run : o.runIn? during = some o') :
    AnsweredSince o during o' :=
  run_induction (answeredSince_refl o)
    (fun hrun h hchange => h.change hrun linked only hchange) run

/-! ## Getting an answer -/

/-- A cache can serve all that waits for it, and nothing else changes. -/
theorem Linked.exists_serveAll (linked : Linked o) (role : CacheRole) (s : Surroundings) :
    ∃ k o', o.runIn? (List.replicate k (s, .serve role)) = some o' ∧ (o'.cache role).queue = [] ∧
      o'.readers = o.readers ∧ o'.workers = o.workers ∧ o'.free = o.free := by
  induction hqueue : (o.cache role).queue generalizing o with
  | nil => exact ⟨0, o, rfl, hqueue, rfl, rfl, rfl⟩
  | cons e rest ih =>
    obtain ⟨c, hserve, hrest⟩ := Cache.exists_serve? (linked.serving role).1 hqueue
    have hstep : (o.within s).step? (.serve role) = some ((o.within s).setCache c role) :=
      Option.map_eq_some_iff.mpr ⟨c, (cache_within s role).symm ▸ hserve, rfl⟩
    have hlinked := (linked.within s).change (change_of_step? hstep)
    have hqueue' : (((o.within s).setCache c role).cache role).queue = rest := by
      rw [cache_setCache, if_pos rfl, hrest]
    obtain ⟨k, o', hrun, hempty, hreaders, hworkers, hfree⟩ := ih hlinked hqueue'
    refine ⟨k + 1, o', ?_, hempty, hreaders.trans setCache_readers, hworkers.trans setCache_workers,
      hfree.trans setCache_free⟩
    rw [List.replicate_succ, runIn?, hstep]
    exact hrun

/-- Who waits for an answer can get it. -/
theorem Linked.exists_answer (linked : Linked o) {reader : StatusReader}
    (asked : o.readers[n]? = some reader) (waiting : reader.answer = none) (s : Surroundings) :
    ∃ k o' answer, o.runIn? (List.replicate k (s, .serve .jobs) ++ [(s, .read n)]) = some o' ∧
      o'.readers[n]? = some { reader with answer := some answer } := by
  obtain ⟨k, o₁, hrun, hempty, hreaders, _⟩ := linked.exists_serveAll .jobs s
  have hstands := (linked.run hrun).stands .jobs (readerClient n)
  rw [asked?_readerClient, hreaders, asked, Option.bind_some, StatusReader.asked?,
    waiting] at hstands
  obtain ⟨reply, c, hreceive⟩ := hstands.exists_receive? hempty
  have hasked : o₁.readers[n]? = some reader := hreaders ▸ asked
  have hstep : (o₁.within s).step? (.read n) = some
      { o₁.within s with
        jobs := c
        readers := o₁.readers.set n
          { reader with answer := some (c.typed Payload.status? reader.id.text reply) } } :=
    Option.bind_eq_some_iff.mpr ⟨reader, hasked,
      Option.bind_eq_some_iff.mpr ⟨(reply, c), hreceive, rfl⟩⟩
  have hread := runIn?_concat o (List.replicate k (s, .serve .jobs)) s (.read n)
  rw [hrun, Option.bind_some, hstep] at hread
  exact ⟨k, _, _, hread, List.getElem?_set_self (List.getElem?_eq_some_iff.mp hasked).1⟩

/-- Who wants to ask for a status can do so. -/
theorem Linked.exists_ask (linked : Linked o) (id : JobId) (s : Surroundings) :
    ∃ k o', o.runIn? (List.replicate k (s, .serve .jobs) ++ [(s, .ask id)]) = some o' ∧
      o'.readers = o.readers ++ [⟨id, none⟩] := by
  obtain ⟨k, o₁, hrun, hempty, hreaders, _⟩ := linked.exists_serveAll .jobs s
  have hserving := (linked.run hrun).serving .jobs
  have hroom : (o₁.cache .jobs).queue.length < (o₁.cache .jobs).depth := by
    rw [hempty]
    exact hserving.2
  obtain ⟨c, hsend⟩ :=
    Cache.exists_send? hserving.1 hroom (readerClient o₁.readers.length) (.read id.text)
  have hstep : (o₁.within s).step? (.ask id) = some
      { o₁.within s with jobs := c, readers := o₁.readers ++ [⟨id, none⟩] } :=
    Option.bind_eq_some_iff.mpr ⟨c, hsend, rfl⟩
  have hask := runIn?_concat o (List.replicate k (s, .serve .jobs)) s (.ask id)
  rw [hrun, Option.bind_some, hstep] at hask
  exact ⟨k, _, hask, by rw [hreaders]⟩

end CoverageReplay.Orchestrator
