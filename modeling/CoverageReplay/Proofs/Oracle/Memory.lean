import CoverageReplay.Oracle.Inquiry
import CoverageReplay.Proofs.SortedMap

/-!
# Answers remembered

Between two calls a cache that serves one client is idle, and a call of it is one request applied to
its map (`Cache.Idle.call`). So asking for a profile through it comes to one of four things
(`OracleCall.Asked`), and a run of calls leaves under each key what was there at first, or else the
first profile that an oracle gave under the key (`get?_cacheAfter`). That profile is the answer ever
after (`answers_remembered`).
-/

namespace CoverageReplay

/-! ## Idle caches -/

/-- Whether a cache serves and nothing is under way. -/
structure Cache.Idle {π : Type} (c : Cache π) : Prop where
  running : c.running
  room : 0 < c.depth
  queue : c.queue = []
  replies : c.replies = []

/-- A call of an idle cache applies one request. -/
theorem Cache.Idle.call {π : Type} {c : Cache π} (h : c.Idle) (client : Client)
    (r : CacheRequest π) :
    c.call client r = .ok ((r.apply c.store).1, { c with store := (r.apply c.store).2 }) := by
  obtain ⟨name, depth, running, store, queue, replies⟩ := c
  obtain ⟨rfl, hroom, rfl, rfl⟩ := h
  simp [Cache.call, send?, serve?, receive?, takeReply, show 0 < depth from hroom]

/-! ## One call -/

/-- A call of an oracle through a cache: the oracle as it answers at the time, and the test that is
asked for. -/
structure OracleCall where
  oracle : CoverageOracle
  package : String
  test : String

namespace OracleCall

/-- The key that the answer is remembered under. -/
def key (call : OracleCall) : String := Inquiry.cacheKey call.package call.test

/-- What the oracle says if it is consulted. -/
def said (call : OracleCall) : OracleOutcome := call.oracle call.package call.test

/-- The profile that the oracle gives if it is consulted and succeeds. -/
def profile? (call : OracleCall) : Option Profile :=
  match call.said with
  | .answer (.ok p) => some p
  | _ => none

/-- Makes the call through a cache. -/
def ask (call : OracleCall) (c : Cache Payload) : CachedAnswer :=
  askThroughCache call.oracle c call.package call.test

/-- The answer that is made of what is there for a key. -/
def recalled (c : Cache Payload) (key : String) (payload : Payload) : CachedAnswer :=
  match payload.profile? with
  | some p => ⟨.answer (.ok p), 0, c⟩
  | none => ⟨.answer (.error (.cacheProtocol c.name key)), 0, c⟩

/-- What may come of a call through a cache. -/
inductive Asked (call : OracleCall) (c : Cache Payload) : CachedAnswer → Prop
  /-- The profile is there: it is the answer. -/
  | remembered {p : Profile} (held : c.store.get? call.key = some (.profile p)) :
      Asked call c ⟨.answer (.ok p), 0, c⟩
  /-- Something else is there. -/
  | misread {payload : Payload} (held : c.store.get? call.key = some payload)
    (other : payload.profile? = none) :
      Asked call c ⟨.answer (.error (.cacheProtocol c.name call.key)), 0, c⟩
  /-- Nothing is there, and the oracle gives a profile, which is kept. -/
  | learnt {p : Profile} (missing : c.store.get? call.key = none)
    (said : call.said = .answer (.ok p)) :
      Asked call c ⟨.answer (.ok p), 1, { c with store := c.store.insert call.key (.profile p) }⟩
  /-- Nothing is there, and the oracle gives none. -/
  | unanswered (missing : c.store.get? call.key = none) (failed : ∀ p,
    call.said ≠ .answer (.ok p)) :
      Asked call c ⟨call.said, 1, c⟩

variable {call : OracleCall} {c : Cache Payload} {a : CachedAnswer} {p : Profile}

/-- A call through an idle cache looks the key up, and consults the oracle if nothing is there. -/
theorem asked_of_idle (idle : c.Idle) (call : OracleCall) : call.Asked c (call.ask c) := by
  have hlook : (Inquiry.begin call.package call.test).callCache c 0 =
      ((Inquiry.begin call.package call.test).onReply c (.found (c.store.get? call.key)), c) := by
    unfold Inquiry.callCache
    simp only [Inquiry.request?, Inquiry.begin, idle.call]
    rfl
  unfold ask askThroughCache
  rw [hlook]
  -- A key that is held is answered from the cache alone; only an empty one brings in the oracle.
  cases hheld : c.store.get? call.key with
  | some payload =>
    cases payload with
    | profile p => exact .remembered hheld
    | number | text | status => exact .misread hheld rfl
  | none =>
    have hfailed (failed : ∀ p, call.said ≠ .answer (.ok p)) : call.Asked c ⟨call.said, 1, c⟩ :=
      .unanswered hheld failed
    cases hsaid : call.oracle call.package call.test with
    | panic reason =>
      have hasked := hfailed fun p hp => by cases hsaid.symm.trans hp
      rwa [said, hsaid] at hasked
    | answer result =>
      cases result with
      | error e =>
        have hasked := hfailed fun p hp => by cases hsaid.symm.trans hp
        rwa [said, hsaid] at hasked
      | ok p =>
        let keeping : Inquiry := ⟨call.package, call.test, .keeping p⟩
        -- What the oracle said is stored before it is told.
        have hkeep : keeping.callCache c 0 = (⟨call.package, call.test, .done (.answer (.ok p))⟩,
            { c with store := c.store.insert call.key (.profile p) }) := by
          unfold Inquiry.callCache
          simp only [keeping, Inquiry.request?, idle.call]
          rfl
        show call.Asked c
          ⟨(keeping.callCache c 0).1.outcome?.getD (.answer (.ok p)), 1, (keeping.callCache c 0).2⟩
        rw [hkeep]
        exact .learnt hheld hsaid

/-! ## What a call leaves -/

/-- A call has a profile if the oracle answered with one. -/
theorem profile?_eq_some : call.profile? = some p ↔ call.said = .answer (.ok p) := by
  unfold profile?
  split
  next q hsaid => rw [hsaid]; simp
  next hother => exact ⟨nofun, fun h => absurd h (hother p)⟩

/-- After a call an idle cache is idle again. -/
theorem Asked.idle (h : call.Asked c a) (idle : c.Idle) : a.cache.Idle := by
  cases h with
  | learnt => exact ⟨idle.running, idle.room, idle.queue, idle.replies⟩
  | remembered | misread | unanswered => exact idle

/-- After a call there is under each key what was there before, or else what the oracle gave for
it. -/
theorem Asked.get? (h : call.Asked c a) (k : String) : a.cache.store.get? k =
    (c.store.get? k).or (if call.key = k then call.profile?.map .profile else none) := by
  have hheld {payload : Payload} (held : c.store.get? call.key = some payload) : c.store.get? k =
      (c.store.get? k).or (if call.key = k then call.profile?.map .profile else none) := by
    split
    next hkey => rw [← hkey, held, Option.some_or]
    next => rw [Option.or_none]
  cases h with
  | remembered held | misread held => exact hheld held
  | learnt missing said =>
    have hprofile := profile?_eq_some.mpr said
    rw [SortedMap.get?_insert, hprofile]
    split
    next hkey => rw [← hkey, missing]; rfl
    next => rw [Option.or_none]
  | unanswered missing failed =>
    have hprofile : call.profile? = none :=
      Option.eq_none_iff_forall_ne_some.mpr fun p hp => failed p (profile?_eq_some.mp hp)
    rw [hprofile, Option.map_none, ite_self, Option.or_none]

/-- The oracle is consulted once if nothing is there, and not at all otherwise. -/
theorem Asked.consulted (h : call.Asked c a) :
    a.consulted = if (c.store.get? call.key).isNone then 1 else 0 := by
  cases h with
  | remembered held | misread held => rw [held]; rfl
  | learnt missing | unanswered missing => rw [missing]; rfl

/-- A profile that was the answer is there. -/
theorem Asked.held (h : call.Asked c a) (answered : a.outcome = .answer (.ok p)) :
    a.cache.store.get? call.key = some (.profile p) := by
  cases h with
  | remembered held =>
    cases answered
    exact held
  | misread => cases answered
  | learnt =>
    cases answered
    rw [SortedMap.get?_insert, if_pos rfl]
  | unanswered _ failed => exact absurd answered (failed p)

/-- What is there is all that the answer is made of. -/
theorem Asked.eq_of_held {payload : Payload} (h : call.Asked c a)
    (held : c.store.get? call.key = some payload) :
    a = recalled c call.key payload := by
  cases h with
  | remembered held' =>
    cases held.symm.trans held'
    rfl
  | misread held' other =>
    cases held.symm.trans held'
    rw [recalled, other]
  | learnt missing | unanswered missing => cases held.symm.trans missing

end OracleCall

/-! ## Runs of calls -/

/-- The cache after calls that were made one after the other. -/
def cacheAfter (c : Cache Payload) (calls : List OracleCall) : Cache Payload :=
  calls.foldl (fun c call => (call.ask c).cache) c

/-- The first profile that an oracle gives under a key. -/
def firstProfile? (key : String) (calls : List OracleCall) : Option Profile :=
  calls.findSome? fun call => if call.key = key then call.profile? else none

variable {c : Cache Payload}

/-- After any calls an idle cache is idle again. -/
theorem Cache.Idle.cacheAfter (idle : c.Idle) (calls : List OracleCall) :
    (cacheAfter c calls).Idle := by
  induction calls generalizing c with
  | nil => exact idle
  | cons call rest ih => exact ih ((OracleCall.asked_of_idle idle call).idle idle)

/-- After a run there is under each key what was there at first, or else the first profile given
under it. -/
theorem get?_cacheAfter (idle : c.Idle) (calls : List OracleCall) (k : String) :
    (cacheAfter c calls).store.get? k =
      (c.store.get? k).or ((firstProfile? k calls).map .profile) := by
  induction calls generalizing c with
  | nil => exact (Option.or_none ..).symm
  | cons call rest ih =>
    have hasked := OracleCall.asked_of_idle idle call
    have hfirst : (firstProfile? k (call :: rest)).map Payload.profile =
        (if call.key = k then call.profile?.map .profile else none).or
          ((firstProfile? k rest).map .profile) := by
      rw [firstProfile?, List.findSome?_cons]
      by_cases hkey : call.key = k
      · rw [if_pos hkey, if_pos hkey]
        cases call.profile? with
        | none => rfl
        | some => rfl
      · rw [if_neg hkey, if_neg hkey]
        rfl
    rw [hfirst, ← Option.or_assoc, ← hasked.get? k]
    exact ih (hasked.idle idle)

theorem cacheAfter_append (c : Cache Payload) (before after : List OracleCall) :
    cacheAfter c (before ++ after) = cacheAfter (cacheAfter c before) after :=
  List.foldl_append

/-- Answers are remembered. In a run of calls through a cache that is idle at first, whatever is in
it and whatever the oracles answer, each call comes to one of the four things. It consults its
oracle, and does so once, exactly if its key holds nothing; otherwise the oracle makes no
difference. It leaves all other keys as they are. What a key holds before a call is what it held at
first, or else the first profile that an oracle gave under it. Once a call was answered with a
profile, every later call with the same key is answered with that profile, without its oracle and
without a change of the cache. -/
theorem answers_remembered (idle : c.Idle) :
    (∀ (before : List OracleCall) (call : OracleCall) (a : CachedAnswer),
      a = call.ask (cacheAfter c before) →
        call.Asked (cacheAfter c before) a ∧
        (a.consulted = if ((cacheAfter c before).store.get? call.key).isNone then 1 else 0) ∧
        (((cacheAfter c before).store.get? call.key).isSome →
          ∀ oracle, { call with oracle }.ask (cacheAfter c before) = a) ∧
        (∀ k, k ≠ call.key → a.cache.store.get? k = (cacheAfter c before).store.get? k) ∧
        ∀ k, (cacheAfter c before).store.get? k =
          (c.store.get? k).or ((firstProfile? k before).map .profile)) ∧
    ∀ (before : List OracleCall) (call : OracleCall) (between : List OracleCall)
        (later : OracleCall) (p : Profile), later.key = call.key →
      (call.ask (cacheAfter c before)).outcome = .answer (.ok p) →
        later.ask (cacheAfter c (before ++ call :: between)) =
          ⟨.answer (.ok p), 0, cacheAfter c (before ++ call :: between)⟩ := by
  refine ⟨?_, fun before call between later p hkey hanswer => ?_⟩
  · rintro before call _ rfl
    have hasked := OracleCall.asked_of_idle (idle.cacheAfter before) call
    refine ⟨hasked, hasked.consulted, fun hsome oracle => ?_, fun k hk =>
      ?_, get?_cacheAfter idle before⟩
    · obtain ⟨payload, hheld⟩ := Option.isSome_iff_exists.mp hsome
      have hother := OracleCall.asked_of_idle (idle.cacheAfter before) { call with oracle }
      exact (hother.eq_of_held hheld).trans (hasked.eq_of_held hheld).symm
    · rw [hasked.get? k, if_neg hk.symm, Option.or_none]
  · have hasked := OracleCall.asked_of_idle (idle.cacheAfter before) call
    have hheld := get?_cacheAfter (hasked.idle (idle.cacheAfter before)) between later.key
    rw [hkey, hasked.held hanswer, Option.some_or, ← hkey] at hheld
    have hafter : cacheAfter c (before ++ call :: between) =
        cacheAfter (call.ask (cacheAfter c before)).cache between :=
      cacheAfter_append c before (call :: between)
    rw [← hafter] at hheld
    exact (OracleCall.asked_of_idle (idle.cacheAfter _) later).eq_of_held hheld

/-- A cache that holds a number under the key of test `x` of package `p`. -/
def numbered : Cache Payload := ⟨"profiles", 1, true, ⟨[("p-x", .number 0)]⟩, [], []⟩

namespace OracleCall

/-- A call for test `t` while the oracle fails. -/
def failing : OracleCall := ⟨fun _ _ => .answer (.error (.oracle "p" "t" "too early")), "p", "t"⟩

/-- A call for test `t` when the oracle gives a profile. -/
def succeeding : OracleCall := ⟨fun _ _ => .answer (.ok ⟨.set, []⟩), "p", "t"⟩

/-- A call for test `t` when the oracle gives another profile. -/
def changed : OracleCall := ⟨fun _ _ => .answer (.ok ⟨.count, []⟩), "p", "t"⟩

/-- A call for test `x`. -/
def misreading : OracleCall := ⟨fun _ _ => .answer (.ok ⟨.set, []⟩), "p", "x"⟩

end OracleCall

/-- A number is no profile, so test `x` is asked for in vain. The first profile of test `t` is
remembered, though the oracle has failed before and gives another profile later. -/
theorem answers_remembered_numbered : numbered.Idle ∧
    OracleCall.misreading.ask (cacheAfter numbered []) =
      ⟨.answer (.error (.cacheProtocol "profiles" "p-x")), 0, numbered⟩ ∧
    (OracleCall.succeeding.ask (cacheAfter numbered [.failing])).outcome =
      .answer (.ok ⟨.set, []⟩) ∧
    (OracleCall.changed.ask
        (cacheAfter numbered ([.failing] ++ .succeeding :: [.misreading]))).outcome =
      .answer (.ok ⟨.set, []⟩) := by
  have hidle : numbered.Idle := ⟨rfl, by decide, rfl, rfl⟩
  obtain ⟨hcalls, hlater⟩ := answers_remembered hidle
  obtain ⟨hasked, _⟩ := hcalls [] .misreading _ rfl
  have hfirst : (OracleCall.succeeding.ask (cacheAfter numbered [.failing])).outcome =
      .answer (.ok ⟨.set, []⟩) := rfl
  have hlast := hlater [.failing] .succeeding [.misreading] .changed _ rfl hfirst
  exact ⟨hidle, hasked.eq_of_held rfl, hfirst, by rw [hlast]⟩

end CoverageReplay
