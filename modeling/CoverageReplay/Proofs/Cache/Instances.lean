import CoverageReplay.Proofs.Cache.Traffic

/-!
# Several caches

Any number of clients use several caches at the same time, in any order of moves. What happens at
one cache depends on the moves at that cache alone (`CacheTraffic.own_run`), and there the clients
see what they would see of a plain map that serves one request at a time in the order of the queue
(`CacheTraffic.OneByOne`).
-/

namespace CoverageReplay.CacheTraffic

variable {π : Type} {t t' : CacheTraffic π} {ts ts' : List (CacheTraffic π)}
    {moves : List (CacheMove π)}

/-! ## What stays -/

/-- Whether a cache has the name and the places that it was made with, and no more requests than
places. -/
structure Bounded (name : String) (depth : Nat) (c : Cache π) : Prop where
  named : c.name = name
  places : c.depth = depth
  room : c.queue.length ≤ depth

/-- After each move a cache is still bounded. -/
theorem Bounded.step {name : String} {depth : Nat} {m : CacheMove π}
    (h : Bounded name depth t.cache) (hstep : t.step? m = some t') :
    Bounded name depth t'.cache := by
  cases m with
  | send client r =>
    obtain ⟨c, hsend, heq⟩ := Option.map_eq_some_iff.mp hstep
    subst heq
    unfold Cache.send? at hsend
    split at hsend
    next hroom =>
      injection hsend with hsend
      subst hsend
      rw [Bool.and_eq_true, decide_eq_true_eq, h.places] at hroom
      refine ⟨h.named, h.places, ?_⟩
      show (t.cache.queue ++ [(t.sent.length, r)]).length ≤ depth
      rw [List.length_append, List.length_singleton]
      exact hroom.2
    next => cases hsend
  | serve =>
    obtain ⟨_, _, hserve⟩ := serve?_spec hstep
    obtain ⟨client, r, rest, hqueue, hc⟩ := Cache.serve?_spec hserve
    -- Serving takes the first request off the queue.
    have hlonger : t.cache.queue.length = rest.length + 1 := by rw [hqueue, List.length_cons]
    have hroom := h.room
    rw [hc]
    exact ⟨h.named, h.places, by show rest.length ≤ depth; omega⟩
  | receive place =>
    obtain ⟨⟨reply, t₁⟩, hreceive, heq⟩ := Option.map_eq_some_iff.mp hstep
    subst heq
    obtain ⟨_, _, hcache⟩ := receive?_spec hreceive
    obtain ⟨rest, hc, _⟩ := Cache.receive?_spec hcache
    rw [hc]
    exact ⟨h.named, h.places, h.room⟩

/-- A cache is bounded in all its runs. -/
theorem bounded_run {name : String} {depth : Nat} (run : (spawn name depth).run? moves = some t) :
    Bounded name (max depth 1) t.cache := by
  refine run_induction (P := fun _ t => Bounded name (max depth 1) t.cache) ?_ ?_ run
  · exact ⟨rfl, rfl, Nat.zero_le _⟩
  · intro _ _ _ _ h hstep
    exact h.step hstep

/-! ## One request at a time -/

/-- Whether the clients of a cache see what they would see of a plain map that serves their requests
one at a time in the order in which they were put into the queue. -/
structure OneByOne (name : String) (depth : Nat) (moves : List (CacheMove π)) (t : CacheTraffic π) :
    Prop where
  /-- The requests stand in the order in which they were made, those of each client in its own
  order. -/
  made : t.sent = moves.filterMap CacheMove.sent?
  /-- The queue has no more requests than places. -/
  room : t.cache.queue.length ≤ max depth 1
  /-- Some of the requests, the first ones, have taken effect, and the others wait. -/
  effect : ∃ n ≤ t.requests.length, t.cache.queue = (withPlaces t.requests).drop n ∧
    (∀ key, t.cache.store.get? key = lastWritten key (t.requests.take n)) ∧
    t.cache.store.size = (writtenKeys (t.requests.take n)).card
  /-- Whoever has a reply has that of the plain map after the requests in front. -/
  reply : ∀ place reply, (place, reply) ∈ t.taken →
    ∃ r, t.requests[place]? = some r ∧ reply = r.replyAfter (t.requests.take place)
  once : (t.taken.map Prod.fst).Nodup
  /-- Nobody who waits for a reply waits in vain. -/
  answered : ∀ place < t.requests.length, place ∉ t.taken.map Prod.fst →
    ∃ more t' reply, t.run? more = some t' ∧ (place, reply) ∈ t'.taken
  /-- A request that is made later takes effect later. -/
  later : ∀ more t', t.run? more = some t' → t.requests <+: t'.requests
  /-- Whoever reads a key that has been written before is told that payload, or one that was written
  after it. -/
  fresh : ∀ more t' place key payload, t.run? more = some t' →
    t.requests[place]? = some (.write key payload) → ∀ read reply, t.requests.length ≤ read →
      t'.requests[read]? = some (.read key) → (read, reply) ∈ t'.taken →
        ∃ last payload', place ≤ last ∧ last < read ∧
          t'.requests[last]? = some (.write key payload') ∧
          reply = .found (some payload')
  /-- Whoever expects a payload of another kind than that which the key has is told of an error. -/
  typed : ∀ {α : Type} (view : π → Option α) place key reply, (place, reply) ∈ t.taken →
    t.requests[place]? = some (.read key) → t.cache.typed view key reply =
      match lastWritten key (t.requests.take place) with
      | none => .ok none
      | some payload =>
        match view payload with
        | some a => .ok (some a)
        | none => .error (.cacheProtocol name key)
  /-- Neither serving who reads nor taking a reply changes what is stored. -/
  unchanged : ∀ t', (∃ place reply, t.receive? place = some (reply, t')) ∨
    (t.serve? = some t' ∧ ∃ place key rest, t.cache.queue = (place, .read key) :: rest) →
      t'.cache.store = t.cache.store

section Replies

variable {n : Nat}

/-- A reply that waits can be taken after some more moves. -/
theorem Ordered.exists_taken (h : t.Ordered n) {place : Nat} (made : place < t.requests.length)
    (waits : place ∉ t.taken.map Prod.fst) :
    ∃ more t' reply, t.run? more = some t' ∧ (place, reply) ∈ t'.taken := by
  obtain ⟨serves, t₁, hrun, hsent, htaken, hordered⟩ := h.exists_serveAll
  obtain ⟨reply, t₂, hreceive⟩ := hordered.exists_receive made (htaken ▸ waits)
  have hstep : t₁.run? [.receive place] = some t₂ := by
    rw [run?, step?, hreceive]
    rfl
  refine ⟨serves ++ [.receive place], t₂, reply, run?_trans hrun hstep, ?_⟩
  rw [(receive?_spec hreceive).2.1]
  exact List.mem_append_right _ List.mem_cons_self

/-- A read that comes after a write of its key finds the payload of that write or of a later one. -/
theorem Ordered.found_of_written (h : t.Ordered n) {place read : Nat} {key : String} {payload : π}
    {reply : CacheReply π} (written : t.requests[place]? = some (.write key payload))
    (after : place < read) (reads : t.requests[read]? = some (.read key))
    (taken : (read, reply) ∈ t.taken) :
    ∃ last payload', place ≤ last ∧ last < read ∧ t.requests[last]? = some (.write key payload') ∧
      reply = .found (some payload') := by
  obtain ⟨_, r, hr, hreply⟩ := h.reply_of_taken taken
  rw [reads] at hr
  injection hr with hr
  subst hr
  have hbefore : (t.requests.take read)[place]? = some (.write key payload) := by
    rw [List.getElem?_take_of_lt after, written]
  obtain ⟨payload', hlast⟩ := Option.isSome_iff_exists.mp (isSome_lastWritten hbefore)
  obtain ⟨last, hwrite, hnone⟩ := exists_write_of_lastWritten hlast
  have hlt : last < read := by
    have hbound := (List.getElem?_eq_some_iff.mp hwrite).1
    rw [List.length_take] at hbound
    omega
  refine ⟨last, payload', ?_, hlt, ?_, ?_⟩
  · -- Were the last write in front of the known one, the known one would be none.
    by_contra hfront
    have hknown := hnone place _ (Nat.lt_of_not_le hfront) hbefore
    rw [CacheRequest.payloadFor?, if_pos rfl] at hknown
    cases hknown
  · rw [← hwrite, List.getElem?_take_of_lt hlt]
  · rw [hreply, CacheRequest.replyAfter, hlast]

/-- Taking a reply and serving a read store nothing. -/
theorem store_unchanged (cause : (∃ place reply, t.receive? place = some (reply, t')) ∨
    (t.serve? = some t' ∧ ∃ place key rest, t.cache.queue = (place, .read key) :: rest)) :
    t'.cache.store = t.cache.store := by
  rcases cause with ⟨place, reply, hreceive⟩ | ⟨hserve, place, key, rest, hqueue⟩
  · obtain ⟨_, _, hcache⟩ := receive?_spec hreceive
    obtain ⟨_, hc, _⟩ := Cache.receive?_spec hcache
    rw [hc]
  · obtain ⟨_, _, hcache⟩ := serve?_spec hserve
    obtain ⟨client, r, rest', hqueue', hc⟩ := Cache.serve?_spec hcache
    rw [hqueue] at hqueue'
    injection hqueue' with heq
    injection heq with _ hr
    rw [hc, ← hr]
    rfl

/-- A cache serves one by one in all its runs. -/
theorem oneByOne_of_run {name : String} {depth : Nat}
    (run : (spawn name depth).run? moves = some t) :
    OneByOne name depth moves t := by
  -- Everything follows from one invariant: requests are served in the order in which they were
  -- made.
  obtain ⟨n, _, h⟩ := (ordered_spawn name depth).run run
  have hbounded := bounded_run run
  constructor
  case made => exact sent_run run
  case room => exact hbounded.room
  case effect =>
    refine ⟨n, h.served, h.queue, fun key => ?_, ?_⟩
    · rw [h.store, get?_storeAfter]
    · rw [h.store, size_storeAfter]
  case reply => exact fun place reply taken => (h.reply_of_taken taken).2
  case once => exact h.nodup_taken
  case answered => exact fun place made waits => h.exists_taken made waits
  case later =>
    intro more t' hmore
    obtain ⟨new, hnew⟩ := exists_requests_run hmore
    exact ⟨new, hnew.symm⟩
  case fresh =>
    intro more t' place key payload hmore written read reply hlater reads taken
    obtain ⟨n', _, h'⟩ := h.run hmore
    obtain ⟨new, hnew⟩ := exists_requests_run hmore
    have hlt := (List.getElem?_eq_some_iff.mp written).1
    have hwritten : t'.requests[place]? = some (.write key payload) := by
      rw [hnew, List.getElem?_append_left hlt, written]
    exact h'.found_of_written hwritten (Nat.lt_of_lt_of_le hlt hlater) reads taken
  case typed =>
    intro α view place key reply taken reads
    obtain ⟨_, r, hr, hreply⟩ := h.reply_of_taken taken
    rw [reads] at hr
    injection hr with hr
    subst hr
    rw [hreply, CacheRequest.replyAfter]
    cases lastWritten key (t.requests.take place) with
    | none => rfl
    | some payload =>
      cases hview : view payload with
      | none => simp only [Cache.typed, hview, hbounded.named]
      | some => simp only [Cache.typed, hview]
  case unchanged => exact fun t' cause => store_unchanged cause

end Replies

/-! ## Moves at several caches -/

/-- What a move at one of several caches does, if it is possible. -/
def stepAt? (ts : List (CacheTraffic π)) (i : Nat) (m : CacheMove π) :
    Option (List (CacheTraffic π)) :=
  ts[i]?.bind fun t => (t.step? m).map fun t' => ts.set i t'

/-- What some moves do, each at one of several caches, if all are possible. -/
def runAt? (ts : List (CacheTraffic π)) : List (Nat × CacheMove π) → Option (List (CacheTraffic π))
  | [] => some ts
  | (i, m) :: rest => (stepAt? ts i m).bind (runAt? · rest)

/-- The moves at one of several caches. -/
def movesAt (i : Nat) (moves : List (Nat × CacheMove π)) : List (CacheMove π) := ofClient i moves

/-- A move at one cache changes no other. -/
theorem stepAt?_other {i j : Nat} {m : CacheMove π} (h : stepAt? ts i m = some ts')
    (other : j ≠ i) :
    ts'[j]? = ts[j]? := by
  obtain ⟨t, _, hstep⟩ := Option.bind_eq_some_iff.mp h
  obtain ⟨t', _, heq⟩ := Option.map_eq_some_iff.mp hstep
  rw [← heq, List.getElem?_set_ne (Ne.symm other)]

/-- What becomes of a cache is what its own moves make of it. -/
theorem own_run {moves : List (Nat × CacheMove π)} (run : runAt? ts moves = some ts') {i : Nat}
    (after : ts'[i]? = some t') : ∃ t, ts[i]? = some t ∧ t.run? (movesAt i moves) = some t' := by
  induction moves generalizing ts with
  | nil =>
    cases run
    exact ⟨t', after, rfl⟩
  | cons e rest ih =>
    obtain ⟨j, m⟩ := e
    obtain ⟨ts₁, hstep, hrest⟩ := Option.bind_eq_some_iff.mp run
    obtain ⟨t₁, ht₁, hrun⟩ := ih hrest
    by_cases hi : i = j
    · subst hi
      obtain ⟨t, ht, hmove⟩ := Option.bind_eq_some_iff.mp hstep
      obtain ⟨t₂, ht₂, heq⟩ := Option.map_eq_some_iff.mp hmove
      have hlt := (List.getElem?_eq_some_iff.mp ht).1
      rw [← heq, List.getElem?_set_self hlt] at ht₁
      injection ht₁ with ht₁
      refine ⟨t, ht, ?_⟩
      rw [movesAt, ofClient_cons_self, run?, ht₂, Option.bind_some, ht₁]
      exact hrun
    · refine ⟨t₁, (stepAt?_other hstep hi).symm.trans ht₁, ?_⟩
      rw [movesAt, ofClient_cons_of_ne (Ne.symm hi)]
      exact hrun

/-- A run at several caches keeps all of them. -/
theorem length_run {moves : List (Nat × CacheMove π)} (run : runAt? ts moves = some ts') :
    ts'.length = ts.length := by
  induction moves generalizing ts with
  | nil =>
    cases run
    rfl
  | cons e rest ih =>
    obtain ⟨i, m⟩ := e
    obtain ⟨ts₁, hstep, hrest⟩ := Option.bind_eq_some_iff.mp run
    obtain ⟨t, _, hmove⟩ := Option.bind_eq_some_iff.mp hstep
    obtain ⟨t₁, _, heq⟩ := Option.map_eq_some_iff.mp hmove
    rw [ih hrest, ← heq, List.length_set]

/-- However any number of clients use any number of caches, each cache of whatever depth serves its
requests one at a time as a plain map would, in the order in which they were put into its queue, and
takes no notice of what happens at the others. -/
theorem oneByOne_of_runs (made : List (String × Nat)) {moves : List (Nat × CacheMove π)}
    (run : runAt? (made.map fun c => spawn c.1 c.2) moves = some ts) :
    ts.length = made.length ∧ ∀ i name depth t, made[i]? = some (name, depth) → ts[i]? = some t →
      (spawn name depth).run? (movesAt i moves) = some t ∧
      OneByOne name depth (movesAt i moves) t := by
  refine ⟨(length_run run).trans (List.length_map _), fun i name depth t hmade ht => ?_⟩
  obtain ⟨t₀, ht₀, hown⟩ := own_run run ht
  rw [List.getElem?_map, hmade] at ht₀
  cases ht₀
  exact ⟨hown, oneByOne_of_run hown⟩

/-- Two clients at two caches, one of which has a queue with a single place. The first client gives
up on the reply to its first write, and the other one reads before and after the second write. -/
def twoClients : List (Nat × CacheMove Nat) :=
  [(0, .send 1 (.write "k" 3)), (0, .serve), (1, .send 2 (.write "k" 5)), (0, .send 2 (.read "k")),
    (0, .serve), (0, .send 1 (.write "k" 4)), (0, .serve), (0, .receive 2),
    (0, .send 2 (.read "k")), (0, .serve), (0, .receive 3), (0, .receive 1),
    (0, .send 1 .size), (0, .serve), (0, .receive 4)]

/-- The read after the second write finds its payload, the read in front of it the one of the first,
which the other cache has not changed, and there is one key. -/
theorem oneByOne_of_runs_two :
    ∃ ts t, runAt? [spawn "jobs" 0, spawn "profiles" 2] twoClients = some ts ∧ ts[0]? = some t ∧
      t.taken = [(2, .stored), (3, .found (some 4)), (1, .found (some 3)), (4, .size 1)] ∧
      OneByOne "jobs" 0 (movesAt 0 twoClients) t := by
  have hsome :
    ((runAt? [spawn "jobs" 0, spawn "profiles" 2] twoClients).bind (·[0]?)).map (·.taken) =
      some [(2, .stored), (3, .found (some 4)), (1, .found (some 3)), (4, .size 1)] := by
    decide +kernel
  obtain ⟨t, hfirst, htaken⟩ := Option.map_eq_some_iff.mp hsome
  obtain ⟨ts, hrun, ht⟩ := Option.bind_eq_some_iff.mp hfirst
  exact ⟨ts, t, hrun, ht, htaken,
    ((oneByOne_of_runs [("jobs", 0), ("profiles", 2)] hrun).2 0 "jobs" 0 t rfl ht).2⟩

end CoverageReplay.CacheTraffic
