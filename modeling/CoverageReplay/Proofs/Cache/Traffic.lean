import CoverageReplay.Proofs.Cache.Clients
import CoverageReplay.Proofs.SortedMap
import Mathlib.Data.Finset.Card
import Mathlib.Data.String.Basic

/-!
# Replies in the order of the queue

Any number of clients make requests of a cache. A request has a place among all requests that were
put into the queue, and its reply is marked with that place, so a client that gives up waiting
leaves its reply untaken and never takes it for another. What passes between a cache and its clients
(`CacheTraffic`) is then determined by the order of the queue alone: the reply to a request is what
a plain map answers after the requests in front of it (`CacheRequest.replyAfter`), whenever it is
served and whenever its client takes it.

The invariant is `CacheTraffic.Ordered`, which says of the first requests that they are served and
of the others that they wait. Each step keeps it (`Ordered.send`, `Ordered.serve`,
`Ordered.receive`).
-/

namespace CoverageReplay

variable {π α : Type}

/-! ## A plain map -/

namespace CacheRequest

/-- The payload that a request puts under a key. -/
def payloadFor? (key : String) : CacheRequest π → Option π
  | write k payload => if k = key then some payload else none
  | _ => none

/-- The key that a request puts a payload under. -/
def writtenKey? : CacheRequest π → Option String
  | write key _ => some key
  | _ => none

end CacheRequest

/-- The last payload that some requests put under a key. -/
def lastWritten (key : String) (requests : List (CacheRequest π)) : Option π :=
  (requests.filterMap (CacheRequest.payloadFor? key)).getLast?

/-- The keys that some requests put payloads under. -/
def writtenKeys (requests : List (CacheRequest π)) : Finset String :=
  (requests.filterMap CacheRequest.writtenKey?).toFinset

/-- The reply to a request that comes after others: to a read the last payload written under its
key, to a request for the size the number of keys written so far. -/
def CacheRequest.replyAfter (before : List (CacheRequest π)) : CacheRequest π → CacheReply π
  | read key => .found (lastWritten key before)
  | write _ _ => .stored
  | size => .size (writtenKeys before).card

/-- The map that some requests leave, one after the other. -/
def storeAfter (requests : List (CacheRequest π)) : SortedMap String π :=
  requests.foldl (fun store r => (r.apply store).2) .empty

section PlainMap

variable {key : String} {requests : List (CacheRequest π)} {payload : π}

/-- What was written last is in the last request, or it was there before it. -/
theorem lastWritten_concat (key : String) (requests : List (CacheRequest π)) (r : CacheRequest π) :
    lastWritten key (requests ++ [r]) = (r.payloadFor? key).or (lastWritten key requests) := by
  unfold lastWritten
  rw [List.filterMap_append]
  cases hr : r.payloadFor? key with
  | none => simp [hr]
  | some payload => simp [hr]

/-- What was written last was written, and nothing was written under the key after it. -/
theorem exists_write_of_lastWritten (h : lastWritten key requests = some payload) :
    ∃ place : Nat, requests[place]? = some (.write key payload) ∧
      ∀ later r, place < later → requests[later]? = some r → r.payloadFor? key = none := by
  -- The last write decides, so the induction takes requests off the end.
  induction requests using List.reverseRecOn with
  | nil => cases h
  | append_singleton requests r ih =>
    rw [lastWritten_concat] at h
    cases hr : r.payloadFor? key with
    | none =>
      rw [hr, Option.none_or] at h
      obtain ⟨place, hplace, hlater⟩ := ih h
      have hlt := (List.getElem?_eq_some_iff.mp hplace).1
      refine ⟨place, by rw [List.getElem?_append_left hlt, hplace], fun later r' hafter hr' => ?_⟩
      by_cases hold : later < requests.length
      · rw [List.getElem?_append_left hold] at hr'
        exact hlater later r' hafter hr'
      · rw [List.getElem?_append_right (Nat.le_of_not_lt hold)] at hr'
        rw [List.mem_singleton.mp (List.mem_of_getElem? hr')]
        exact hr
    | some found =>
      rw [hr, Option.some_or] at h
      injection h with h
      subst h
      have hwrite : r = .write key found := by
        unfold CacheRequest.payloadFor? at hr
        split at hr
        next k p =>
          split at hr
          next hk =>
            injection hr with hr
            rw [hk, hr]
          next => cases hr
        next => cases hr
      refine ⟨requests.length, by
        rw [List.getElem?_concat_length, hwrite], fun later r' hafter hr' => ?_⟩
      have hbound := (List.getElem?_eq_some_iff.mp hr').1
      rw [List.length_append, List.length_singleton] at hbound
      omega

/-- A key that has been written has a payload. -/
theorem isSome_lastWritten {place : Nat} (h : requests[place]? = some (.write key payload)) :
    (lastWritten key requests).isSome := by
  unfold lastWritten
  rw [List.getLast?_isSome]
  intro hnil
  have hmem : payload ∈ requests.filterMap (CacheRequest.payloadFor? key) :=
    List.mem_filterMap.mpr ⟨_, List.mem_of_getElem? h, if_pos rfl⟩
  rw [hnil] at hmem
  cases hmem

/-- The last request may write one more key. -/
theorem writtenKeys_concat (requests : List (CacheRequest π)) (r : CacheRequest π) :
    writtenKeys (requests ++ [r]) = writtenKeys requests ∪ (r.writtenKey?.toList).toFinset := by
  unfold writtenKeys
  rw [List.filterMap_append, List.toFinset_append]
  cases hr : r.writtenKey? with
  | none => simp [hr]
  | some key => simp [hr]

/-- The last request is applied to what the others left. -/
theorem storeAfter_concat (requests : List (CacheRequest π)) (r : CacheRequest π) :
    storeAfter (requests ++ [r]) = (r.apply (storeAfter requests)).2 := by
  rw [storeAfter, List.foldl_append]
  rfl

/-- Under each key the map has what was written there last. -/
theorem get?_storeAfter (key : String) (requests : List (CacheRequest π)) :
    (storeAfter requests).get? key = lastWritten key requests := by
  induction requests using List.reverseRecOn with
  | nil => rfl
  | append_singleton requests r ih =>
    rw [storeAfter_concat, lastWritten_concat]
    cases r with
    | read k => exact ih
    | size => exact ih
    | write k payload =>
      simp only [CacheRequest.apply, CacheRequest.payloadFor?, SortedMap.get?_insert]
      split
      next => rfl
      next => exact ih

/-- The map has the keys that were written, each once. -/
theorem keys_storeAfter (requests : List (CacheRequest π)) :
    (storeAfter requests).keys.Pairwise (· < ·) ∧
      (storeAfter requests).keys.toFinset = writtenKeys requests := by
  induction requests using List.reverseRecOn with
  | nil => exact ⟨List.Pairwise.nil, rfl⟩
  | append_singleton requests r ih =>
    rw [storeAfter_concat, writtenKeys_concat]
    cases r with
    | read k => simpa [CacheRequest.apply, CacheRequest.writtenKey?] using ih
    | size => simpa [CacheRequest.apply, CacheRequest.writtenKey?] using ih
    | write k payload =>
      obtain ⟨hsorted, hkeys⟩ := ih
      refine ⟨SortedMap.pairwise_keys_alter hsorted k _, ?_⟩
      ext x
      have hmem : x ∈ (storeAfter requests).keys ↔ x ∈ writtenKeys requests := by
        rw [← hkeys, List.mem_toFinset]
      rw [List.mem_toFinset, CacheRequest.apply, SortedMap.insert, SortedMap.mem_keys_alter, hmem]
      simp [CacheRequest.writtenKey?]

/-- A map has as many entries as keys were written. -/
theorem size_storeAfter (requests : List (CacheRequest π)) :
    (storeAfter requests).size = (writtenKeys requests).card := by
  obtain ⟨hsorted, hkeys⟩ := keys_storeAfter requests
  have hdistinct : (storeAfter requests).keys.Nodup := hsorted.imp fun h => ne_of_lt h
  rw [← hkeys, List.toFinset_card_of_nodup hdistinct, SortedMap.keys, List.length_map,
    SortedMap.size]

/-- A cache that has served some requests replies as the plain map does. -/
theorem apply_storeAfter (before : List (CacheRequest π)) (r : CacheRequest π) :
    (r.apply (storeAfter before)).1 = r.replyAfter before := by
  cases r with
  | read key => rw [CacheRequest.apply, CacheRequest.replyAfter, get?_storeAfter]
  | write key payload => rfl
  | size => rw [CacheRequest.apply, CacheRequest.replyAfter, size_storeAfter]

end PlainMap

/-! ## Places in the queue -/

/-- Some requests with their places. -/
def withPlaces (requests : List (CacheRequest π)) : List (Nat × CacheRequest π) :=
  requests.zipIdx.map Prod.swap

/-- The replies to some requests, each after those in front of it, with their places. -/
def repliesInOrder (requests : List (CacheRequest π)) : List (Nat × CacheReply π) :=
  requests.zipIdx.map fun (r, place) => (place, r.replyAfter (requests.take place))

section Places

variable {requests : List (CacheRequest π)} {place : Nat} {reply : CacheReply π}

@[simp] theorem length_withPlaces (requests : List (CacheRequest π)) :
    (withPlaces requests).length = requests.length := by
  rw [withPlaces, List.length_map, List.length_zipIdx]

/-- Requests are marked with their places. -/
theorem getElem?_withPlaces (requests : List (CacheRequest π)) (place : Nat) :
    (withPlaces requests)[place]? = requests[place]?.map (place, ·) := by
  unfold withPlaces
  rw [List.getElem?_map, List.getElem?_zipIdx, Option.map_map, Nat.zero_add]
  rfl

/-- The reply at a place is made from the requests before it. -/
theorem getElem?_repliesInOrder (requests : List (CacheRequest π)) (place : Nat) :
    (repliesInOrder requests)[place]? =
      requests[place]?.map fun r => (place, r.replyAfter (requests.take place)) := by
  unfold repliesInOrder
  rw [List.getElem?_map, List.getElem?_zipIdx, Option.map_map, Nat.zero_add]
  rfl

/-- The last request has the last place. -/
theorem withPlaces_concat (requests : List (CacheRequest π)) (r : CacheRequest π) :
    withPlaces (requests ++ [r]) = withPlaces requests ++ [(requests.length, r)] := by
  unfold withPlaces
  rw [List.zipIdx_append, List.map_append, Nat.zero_add]
  rfl

/-- Requests that come later change no reply to those in front of them. -/
theorem take_repliesInOrder_append {n : Nat} (h : n ≤ requests.length)
    (more : List (CacheRequest π)) :
    (repliesInOrder (requests ++ more)).take n = (repliesInOrder requests).take n := by
  refine List.ext_getElem? fun place => ?_
  rw [List.getElem?_take, List.getElem?_take]
  split
  next hlt =>
    rw [getElem?_repliesInOrder, getElem?_repliesInOrder, List.getElem?_append_left (by omega),
      List.take_append_of_le_length (by omega)]
  next => rfl

/-- Each place has one reply. -/
theorem nodup_repliesInOrder (requests : List (CacheRequest π)) :
    ((repliesInOrder requests).map Prod.fst).Nodup := by
  have hplaces : (repliesInOrder requests).map Prod.fst = List.range requests.length := by
    unfold repliesInOrder
    rw [List.map_map]
    exact List.zipIdx_map_snd 0 requests |>.trans List.range_eq_range'.symm
  rw [hplaces]
  exact List.nodup_range

/-- Each reply that is there belongs to the request at its place. -/
theorem mem_repliesInOrder :
    (place, reply) ∈ repliesInOrder requests ↔
      ∃ r, requests[place]? = some r ∧ reply = r.replyAfter (requests.take place) := by
  rw [List.mem_iff_getElem?]
  constructor
  · rintro ⟨other, h⟩
    rw [getElem?_repliesInOrder] at h
    obtain ⟨r, hr, heq⟩ := Option.map_eq_some_iff.mp h
    injection heq with hplace hreply
    subst hplace
    exact ⟨r, hr, hreply.symm⟩
  · rintro ⟨r, hr, hreply⟩
    refine ⟨place, ?_⟩
    rw [getElem?_repliesInOrder, hr, hreply]
    rfl

end Places

/-! ## Traffic -/

/-- A cache and what has passed between it and its clients. -/
structure CacheTraffic (π : Type) where
  cache : Cache π
  /-- The requests in the order in which they were put into the queue, each with who made it. -/
  sent : List (Client × CacheRequest π)
  /-- The replies that have been taken, each with the place of its request. -/
  taken : List (Nat × CacheReply π)
  deriving DecidableEq, Repr, Inhabited

/-- What can happen between a cache and its clients. -/
inductive CacheMove (π : Type) where
  /-- A client puts a request into the queue. -/
  | send (client : Client) (r : CacheRequest π)
  /-- The cache serves the request that has waited longest. -/
  | serve
  /-- The client that made the request at a place takes the reply. -/
  | receive (place : Nat)
  deriving DecidableEq, Repr, Inhabited

/-- The request that a move puts into the queue, with who makes it. -/
def CacheMove.sent? : CacheMove π → Option (Client × CacheRequest π)
  | send client r => some (client, r)
  | _ => none

namespace CacheTraffic

/-- A new cache. -/
def spawn (name : String) (depth : Nat) : CacheTraffic π := ⟨.spawn name depth, [], []⟩

/-- The requests in the order in which they were put into the queue. -/
def requests (t : CacheTraffic π) : List (CacheRequest π) := t.sent.map Prod.snd

/-- A client puts a request into the queue. -/
def send? (t : CacheTraffic π) (client : Client) (r : CacheRequest π) : Option (CacheTraffic π) :=
  (t.cache.send? t.sent.length r).map fun cache => { t with cache, sent := t.sent ++ [(client, r)] }

/-- The cache serves a request. -/
def serve? (t : CacheTraffic π) : Option (CacheTraffic π) :=
  t.cache.serve?.map fun cache => { t with cache }

/-- The reply to the request at a place is taken. -/
def receive? (t : CacheTraffic π) (place : Nat) : Option (CacheReply π × CacheTraffic π) :=
  (t.cache.receive? place).map fun (reply, cache) =>
    (reply, { t with cache, taken := t.taken ++ [(place, reply)] })

/-- What a move does, if it is possible. -/
def step? (t : CacheTraffic π) : CacheMove π → Option (CacheTraffic π)
  | .send client r => t.send? client r
  | .serve => t.serve?
  | .receive place => (t.receive? place).map Prod.snd

/-- What some moves do, one after the other, if all are possible. -/
def run? (t : CacheTraffic π) : List (CacheMove π) → Option (CacheTraffic π)
  | [] => some t
  | m :: rest => (t.step? m).bind (run? · rest)

/-- Whether the first `n` requests are served and the others wait, and each that is served has one
reply, which waits or has been taken. -/
structure Ordered (n : Nat) (t : CacheTraffic π) : Prop where
  running : t.cache.running
  room : 0 < t.cache.depth
  served : n ≤ t.requests.length
  queue : t.cache.queue = (withPlaces t.requests).drop n
  store : t.cache.store = storeAfter (t.requests.take n)
  replies : (t.cache.replies ++ t.taken).Perm ((repliesInOrder t.requests).take n)

variable {t t' : CacheTraffic π} {n place : Nat} {client : Client} {r : CacheRequest π}
    {reply : CacheReply π} {m : CacheMove π} {moves : List (CacheMove π)}

/-- In a new cache nothing is served yet. -/
theorem ordered_spawn (name : String) (depth : Nat) :
    (spawn name depth : CacheTraffic π).Ordered 0 where
  running := rfl
  room := Nat.lt_of_lt_of_le Nat.zero_lt_one (Nat.le_max_right _ _)
  served := Nat.le_refl 0
  queue := rfl
  store := rfl
  replies := List.Perm.refl _

@[simp] theorem length_requests (t : CacheTraffic π) : t.requests.length = t.sent.length := by
  rw [requests, List.length_map]

/-- Sending adds a request at the end, and its client. -/
theorem send?_spec (h : t.send? client r = some t') :
    t'.requests = t.requests ++ [r] ∧ t'.sent = t.sent ++ [(client, r)] ∧ t'.taken = t.taken ∧
      t.cache.send? t.requests.length r = some t'.cache := by
  obtain ⟨c, hsend, rfl⟩ := Option.map_eq_some_iff.mp h
  rw [length_requests]
  exact ⟨List.map_append, rfl, rfl, hsend⟩

/-- A request goes to the end of the queue. -/
theorem Ordered.send (h : t.Ordered n) (hsend : t.send? client r = some t') : t'.Ordered n := by
  obtain ⟨hrequests, _, htaken, hcache⟩ := send?_spec hsend
  obtain ⟨_, hc⟩ := Cache.send?_spec hcache
  constructor
  case running => rw [hc]; exact h.running
  case room => rw [hc]; exact h.room
  case served =>
    rw [hrequests, List.length_append]
    exact Nat.le_add_right_of_le h.served
  case queue =>
    rw [hc, hrequests, withPlaces_concat, h.queue,
      List.drop_append_of_le_length (by rw [length_withPlaces]; exact h.served)]
  case store =>
    rw [hc, hrequests, List.take_append_of_le_length h.served]
    exact h.store
  case replies =>
    rw [hc, hrequests, htaken, take_repliesInOrder_append h.served]
    exact h.replies

/-- Serving changes neither what was sent nor what was taken. -/
theorem serve?_spec (h : t.serve? = some t') :
    t'.sent = t.sent ∧ t'.taken = t.taken ∧ t.cache.serve? = some t'.cache := by
  obtain ⟨c, hserve, rfl⟩ := Option.map_eq_some_iff.mp h
  exact ⟨rfl, rfl, hserve⟩

/-- The request that is served is the first of those that wait. -/
theorem Ordered.next (h : t.Ordered n) (hserve : t.serve? = some t') :
    ∃ r, t.requests[n]? = some r ∧ t'.cache = { t.cache with
      store := (r.apply t.cache.store).2
      queue := (withPlaces t.requests).drop (n + 1)
      replies := t.cache.replies ++ [(n, (r.apply t.cache.store).1)] } := by
  obtain ⟨_, _, hcache⟩ := serve?_spec hserve
  obtain ⟨place, r, rest, hqueue, hc⟩ := Cache.serve?_spec hcache
  have hdrop : (withPlaces t.requests).drop n = (place, r) :: rest := h.queue.symm.trans hqueue
  have hfirst : t.requests[n]?.map (n, ·) = some (place, r) := by
    rw [← getElem?_withPlaces, ← Nat.add_zero n, ← List.getElem?_drop, hdrop]
    rfl
  obtain ⟨r', hr', heq⟩ := Option.map_eq_some_iff.mp hfirst
  injection heq with hplace hr
  subst hplace hr
  refine ⟨r', hr', ?_⟩
  rw [hc, List.drop_add_one_eq_tail_drop, hdrop]
  rfl

/-- Serving a request makes it one of those that are served, and gives it the reply of its place. -/
theorem Ordered.serve (h : t.Ordered n) (hserve : t.serve? = some t') : t'.Ordered (n + 1) := by
  obtain ⟨hsent, htaken, _⟩ := serve?_spec hserve
  obtain ⟨r, hr, hc⟩ := h.next hserve
  have hrequests : t'.requests = t.requests := by rw [requests, hsent, requests]
  have hlt : n < t.requests.length := (List.getElem?_eq_some_iff.mp hr).1
  have hreply : (repliesInOrder t.requests)[n]? = some (n, (r.apply t.cache.store).1) := by
    rw [getElem?_repliesInOrder, hr, h.store, apply_storeAfter]
    rfl
  constructor
  case running => rw [hc]; exact h.running
  case room => rw [hc]; exact h.room
  case served => rw [hrequests]; exact hlt
  case queue => rw [hc, hrequests]
  case store =>
    rw [hc, hrequests, List.take_add_one, hr, h.store]
    exact (storeAfter_concat _ r).symm
  case replies =>
    rw [hc, hrequests, htaken, List.take_add_one, hreply, List.append_assoc]
    -- The new reply stands between those that wait and those that were taken.
    have hmove : (t.cache.replies ++ ([(n, (r.apply t.cache.store).1)] ++ t.taken)).Perm
        ((t.cache.replies ++ t.taken) ++ [(n, (r.apply t.cache.store).1)]) := by
      rw [List.append_assoc]
      exact List.perm_append_comm.append_left _
    exact hmove.trans (h.replies.append_right _)

/-- Taking a reply notes it and changes nothing else of what was noted. -/
theorem receive?_spec (h : t.receive? place = some (reply, t')) :
    t'.sent = t.sent ∧ t'.taken = t.taken ++ [(place, reply)] ∧
      t.cache.receive? place = some (reply, t'.cache) := by
  obtain ⟨⟨found, c⟩, hreceive, heq⟩ := Option.map_eq_some_iff.mp h
  injection heq with hreply ht
  subst hreply ht
  exact ⟨rfl, rfl, hreceive⟩

/-- A reply that is taken leaves the others. -/
theorem takeReply_perm {waiting rest : List (Client × CacheReply π)}
    (h : Cache.takeReply client waiting = some (reply, rest)) :
    waiting.Perm ((client, reply) :: rest) := by
  induction waiting generalizing rest with
  | nil => cases h
  | cons e waiting ih =>
    obtain ⟨owner, found⟩ := e
    rw [Cache.takeReply] at h
    split at h
    next howner =>
      injection h with h
      injection h with hreply hrest
      subst howner hreply hrest
      exact List.Perm.refl _
    next =>
      obtain ⟨⟨found', rest'⟩, htake, heq⟩ := Option.map_eq_some_iff.mp h
      injection heq with hreply hrest
      subst hreply hrest
      exact ((ih htake).cons _).trans (List.Perm.swap _ _ _)

/-- Taking a reply leaves all as it is but for where the reply is. -/
theorem Ordered.receive (h : t.Ordered n) (hreceive : t.receive? place = some (reply, t')) :
    t'.Ordered n := by
  obtain ⟨hsent, htaken, hcache⟩ := receive?_spec hreceive
  obtain ⟨⟨found, rest⟩, htake, heq⟩ := Option.map_eq_some_iff.mp hcache
  injection heq with hreply hc
  subst hreply
  have hrequests : t'.requests = t.requests := by rw [requests, hsent, requests]
  constructor
  case running => rw [← hc]; exact h.running
  case room => rw [← hc]; exact h.room
  case served => rw [hrequests]; exact h.served
  case queue => rw [← hc, hrequests]; exact h.queue
  case store => rw [← hc, hrequests]; exact h.store
  case replies =>
    rw [← hc, hrequests, htaken]
    refine List.Perm.trans ?_ h.replies
    show (rest ++ (t.taken ++ [(place, found)])).Perm (t.cache.replies ++ t.taken)
    rw [← List.append_assoc]
    exact (List.perm_append_singleton _ _).trans ((takeReply_perm htake).append_right _).symm

/-! ## Runs -/

/-- A run goes through its moves in order. -/
theorem run?_append (t : CacheTraffic π) (moves after : List (CacheMove π)) :
    t.run? (moves ++ after) = (t.run? moves).bind (run? · after) := by
  induction moves generalizing t with
  | nil => rfl
  | cons m rest ih =>
    rw [List.cons_append, run?, run?, Option.bind_assoc]
    simp only [ih]

theorem run?_trans {t'' : CacheTraffic π} {after : List (CacheMove π)} (h : t.run? moves = some t')
    (h' : t'.run? after = some t'') : t.run? (moves ++ after) = some t'' := by
  rw [run?_append, h, Option.bind_some, h']

/-- What holds at the start of a run and stays with each step holds at its end. -/
theorem run_induction {P : List (CacheMove π) → CacheTraffic π → Prop} (start : P [] t)
    (step : ∀ {moves t₁ m t₂}, P moves t₁ → t₁.step? m = some t₂ → P (moves ++ [m]) t₂)
    (run : t.run? moves = some t') : P moves t' := by
  induction moves using List.reverseRecOn generalizing t' with
  | nil =>
    cases run
    exact start
  | append_singleton moves m ih =>
    rw [run?_append] at run
    obtain ⟨t₁, hbefore, hstep⟩ := Option.bind_eq_some_iff.mp run
    rw [run?, Option.bind_eq_some_iff] at hstep
    obtain ⟨t₂, hstep, hend⟩ := hstep
    cases hend
    exact step (ih hbefore) hstep

/-- After each move requests are served in order, and no fewer of them. -/
theorem Ordered.step (h : t.Ordered n) (hstep : t.step? m = some t') :
    ∃ n', n ≤ n' ∧ t'.Ordered n' := by
  cases m with
  | send client r => exact ⟨n, Nat.le_refl n, h.send hstep⟩
  | serve => exact ⟨n + 1, Nat.le_succ n, h.serve hstep⟩
  | receive place =>
    obtain ⟨⟨reply, t₁⟩, hreceive, heq⟩ := Option.map_eq_some_iff.mp hstep
    subst heq
    exact ⟨n, Nat.le_refl n, h.receive hreceive⟩

theorem Ordered.run (h : t.Ordered n) (run : t.run? moves = some t') :
    ∃ n', n ≤ n' ∧ t'.Ordered n' := by
  refine run_induction (P := fun _ t => ∃ n', n ≤ n' ∧ t.Ordered n') ⟨n, Nat.le_refl n, h⟩ ?_ run
  rintro _ t₁ m t₂ ⟨n₁, hle, h₁⟩ hstep
  obtain ⟨n₂, hle₂, h₂⟩ := h₁.step hstep
  exact ⟨n₂, Nat.le_trans hle hle₂, h₂⟩

/-- Requests are put into the queue in the order in which they are made. -/
theorem sent_run (run : t.run? moves = some t') :
    t'.sent = t.sent ++ moves.filterMap CacheMove.sent? := by
  refine run_induction (P :=
    fun moves t₁ => t₁.sent = t.sent ++ moves.filterMap CacheMove.sent?) ?_ ?_ run
  · exact (List.append_nil _).symm
  · intro moves t₁ m t₂ ih hstep
    rw [List.filterMap_append, ← List.append_assoc, ← ih]
    cases m with
    | send client r => exact (send?_spec hstep).2.1
    | serve => exact (serve?_spec hstep).1.trans (List.append_nil _).symm
    | receive place =>
      obtain ⟨⟨reply, t₃⟩, hreceive, heq⟩ := Option.map_eq_some_iff.mp hstep
      subst heq
      exact (receive?_spec hreceive).1.trans (List.append_nil _).symm

/-- The requests of a longer run begin with those of a shorter one. -/
theorem exists_requests_run (run : t.run? moves = some t') :
    ∃ more, t'.requests = t.requests ++ more :=
  ⟨_, by rw [requests, sent_run run, List.map_append, requests]⟩

/-! ## Replies -/

namespace Ordered

/-- A reply that has been taken is the one that belongs to its place. -/
theorem reply_of_taken (h : t.Ordered n) (taken : (place, reply) ∈ t.taken) :
    place < n ∧ ∃ r, t.requests[place]? = some r ∧
      reply = r.replyAfter (t.requests.take place) := by
  have hmem : (place, reply) ∈ (repliesInOrder t.requests).take n :=
    h.replies.subset (List.mem_append_right _ taken)
  refine ⟨?_, mem_repliesInOrder.mp (List.mem_of_mem_take hmem)⟩
  obtain ⟨other, hother⟩ := List.mem_iff_getElem?.mp hmem
  rw [List.getElem?_take] at hother
  split at hother
  next hlt =>
    rw [getElem?_repliesInOrder] at hother
    obtain ⟨_, _, heq⟩ := Option.map_eq_some_iff.mp hother
    injection heq with hplace
    exact hplace ▸ hlt
  next => cases hother

/-- No reply is taken twice. -/
theorem nodup_taken (h : t.Ordered n) : (t.taken.map Prod.fst).Nodup := by
  have hall : ((t.cache.replies ++ t.taken).map Prod.fst).Nodup :=
    (h.replies.map Prod.fst).nodup_iff.mpr
      ((nodup_repliesInOrder t.requests).sublist ((List.take_sublist _ _).map _))
  rw [List.map_append] at hall
  exact hall.of_append_right

/-- A request that is served has a reply, which waits if it has not been taken. -/
theorem exists_receive (h : t.Ordered n) (served : place < n)
    (waits : place ∉ t.taken.map Prod.fst) :
    ∃ reply t', t.receive? place = some (reply, t') := by
  have hlt : place < t.requests.length := Nat.lt_of_lt_of_le served h.served
  have hreply : (repliesInOrder t.requests)[place]? =
      some (place, (t.requests[place]).replyAfter (t.requests.take place)) := by
    rw [getElem?_repliesInOrder, List.getElem?_eq_getElem hlt]
    rfl
  have hmem := List.mem_of_getElem? ((List.getElem?_take_of_lt served).trans hreply)
  rcases List.mem_append.mp (h.replies.symm.subset hmem) with hwaits | htaken
  · have hne : t.cache.repliesTo place ≠ [] := List.ne_nil_of_mem (mem_ofClient.mpr hwaits)
    obtain ⟨reply, c, hreceive⟩ := Cache.exists_receive? hne
    exact ⟨reply, _, by rw [receive?, hreceive]; rfl⟩
  · exact absurd (List.mem_map_of_mem htaken) waits

/-- The requests that wait can all be served, and no reply is taken meanwhile. -/
theorem exists_serveAll (h : t.Ordered n) :
    ∃ moves t', t.run? moves = some t' ∧ t'.sent = t.sent ∧ t'.taken = t.taken ∧
      t'.Ordered t.requests.length := by
  obtain ⟨k, hk⟩ : ∃ k, t.requests.length = n + k := ⟨_, (Nat.add_sub_cancel' h.served).symm⟩
  induction k generalizing n t with
  | zero => exact ⟨[], t, rfl, rfl, rfl, hk ▸ h⟩
  | succ k ih =>
    have hqueue : t.cache.queue ≠ [] := by
      rw [h.queue, Ne, List.drop_eq_nil_iff, length_withPlaces]
      omega
    obtain ⟨e, rest, heq⟩ := List.exists_cons_of_ne_nil hqueue
    obtain ⟨c, hserves, _⟩ := Cache.exists_serve? h.running heq
    have hserve : t.serve? = some { t with cache := c } := by rw [serve?, hserves]; rfl
    obtain ⟨moves, t', hrun, hsent, htaken, hordered⟩ :=
      ih (h.serve hserve) (hk.trans (Nat.add_right_comm n k 1))
    refine ⟨.serve :: moves, t', ?_, hsent, htaken, hordered⟩
    rw [run?, step?, hserve]
    exact hrun

end Ordered

end CacheTraffic

end CoverageReplay
