import CoverageReplay.Cache

/-!
# What clients see of a cache

To a client a cache is a map, the requests of the client that wait, and the replies that wait for
the client. A client that waits for the reply to one request before it makes the next one always has
one request under way or none. `Cache.Stands` says which, and every step of the cache or of another
client leaves it at that (`Stands.serve`, `Stands.send_other`, `Stands.receive_other`): a request
that was put into the queue is served once, and its reply is there until the client takes it.
-/

namespace CoverageReplay

variable {π α : Type}

/-! ## Things that belong to clients -/

/-- What belongs to a client, of things marked with the client to whom they belong. -/
def ofClient (client : Client) (marked : List (Client × α)) : List α :=
  marked.filterMap fun m => if m.1 = client then some m.2 else none

section OfClient

variable {client other : Client} {a : α} {marked rest : List (Client × α)}

@[simp] theorem ofClient_nil (client : Client) : ofClient client ([] : List (Client × α)) = [] :=
  rfl

@[simp] theorem ofClient_cons_self (client : Client) (a : α) (rest : List (Client × α)) :
    ofClient client ((client, a) :: rest) = a :: ofClient client rest := by
  simp [ofClient]

theorem ofClient_cons_of_ne (h : other ≠ client) (a : α) (rest : List (Client × α)) :
    ofClient client ((other, a) :: rest) = ofClient client rest := by
  simp [ofClient, h]

@[simp] theorem ofClient_append (client : Client) (marked rest : List (Client × α)) :
    ofClient client (marked ++ rest) = ofClient client marked ++ ofClient client rest :=
  List.filterMap_append

theorem mem_ofClient : a ∈ ofClient client marked ↔ (client, a) ∈ marked := by
  simp [ofClient]

end OfClient

/-! ## Replies that fit -/

/-- Whether a reply is of the kind that a request asks for. -/
def CacheRequest.Fits : CacheRequest π → CacheReply π → Prop
  | .read _, .found _ => True
  | .write _ _, .stored => True
  | .size, .size _ => True
  | _, _ => False

/-- Each request gets a reply that fits it. -/
theorem CacheRequest.fits_apply (r : CacheRequest π) (store : SortedMap String π) :
    r.Fits (r.apply store).1 := by
  cases r with
  | read => trivial
  | write => trivial
  | size => trivial

namespace Cache

variable {c c' : Cache π} {client other : Client} {r : CacheRequest π} {reply : CacheReply π}

/-- The requests of a client that wait. -/
def requestsOf (c : Cache π) (client : Client) : List (CacheRequest π) := ofClient client c.queue

/-- The replies that wait for a client. -/
def repliesTo (c : Cache π) (client : Client) : List (CacheReply π) := ofClient client c.replies

/-! ## Steps -/

/-- Whoever sends a request has it wait in the queue of a running cache. -/
theorem send?_spec (h : c.send? client r = some c') :
    c.running ∧ c' = { c with queue := c.queue ++ [(client, r)] } := by
  unfold send? at h
  split at h
  next hroom =>
    injection h with h
    rw [Bool.and_eq_true] at hroom
    exact ⟨hroom.1, h.symm⟩
  next => cases h

/-- The first request of the queue is served. -/
theorem serve?_spec (h : c.serve? = some c') :
    ∃ client r rest, c.queue = (client, r) :: rest ∧
      c' = { c with
        store := (r.apply c.store).2
        queue := rest
        replies := c.replies ++ [(client, (r.apply c.store).1)] } := by
  unfold serve? at h
  split at h
  next client r rest _ hqueue =>
    injection h with h
    exact ⟨client, r, rest, hqueue, h.symm⟩
  next => cases h

/-- A client takes the first of its own replies, and leaves those of the others. -/
theorem takeReply_spec {replies rest : List (Client × CacheReply π)}
    (h : takeReply client replies = some (reply, rest)) :
    ofClient client replies = reply :: ofClient client rest ∧
      ∀ other, other ≠ client → ofClient other rest = ofClient other replies := by
  induction replies generalizing rest with
  | nil => cases h
  | cons e replies ih =>
    obtain ⟨owner, found⟩ := e
    rw [takeReply] at h
    split at h
    next howner =>
      injection h with h
      injection h with hreply hrest
      subst howner hreply hrest
      exact ⟨ofClient_cons_self .., fun other hother => (ofClient_cons_of_ne hother.symm _ _).symm⟩
    next howner =>
      obtain ⟨⟨found', rest'⟩, htake, heq⟩ := Option.map_eq_some_iff.mp h
      injection heq with hreply hrest
      subst hreply hrest
      obtain ⟨hclient, hothers⟩ := ih htake
      refine ⟨?_, fun other hother => ?_⟩
      · rw [ofClient_cons_of_ne howner, ofClient_cons_of_ne howner, hclient]
      · by_cases hsame : owner = other
        · subst hsame
          rw [ofClient_cons_self, ofClient_cons_self, hothers owner hother]
        · rw [ofClient_cons_of_ne hsame, ofClient_cons_of_ne hsame, hothers other hother]

/-- A client that takes a reply changes only the replies of the cache. -/
theorem receive?_spec (h : c.receive? client = some (reply, c')) :
    ∃ rest, c' = { c with replies := rest } ∧
      c.repliesTo client = reply :: c'.repliesTo client ∧
      ∀ other, other ≠ client → c'.repliesTo other = c.repliesTo other := by
  obtain ⟨⟨found, rest⟩, htake, heq⟩ := Option.map_eq_some_iff.mp h
  injection heq with hreply hc
  subst hreply hc
  obtain ⟨hclient, hothers⟩ := takeReply_spec htake
  exact ⟨rest, rfl, hclient, hothers⟩

/-- Taking a reply leaves nobody more than there was. -/
theorem repliesTo_of_receive? (h : c.receive? client = some (reply, c')) (other : Client) :
    c'.repliesTo other ⊆ c.repliesTo other := by
  obtain ⟨_, _, hclient, hothers⟩ := receive?_spec h
  by_cases hsame : other = client
  · rw [hsame, hclient]
    exact List.subset_cons_self _ _
  · rw [hothers other hsame]
    exact List.Subset.refl _

/-- A client that a reply waits for can take one. -/
theorem exists_receive? (h : c.repliesTo client ≠ []) :
    ∃ reply c', c.receive? client = some (reply, c') := by
  have htake : ∀ replies : List (Client × CacheReply π), ofClient client replies ≠ [] →
      ∃ taken, takeReply client replies = some taken := by
    intro replies
    induction replies with
    | nil => exact fun hne => absurd rfl hne
    | cons e replies ih =>
      obtain ⟨owner, found⟩ := e
      intro hne
      rw [takeReply]
      by_cases howner : owner = client
      · rw [if_pos howner]
        exact ⟨_, rfl⟩
      · rw [ofClient_cons_of_ne howner] at hne
        obtain ⟨taken, htaken⟩ := ih hne
        rw [if_neg howner, htaken]
        exact ⟨_, rfl⟩
  obtain ⟨taken, htaken⟩ := htake c.replies h
  unfold receive?
  rw [htaken]
  exact ⟨_, _, rfl⟩

/-- A cache that still serves takes a request when there is a place for it. -/
theorem exists_send? (running : c.running) (room : c.queue.length < c.depth) (client : Client)
    (r : CacheRequest π) : ∃ c', c.send? client r = some c' := by
  refine ⟨_, if_pos ?_⟩
  rw [running, Bool.true_and]
  exact decide_eq_true room

/-- A cache that still serves can serve what waits for it. -/
theorem exists_serve? {e : Client × CacheRequest π} {rest : List (Client × CacheRequest π)}
    (running : c.running) (queue : c.queue = e :: rest) :
    ∃ c', c.serve? = some c' ∧ c'.queue = rest := by
  unfold serve?
  rw [running, queue]
  exact ⟨_, rfl, rfl⟩

/-! ## One request at a time -/

/-- How a client stands with a cache: it has asked for nothing, or a request of its waits to be
served, or the reply to it waits to be taken. -/
def Stands (c : Cache π) (client : Client) : Option (CacheRequest π) → Prop
  | none => c.requestsOf client = [] ∧ c.repliesTo client = []
  | some r => (c.requestsOf client = [r] ∧ c.repliesTo client = []) ∨
      (c.requestsOf client = [] ∧ ∃ reply, c.repliesTo client = [reply] ∧ r.Fits reply)

variable {asked : Option (CacheRequest π)}

theorem stands_spawn (name : String) (depth : Nat) (client : Client) :
    (spawn name depth : Cache π).Stands client none := ⟨rfl, rfl⟩

/-- Sending is the step from asking for nothing to having asked. -/
theorem Stands.send (h : c.Stands client none) (hsend : c.send? client r = some c') :
    c'.Stands client (some r) := by
  obtain ⟨_, rfl⟩ := send?_spec hsend
  obtain ⟨hrequests, hreplies⟩ := h
  unfold requestsOf at hrequests
  exact Or.inl ⟨by simp [requestsOf, hrequests], hreplies⟩

/-- What others send does not matter for how a client stands. -/
theorem Stands.send_other (h : c.Stands other asked) (hsend : c.send? client r = some c')
    (hne : client ≠ other) : c'.Stands other asked := by
  obtain ⟨_, rfl⟩ := send?_spec hsend
  have hrequests : requestsOf { c with queue := c.queue ++ [(client, r)] } other =
    c.requestsOf other := by
    simp [requestsOf, ofClient_cons_of_ne hne]
  cases asked with
  | none => exact ⟨hrequests.trans h.1, h.2⟩
  | some s =>
    unfold Stands
    rw [hrequests]
    exact h

/-- Serving leaves a client what it has asked for, whether the request served is its own or not. -/
theorem Stands.serve (h : c.Stands other asked) (hserve : c.serve? = some c') :
    c'.Stands other asked := by
  obtain ⟨client, r, rest, hqueue, rfl⟩ := serve?_spec hserve
  by_cases hsame : client = other
  · subst hsame
    have hrequests : c.requestsOf client = r :: ofClient client rest := by
      rw [requestsOf, hqueue, ofClient_cons_self]
    cases asked with
    | none =>
      rw [h.1] at hrequests
      cases hrequests
    | some s =>
      rcases h with ⟨hwaits, hreplies⟩ | ⟨hwaits, _⟩
      · rw [hwaits] at hrequests
        injection hrequests with hs hrest
        refine Or.inr ⟨hrest.symm, (r.apply c.store).1, ?_, hs ▸ r.fits_apply _⟩
        unfold repliesTo at hreplies ⊢
        simp [hreplies]
      · rw [hwaits] at hrequests
        cases hrequests
  · unfold Stands requestsOf repliesTo at h ⊢
    rw [hqueue, ofClient_cons_of_ne hsame] at h
    simpa [ofClient_cons_of_ne hsame] using h

/-- Taking a reply is the step back to asking for nothing; the reply is one to what was asked. -/
theorem Stands.receive (h : c.Stands client asked)
    (hreceive : c.receive? client = some (reply, c')) :
    c'.Stands client none ∧ ∃ r, asked = some r ∧ r.Fits reply ∧ c.repliesTo client = [reply] := by
  obtain ⟨rest, rfl, hclient, _⟩ := receive?_spec hreceive
  cases asked with
  | none =>
    rw [h.2] at hclient
    cases hclient
  | some r =>
    rcases h with ⟨_, hreplies⟩ | ⟨hwaits, found, hreplies, hfits⟩
    · rw [hreplies] at hclient
      cases hclient
    · rw [hreplies] at hclient
      injection hclient with hfound hrest
      subst hfound
      exact ⟨⟨hwaits, hrest.symm⟩, r, rfl, hfits, hreplies⟩

/-- What others take does not matter for how a client stands. -/
theorem Stands.receive_other (h : c.Stands other asked)
    (hreceive : c.receive? client = some (reply, c')) (hne : other ≠ client) :
    c'.Stands other asked := by
  obtain ⟨rest, rfl, _, hothers⟩ := receive?_spec hreceive
  have hreplies := hothers other hne
  unfold Stands
  rw [hreplies]
  exact h

/-- The request of a client that is served next is the one that the client has asked for. -/
theorem Stands.asked_of_mem (h : c.Stands client asked) (hmem : (client, r) ∈ c.queue) :
    asked = some r := by
  have hrequest : r ∈ c.requestsOf client := mem_ofClient.mpr hmem
  cases asked with
  | none =>
    rw [h.1] at hrequest
    cases hrequest
  | some s =>
    rcases h with ⟨hwaits, _⟩ | ⟨hwaits, _⟩
    · rw [hwaits, List.mem_singleton] at hrequest
      rw [hrequest]
    · rw [hwaits] at hrequest
      cases hrequest

/-- A client has no reply while a request of its waits. -/
theorem Stands.replies_of_mem (h : c.Stands client asked) (hmem : (client, r) ∈ c.queue) :
    c.repliesTo client = [] := by
  have hrequest : r ∈ c.requestsOf client := mem_ofClient.mpr hmem
  cases asked with
  | none => exact h.2
  | some s =>
    rcases h with ⟨_, hreplies⟩ | ⟨hwaits, _⟩
    · exact hreplies
    · rw [hwaits] at hrequest
      cases hrequest

/-- A client that has asked can take the reply once all requests are served. -/
theorem Stands.exists_receive? (h : c.Stands client (some r)) (served : c.queue = []) :
    ∃ reply c', c.receive? client = some (reply, c') := by
  rcases h with ⟨hwaits, _⟩ | ⟨_, reply, hreplies, _⟩
  · rw [requestsOf, served] at hwaits
    cases hwaits
  · refine Cache.exists_receive? ?_
    rw [hreplies]
    exact List.cons_ne_nil _ _

end Cache

end CoverageReplay
