import CoverageReplay.Error
import CoverageReplay.SortedMap

/-!
# Caches that answer requests

A cache keeps a map of payloads to itself. Clients put requests into its queue, which has few
places, and the cache serves them one at a time in the order in which they came. A reply waits until
its client takes it. So the replies are those of applying the requests one by one to a plain map
(`CacheRequest.apply`), whatever clients do in between.

`send?`, `serve?` and `receive?` are the three steps; each is `none` when it is not possible. `call`
takes all three at once.
-/

namespace CoverageReplay

/-- What a cache can be asked. -/
inductive CacheRequest (π : Type) where
  | read (key : String)
  | write (key : String) (payload : π)
  /-- How many keys have a payload. -/
  | size
  deriving DecidableEq, Repr, Inhabited

/-- What a cache answers. -/
inductive CacheReply (π : Type) where
  | found (payload : Option π)
  | stored
  | size (n : Nat)
  deriving DecidableEq, Repr, Inhabited

/-- The reply to a request, and the map after it. -/
def CacheRequest.apply {π : Type} (store : SortedMap String π) :
    CacheRequest π → CacheReply π × SortedMap String π
  | .read key => (.found (store.get? key), store)
  | .write key payload => (.stored, store.insert key payload)
  | .size => (.size store.size, store)

/-- Tells the clients of a cache apart. -/
abbrev Client := Nat

/-- A cache with the requests that wait for it and the replies that wait for their clients. -/
structure Cache (π : Type) where
  name : String
  /-- The places in the queue. -/
  depth : Nat
  /-- Whether the cache still serves. -/
  running : Bool
  store : SortedMap String π
  queue : List (Client × CacheRequest π)
  replies : List (Client × CacheReply π)
  deriving DecidableEq, Repr, Inhabited

namespace Cache

variable {π α : Type}

/-- A cache without payloads. Its queue has at least one place. -/
def spawn (name : String) (depth : Nat) : Cache π :=
  ⟨name, max depth 1, true, .empty, [], []⟩

/-- The error of a request to a cache that no longer serves. -/
def closed (c : Cache π) : ReplayError := .cacheClosed c.name

/-- A client puts a request into the queue. -/
def send? (c : Cache π) (client : Client) (r : CacheRequest π) : Option (Cache π) :=
  if c.running && c.queue.length < c.depth then some { c with queue := c.queue ++ [(client, r)] }
  else none

/-- The cache serves the request that has waited longest. -/
def serve? (c : Cache π) : Option (Cache π) :=
  match c.running, c.queue with
  | true, (client, r) :: waiting =>
    let (reply, store) := r.apply c.store
    some { c with store, queue := waiting, replies := c.replies ++ [(client, reply)] }
  | _, _ => none

/-- Takes the first reply to a client out of some replies. -/
def takeReply (client : Client) :
    List (Client × CacheReply π) → Option (CacheReply π × List (Client × CacheReply π))
  | [] => none
  | (other, reply) :: rest =>
    if other = client then some (reply, rest)
    else (takeReply client rest).map fun (found, rest) => (found, (other, reply) :: rest)

/-- A client takes the reply to its request. -/
def receive? (c : Cache π) (client : Client) : Option (CacheReply π × Cache π) :=
  (takeReply client c.replies).map fun (reply, replies) => (reply, { c with replies })

/-- The cache serves no more. -/
def stop (c : Cache π) : Cache π := { c with running := false, queue := [] }

/-- A request from sending it to taking the reply. -/
def call (c : Cache π) (client : Client) (r : CacheRequest π) :
    Except ReplayError (CacheReply π × Cache π) :=
  match ((c.send? client r).bind serve?).bind (receive? · client) with
  | some done => .ok done
  | none => .error c.closed

/-- The payload of a reply seen as an `α`. A payload that is none is an error of the client that
asked for `key`. -/
def typed (c : Cache π) (view : π → Option α) (key : String) :
    CacheReply π → Except ReplayError (Option α)
  | .found (some payload) =>
    match view payload with
    | some a => .ok (some a)
    | none => .error (.cacheProtocol c.name key)
  | _ => .ok none

end Cache

end CoverageReplay
