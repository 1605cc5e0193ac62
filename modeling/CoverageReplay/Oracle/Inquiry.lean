import CoverageReplay.Cache
import CoverageReplay.Job.Status
import CoverageReplay.Oracle.Basic

/-!
# Asking once

An inquiry asks for a profile through a cache: it looks the profile up, consults the oracle when the
cache has none, and keeps the answer. Only profiles are kept, so a failure is asked for again the
next time.

An inquiry is a small machine, since several may be under way on one cache. `askThroughCache` runs
one from start to end.
-/

namespace CoverageReplay

/-- What caches keep. -/
inductive Payload where
  | number (n : UInt32)
  | text (s : String)
  | profile (p : Profile)
  | status (s : JobStatus)
  deriving Inhabited

namespace Payload

/-- The payload seen as a number. -/
def number? : Payload → Option UInt32
  | number n => some n
  | _ => none

/-- The payload seen as a text. -/
def text? : Payload → Option String
  | text s => some s
  | _ => none

/-- The payload seen as a profile. -/
def profile? : Payload → Option Profile
  | profile p => some p
  | _ => none

/-- The payload seen as a status. -/
def status? : Payload → Option JobStatus
  | status s => some s
  | _ => none

end Payload

/-- How far an inquiry has come. -/
inductive InquiryStage where
  /-- Looks the profile up. -/
  | looking
  /-- Consults the oracle. -/
  | consulting
  /-- Keeps the oracle's profile. -/
  | keeping (p : Profile)
  | done (outcome : OracleOutcome)
  deriving Inhabited

/-- Asks for the profile of a test through a cache. -/
structure Inquiry where
  package : String
  test : String
  stage : InquiryStage
  deriving Inhabited

namespace Inquiry

/-- The key of a test in the cache of profiles. -/
def cacheKey (package test : String) : String := package ++ "-" ++ test

/-- An inquiry that has done nothing yet. -/
def begin (package test : String) : Inquiry := ⟨package, test, .looking⟩

/-- The key of the inquiry. -/
def key (i : Inquiry) : String := cacheKey i.package i.test

/-- What the inquiry wants of the cache. -/
def request? (i : Inquiry) : Option (CacheRequest Payload) :=
  match i.stage with
  | .looking => some (.read i.key)
  | .keeping p => some (.write i.key (.profile p))
  | _ => none

/-- The inquiry after a reply of the cache. -/
def onReply (i : Inquiry) (cache : Cache Payload) (reply : CacheReply Payload) : Inquiry :=
  match i.stage with
  | .looking =>
    match cache.typed Payload.profile? i.key reply with
    | .ok (some p) => { i with stage := .done (.answer (.ok p)) }
    | .ok none => { i with stage := .consulting }
    | .error e => { i with stage := .done (.answer (.error e)) }
  | .keeping p => { i with stage := .done (.answer (.ok p)) }
  | _ => i

/-- The inquiry after the oracle has spoken. -/
def onOutcome (i : Inquiry) : OracleOutcome → Inquiry
  | .answer (.ok p) => { i with stage := .keeping p }
  | other => { i with stage := .done other }

/-- The inquiry after a call to the cache, if it wants one. -/
def callCache (i : Inquiry) (cache : Cache Payload) (client : Client) : Inquiry × Cache Payload :=
  match i.request? with
  | none => (i, cache)
  | some r =>
    match cache.call client r with
    | .ok (reply, next) => (i.onReply cache reply, next)
    | .error e => ({ i with stage := .done (.answer (.error e)) }, cache)

/-- The outcome of an inquiry that is done. -/
def outcome? (i : Inquiry) : Option OracleOutcome :=
  match i.stage with
  | .done outcome => some outcome
  | _ => none

end Inquiry

/-- What comes of asking for a profile through a cache, how often the oracle was consulted for it,
and the cache after it. -/
structure CachedAnswer where
  outcome : OracleOutcome
  consulted : Nat
  cache : Cache Payload

/-- Asks for a profile through a cache, from start to end. -/
def askThroughCache (oracle : CoverageOracle) (cache : Cache Payload) (package test : String) :
    CachedAnswer :=
  let (looked, cache) := (Inquiry.begin package test).callCache cache 0
  match looked.stage with
  | .done outcome => ⟨outcome, 0, cache⟩
  | _ =>
    let outcome := oracle package test
    let (kept, cache) := (looked.onOutcome outcome).callCache cache 0
    ⟨kept.outcome?.getD outcome, 1, cache⟩

end CoverageReplay
