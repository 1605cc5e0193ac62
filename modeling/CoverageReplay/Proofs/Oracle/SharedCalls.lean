import CoverageReplay.Proofs.Cache.Traffic
import CoverageReplay.Proofs.Oracle.Inquiry

/-!
# Calls that share a cache

Any number of calls ask for profiles through one cache, in any order of moves, and nothing else uses
the cache. Whatever the cache has under a key, some call has got from the oracle for a test with
that key. So a call comes to what the oracle says of its own test, or to the profile of a test with
the same key that another call asks for (`answers_of_runs`). The second case does occur, since two
tests of different packages may have the same key (`answers_not_own`).
-/

namespace CoverageReplay

/-- A call for the profile of a test. -/
structure ProfileCall where
  inquiry : Inquiry
  /-- The place of the request whose reply the call waits for. -/
  waits : Option Nat

/-- Calls for profiles, and the cache that they share. -/
structure SharedCalls where
  traffic : CacheTraffic Payload
  calls : List ProfileCall

/-- What can happen to calls. -/
inductive CallMove where
  /-- Somebody calls for the profile of a test. -/
  | ask (package test : String)
  /-- A call puts what it wants of the cache into the queue. -/
  | send (n : Nat)
  | serve
  /-- A call takes the reply that it waits for. -/
  | receive (n : Nat)
  /-- The oracle answers a call. -/
  | consult (n : Nat)
  deriving DecidableEq, Repr, Inhabited

namespace SharedCalls

/-- No calls yet, and a cache without profiles. -/
def empty (depth : Nat) : SharedCalls := ⟨.spawn "profiles" depth, []⟩

/-- A call puts what it wants of the cache into the queue. -/
def send? (s : SharedCalls) (n : Nat) : Option SharedCalls := do
  let call ← s.calls[n]?
  let r ← call.inquiry.request?
  if call.waits.isSome then none
  else
    let traffic ← s.traffic.send? n r
    return ⟨traffic, s.calls.set n { call with waits := some s.traffic.requests.length }⟩

/-- A call takes the reply that it waits for. -/
def receive? (s : SharedCalls) (n : Nat) : Option SharedCalls := do
  let call ← s.calls[n]?
  let place ← call.waits
  let (reply, traffic) ← s.traffic.receive? place
  return ⟨traffic, s.calls.set n ⟨call.inquiry.onReply s.traffic.cache reply, none⟩⟩

/-- The oracle answers a call. -/
def consult? (oracle : CoverageOracle) (s : SharedCalls) (n : Nat) : Option SharedCalls := do
  let call ← s.calls[n]?
  match call.inquiry.stage with
  | .consulting =>
    let outcome := oracle call.inquiry.package call.inquiry.test
    return { s with calls := s.calls.set n { call with inquiry := call.inquiry.onOutcome outcome } }
  | _ => none

/-- What a move does, if it is possible. -/
def step? (oracle : CoverageOracle) (s : SharedCalls) : CallMove → Option SharedCalls
  | .ask package test => some { s with calls := s.calls ++ [⟨.begin package test, none⟩] }
  | .send n => s.send? n
  | .serve => s.traffic.serve?.map fun traffic => { s with traffic }
  | .receive n => s.receive? n
  | .consult n => s.consult? oracle n

/-- What some moves do, one after the other, if all are possible. -/
def run? (oracle : CoverageOracle) (s : SharedCalls) : List CallMove → Option SharedCalls
  | [] => some s
  | m :: rest => (s.step? oracle m).bind (run? oracle · rest)

/-- Whether a call asks for a test. -/
def Asks (s : SharedCalls) (package test : String) : Prop :=
  ∃ call ∈ s.calls, call.inquiry.package = package ∧ call.inquiry.test = test

/-- Whether the oracle has a profile for a test with a certain key that some call asks for. -/
def Knows (oracle : CoverageOracle) (s : SharedCalls) (key : String) (p : Profile) : Prop :=
  ∃ package test, s.Asks package test ∧ Inquiry.cacheKey package test = key ∧
    oracle package test = .answer (.ok p)

/-- Whether an inquiry has learnt nothing but what the oracle knows of its own test or of one with
its key. -/
def Learnt (oracle : CoverageOracle) (s : SharedCalls) (i : Inquiry) : Prop :=
  i.Honest oracle ∨ ∃ p, i.stage = .done (.answer (.ok p)) ∧ s.Knows oracle i.key p

/-- Whether all that calls have learnt, and all that they put into the cache, comes from the
oracle. -/
structure Grounded (oracle : CoverageOracle) (s : SharedCalls) : Prop where
  ordered : ∃ n, s.traffic.Ordered n
  written : ∀ key payload, .write key payload ∈ s.traffic.requests →
    ∃ p, payload = .profile p ∧ s.Knows oracle key p
  learnt : ∀ call ∈ s.calls, s.Learnt oracle call.inquiry
  asked : ∀ call ∈ s.calls, ∀ place, call.waits = some place →
    ∃ r, call.inquiry.request? = some r ∧ s.traffic.requests[place]? = some r

variable {oracle : CoverageOracle} {s s' : SharedCalls} {m : CallMove} {moves : List CallMove}
  {key : String} {p : Profile} {i : Inquiry}

/-! ## Calls that go on -/

/-- What is known stays known while the calls go on asking. -/
theorem Knows.mono (h : s.Knows oracle key p)
    (asks : ∀ package test, s.Asks package test → s'.Asks package test) :
    s'.Knows oracle key p := by
  obtain ⟨package, test, hasks, hkey, hp⟩ := h
  exact ⟨package, test, asks package test hasks, hkey, hp⟩

/-- An inquiry that is about to keep a profile has it from the oracle. -/
theorem Learnt.of_keeping (h : s.Learnt oracle i) (stage : i.stage = .keeping p) :
    oracle i.package i.test = .answer (.ok p) := by
  rcases h with honest | ⟨p', hstage, _⟩
  · unfold Inquiry.Honest at honest
    rw [stage] at honest
    exact honest
  · rw [stage] at hstage
    cases hstage

/-- What has been learnt stays learnt while the calls go on asking. -/
theorem Learnt.mono (h : s.Learnt oracle i)
    (asks : ∀ package test, s.Asks package test → s'.Asks package test) : s'.Learnt oracle i := by
  rcases h with honest | ⟨p, hstage, hknows⟩
  · exact Or.inl honest
  · exact Or.inr ⟨p, hstage, hknows.mono asks⟩

/-- A call that goes on asks for the same test. -/
theorem asks_set {n : Nat} {call call' : ProfileCall} (before : s.calls[n]? = some call)
    (after : s'.calls = s.calls.set n call')
    (package : call'.inquiry.package = call.inquiry.package)
    (test : call'.inquiry.test = call.inquiry.test) :
    ∀ package test, s.Asks package test → s'.Asks package test := by
  rintro _ _ ⟨other, hother, rfl, rfl⟩
  obtain ⟨k, hk⟩ := List.mem_iff_getElem?.mp hother
  by_cases hsame : n = k
  · subst hsame
    rw [before] at hk
    cases hk
    have hlt := (List.getElem?_eq_some_iff.mp before).1
    have hmem : call' ∈ s'.calls :=
      after ▸ List.mem_of_getElem? (List.getElem?_set_self hlt)
    exact ⟨call', hmem, package, test⟩
  · have hmem : other ∈ s'.calls :=
      after ▸ List.mem_of_getElem? ((List.getElem?_set_ne hsame).trans hk)
    exact ⟨other, hmem, rfl, rfl⟩

/-! ## What calls learn -/

namespace Grounded

/-- What a call keeps it has from the oracle. -/
theorem knows_of_write {call : ProfileCall} {payload : Payload} (h : s.Grounded oracle)
    (mem : call ∈ s.calls) (wants : call.inquiry.request? = some (.write key payload)) :
    ∃ p, payload = .profile p ∧ s.Knows oracle key p := by
  unfold Inquiry.request? at wants
  cases hstage : call.inquiry.stage with
  | looking | consulting | done =>
    rw [hstage] at wants
    cases wants
  | keeping p =>
    rw [hstage] at wants
    cases wants
    exact ⟨p, rfl, _, _, ⟨call, mem, rfl, rfl⟩, rfl, (h.learnt call mem).of_keeping hstage⟩

/-- What a call reads is what some call has kept under the key. -/
theorem knows_of_found {place : Nat} {payload : Payload} {traffic : CacheTraffic Payload}
    (h : s.Grounded oracle) (reads : s.traffic.requests[place]? = some (.read key))
    (receives : s.traffic.receive? place = some (.found (some payload), traffic)) :
    ∃ p, payload = .profile p ∧ s.Knows oracle key p := by
  obtain ⟨n, hordered⟩ := h.ordered
  obtain ⟨hsent, htaken, _⟩ := CacheTraffic.receive?_spec receives
  have hrequests : traffic.requests = s.traffic.requests := by
    rw [CacheTraffic.requests, hsent, CacheTraffic.requests]
  have hmem : (place, .found (some payload)) ∈ traffic.taken :=
    htaken ▸ List.mem_append_right _ List.mem_cons_self
  obtain ⟨_, r, hr, hreply⟩ := (hordered.receive receives).reply_of_taken hmem
  rw [hrequests, reads] at hr
  cases hr
  injection hreply with hlast
  obtain ⟨last, hwrite, _⟩ := exists_write_of_lastWritten hlast.symm
  exact h.written key payload
    (hrequests ▸ List.mem_of_mem_take (List.mem_of_getElem? hwrite))

/-- A reply of the cache leaves a call with what the oracle knows. -/
theorem learnt_onReply {call : ProfileCall} {place : Nat} {reply : CacheReply Payload}
    {traffic : CacheTraffic Payload} (h : s.Grounded oracle) (mem : call ∈ s.calls)
    (waits : call.waits = some place)
    (receives : s.traffic.receive? place = some (reply, traffic)) :
    s.Learnt oracle (call.inquiry.onReply s.traffic.cache reply) := by
  obtain ⟨r, hwants, hr⟩ := h.asked call mem place waits
  unfold Inquiry.onReply
  unfold Inquiry.request? at hwants
  cases hstage : call.inquiry.stage with
  | consulting | done =>
    rw [hstage] at hwants
    cases hwants
  | keeping p => exact Or.inl ((h.learnt call mem).of_keeping hstage)
  | looking =>
    rw [hstage] at hwants
    cases hwants
    -- The call learns something only where the cache has found a payload.
    cases reply with
    | stored => exact Or.inl trivial
    | size => exact Or.inl trivial
    | found payload? =>
      cases payload? with
      | none => exact Or.inl trivial
      | some payload =>
        obtain ⟨p, rfl, hknows⟩ := h.knows_of_found hr receives
        exact Or.inr ⟨p, rfl, hknows⟩

/-! ## Runs -/

/-- A new call has learnt nothing yet. -/
theorem ask (h : s.Grounded oracle) (package test : String) :
    ({ s with calls := s.calls ++ [⟨.begin package test, none⟩] } : SharedCalls).Grounded
      oracle := by
  have hasks : ∀ package' test', s.Asks package' test' →
      ({ s with calls := s.calls ++ [⟨.begin package test, none⟩] } : SharedCalls).Asks
        package' test' := by
    rintro _ _ ⟨call, hcall, hpackage, htest⟩
    exact ⟨call, List.mem_append_left _ hcall, hpackage, htest⟩
  -- The new call has neither asked nor learnt anything.
  constructor
  case ordered => exact h.ordered
  case written =>
    intro key payload hmem
    obtain ⟨p, hpayload, hknows⟩ := h.written key payload hmem
    exact ⟨p, hpayload, hknows.mono hasks⟩
  case learnt =>
    intro call hcall
    rcases List.mem_append.mp hcall with hold | hnew
    · exact (h.learnt call hold).mono hasks
    · rw [List.mem_singleton.mp hnew]
      exact Or.inl trivial
  case asked =>
    intro call hcall place hwaits
    rcases List.mem_append.mp hcall with hold | hnew
    · exact h.asked call hold place hwaits
    · rw [List.mem_singleton.mp hnew] at hwaits
      cases hwaits

/-- What is left to show of a move that takes one call on. -/
theorem goOn {n k : Nat} {call call' : ProfileCall} (h : s.Grounded oracle)
    (before : s.calls[n]? = some call) (after : s'.calls = s.calls.set n call')
    (same : call'.inquiry.package = call.inquiry.package ∧ call'.inquiry.test = call.inquiry.test)
    (ordered : s'.traffic.Ordered k) (learnt : s.Learnt oracle call'.inquiry)
    (requests : ∀ r ∈ s'.traffic.requests, r ∈ s.traffic.requests ∨ call.inquiry.request? = some r)
    (kept : s.traffic.requests <+: s'.traffic.requests)
    (asked : ∀ place, call'.waits = some place →
      ∃ r, call'.inquiry.request? = some r ∧ s'.traffic.requests[place]? = some r) :
    s'.Grounded oracle := by
  have hasks := asks_set before after same.1 same.2
  have hmem := List.mem_of_getElem? before
  constructor
  case ordered => exact ⟨k, ordered⟩
  case written =>
    intro key payload hwrite
    -- What is written was written before, or it is what this call has learnt.
    rcases requests _ hwrite with hold | hnew
    · obtain ⟨p, hpayload, hknows⟩ := h.written key payload hold
      exact ⟨p, hpayload, hknows.mono hasks⟩
    · obtain ⟨p, hpayload, hknows⟩ := h.knows_of_write hmem hnew
      exact ⟨p, hpayload, hknows.mono hasks⟩
  case learnt =>
    intro other hother
    rw [after] at hother
    rcases List.mem_or_eq_of_mem_set hother with hold | rfl
    · exact (h.learnt other hold).mono hasks
    · exact learnt.mono hasks
  case asked =>
    intro other hother place hwaits
    rw [after] at hother
    rcases List.mem_or_eq_of_mem_set hother with hold | rfl
    · obtain ⟨r, hwants, hr⟩ := h.asked other hold place hwaits
      obtain ⟨more, hmore⟩ := kept
      have hlt := (List.getElem?_eq_some_iff.mp hr).1
      exact ⟨r, hwants, by rw [← hmore, List.getElem?_append_left hlt, hr]⟩
    · exact asked place hwaits

/-- A call that sends a request for its inquiry writes what the oracle knows, if anything. -/
theorem send {n : Nat} (h : s.Grounded oracle) (hsend : s.send? n = some s') :
    s'.Grounded oracle := by
  obtain ⟨k, hordered⟩ := h.ordered
  obtain ⟨call, hcall, hsend⟩ := Option.bind_eq_some_iff.mp hsend
  obtain ⟨r, hwants, hsend⟩ := Option.bind_eq_some_iff.mp hsend
  split at hsend
  next => cases hsend
  next =>
    obtain ⟨traffic, htraffic, heq⟩ := Option.bind_eq_some_iff.mp hsend
    cases heq
    obtain ⟨hrequests, _⟩ := CacheTraffic.send?_spec htraffic
    refine h.goOn hcall rfl ⟨rfl, rfl⟩ (hordered.send htraffic)
      (h.learnt call (List.mem_of_getElem? hcall))
      (fun r' hr' => ?_) ⟨[r], hrequests.symm⟩ fun place hwaits => ?_
    · rw [hrequests, List.mem_append, List.mem_singleton] at hr'
      rcases hr' with hold | rfl
      · exact Or.inl hold
      · exact Or.inr hwants
    · cases hwaits
      exact ⟨r, hwants, by rw [hrequests, List.getElem?_concat_length]⟩

/-- A call learns from a reply what the cache keeps. -/
theorem receive {n : Nat} (h : s.Grounded oracle) (hreceive : s.receive? n = some s') :
    s'.Grounded oracle := by
  obtain ⟨k, hordered⟩ := h.ordered
  obtain ⟨call, hcall, hreceive⟩ := Option.bind_eq_some_iff.mp hreceive
  obtain ⟨place, hwaits, hreceive⟩ := Option.bind_eq_some_iff.mp hreceive
  obtain ⟨⟨reply, traffic⟩, htraffic, heq⟩ := Option.bind_eq_some_iff.mp hreceive
  cases heq
  have hrequests : traffic.requests = s.traffic.requests := by
    rw [CacheTraffic.requests, (CacheTraffic.receive?_spec htraffic).1, CacheTraffic.requests]
  refine h.goOn hcall rfl (Inquiry.onReply_package _ _ _) (hordered.receive htraffic)
    (h.learnt_onReply (List.mem_of_getElem? hcall) hwaits htraffic) (fun r hr =>
      ?_) ?_ fun place hwaiting => ?_
  · exact Or.inl (hrequests ▸ hr)
  · rw [hrequests]
  · cases hwaiting

/-- A call learns from the oracle what the oracle knows. -/
theorem consult {n : Nat} (h : s.Grounded oracle) (hconsult : s.consult? oracle n = some s') :
    s'.Grounded oracle := by
  obtain ⟨k, hordered⟩ := h.ordered
  obtain ⟨call, hcall, hconsult⟩ := Option.bind_eq_some_iff.mp hconsult
  split at hconsult
  next hstage =>
    cases hconsult
    refine h.goOn hcall rfl (Inquiry.onOutcome_package _ _) hordered
      (Or.inl (Inquiry.honest_onOutcome _))
      (fun r hr => Or.inl hr) (List.prefix_refl _) fun place hwaits => ?_
    -- A call that consults the oracle does not wait for the cache.
    obtain ⟨r, hwants, _⟩ := h.asked call (List.mem_of_getElem? hcall) place hwaits
    rw [Inquiry.request?, hstage] at hwants
    cases hwants
  next => cases hconsult

/-- After each move all that calls have learnt comes from the oracle. -/
theorem step (h : s.Grounded oracle) (hstep : s.step? oracle m = some s') : s'.Grounded oracle := by
  cases m with
  | ask package test =>
    cases hstep
    exact h.ask package test
  | send n => exact h.send hstep
  | serve =>
    obtain ⟨traffic, hserve, heq⟩ := Option.map_eq_some_iff.mp hstep
    cases heq
    obtain ⟨k, hordered⟩ := h.ordered
    -- Serving takes a request off the queue but keeps it in the record of requests.
    have hrequests : traffic.requests = s.traffic.requests := by
      rw [CacheTraffic.requests, (CacheTraffic.serve?_spec hserve).1, CacheTraffic.requests]
    constructor
    case ordered => exact ⟨k + 1, hordered.serve hserve⟩
    case written => exact fun key payload hmem => h.written key payload (hrequests ▸ hmem)
    case learnt => exact h.learnt
    case asked =>
      intro call hcall place hwaits
      show ∃ r, call.inquiry.request? = some r ∧ traffic.requests[place]? = some r
      rw [hrequests]
      exact h.asked call hcall place hwaits
  | receive n => exact h.receive hstep
  | consult n => exact h.consult hstep

theorem run (h : s.Grounded oracle) (run : s.run? oracle moves = some s') : s'.Grounded oracle := by
  induction moves generalizing s with
  | nil =>
    cases run
    exact h
  | cons m rest ih =>
    obtain ⟨s₁, hstep, hrest⟩ := Option.bind_eq_some_iff.mp run
    exact ih (h.step hstep) hrest

end Grounded

/-- With an empty cache and no calls nothing has been learnt. -/
theorem grounded_empty (depth : Nat) : (empty depth).Grounded oracle where
  ordered := ⟨0, CacheTraffic.ordered_spawn _ _⟩
  written := fun _ _ hmem => nomatch hmem
  learnt := fun _ hcall => nomatch hcall
  asked := fun _ hcall => nomatch hcall

/-- An inquiry that has its outcome is done. -/
theorem stage_of_outcome? {outcome : OracleOutcome} (h : i.outcome? = some outcome) :
    i.stage = .done outcome := by
  unfold Inquiry.outcome? at h
  split at h
  next hstage =>
    cases h
    exact hstage
  next => cases h

/-- However calls share a cache that was empty, each comes to what the oracle says of its own test,
or to the profile that it has for a test with the same key that another call asks for. So each call
comes to what the oracle says of its own test as long as no other test with its key is asked for. -/
theorem answers_of_runs {depth : Nat} (run : (empty depth).run? oracle moves = some s) :
    ∀ call ∈ s.calls, ∀ outcome, call.inquiry.outcome? = some outcome →
      (outcome = oracle call.inquiry.package call.inquiry.test ∨
        ∃ other ∈ s.calls, ∃ p, outcome = .answer (.ok p) ∧ other.inquiry.key = call.inquiry.key ∧
          oracle other.inquiry.package other.inquiry.test = .answer (.ok p)) ∧
      ((∀ other ∈ s.calls, other.inquiry.key = call.inquiry.key →
          other.inquiry.package = call.inquiry.package ∧ other.inquiry.test = call.inquiry.test) →
        outcome = oracle call.inquiry.package call.inquiry.test) := by
  intro call hcall outcome houtcome
  have hstage := stage_of_outcome? houtcome
  rcases (Grounded.run (grounded_empty depth) run).learnt call hcall with honest | ⟨p, hp, hknows⟩
  · unfold Inquiry.Honest at honest
    rw [hstage] at honest
    exact ⟨Or.inl honest.symm, fun _ => honest.symm⟩
  · rw [hstage] at hp
    cases hp
    obtain ⟨_, _, ⟨other, hother, rfl, rfl⟩, hkey, hknown⟩ := hknows
    refine ⟨Or.inr ⟨other, hother, p, rfl, hkey, hknown⟩, fun apart => ?_⟩
    obtain ⟨hpackage, htest⟩ := apart other hother hkey
    rw [← hknown, hpackage, htest]

/-- A call from its request to the taking of the reply. -/
def exchange (n : Nat) : List CallMove := [.send n, .serve, .receive n]

/-- A call that finds nothing, consults the oracle and keeps its profile. -/
def firstCall (n : Nat) (package test : String) : List CallMove :=
  [.ask package test] ++ exchange n ++ [.consult n] ++ exchange n

/-- A profile of one block with some statements. -/
def blockOf (statements : UInt32) : Profile := ⟨.set, [⟨"f.rs", ⟨⟨1, 1⟩, ⟨2, 1⟩⟩, statements, 1⟩]⟩

/-- Profiles of two tests with the same key. -/
def sameKey : CoverageOracle :=
  recordedOracle [(("pkg-x", "y"), .profile (blockOf 4)), (("pkg", "x-y"), .profile (blockOf 1))]

/-- Test `y` of package `pkg-x` is asked for, then test `x-y` of package `pkg`. -/
def sameKeyCalls : List CallMove := firstCall 0 "pkg-x" "y" ++ [.ask "pkg" "x-y"] ++ exchange 1

/-- The second call finds what the first one has kept. -/
theorem exists_sameKey : ∃ s call, (empty 64).run? sameKey sameKeyCalls = some s ∧ call ∈ s.calls ∧
    call.inquiry.package = "pkg" ∧ call.inquiry.test = "x-y" ∧
    call.inquiry.outcome? = some (.answer (.ok (blockOf 4))) := by
  have hcalls : ((empty 64).run? sameKey sameKeyCalls).map (fun s => s.calls.map (·.inquiry)) =
      some [⟨"pkg-x", "y", .done (.answer (.ok (blockOf 4)))⟩,
        ⟨"pkg", "x-y", .done (.answer (.ok (blockOf 4)))⟩] := by rfl
  obtain ⟨s, hrun, hinquiries⟩ := Option.map_eq_some_iff.mp hcalls
  have hmem : ⟨"pkg", "x-y", .done (.answer (.ok (blockOf 4)))⟩ ∈ s.calls.map (·.inquiry) := by
    rw [hinquiries]
    exact List.mem_cons_of_mem _ List.mem_cons_self
  obtain ⟨call, hcall, heq⟩ := List.mem_map.mp hmem
  exact ⟨s, call, hrun, hcall, by rw [heq], by rw [heq], by rw [heq]; rfl⟩

/-- The second call does not come to the profile of its own test, but the test of the first one has
its key. -/
theorem answers_of_runs_sameKey : ∃ s, (empty 64).run? sameKey sameKeyCalls = some s ∧
    ∃ call ∈ s.calls, call.inquiry.outcome? = some (.answer (.ok (blockOf 4))) ∧
      (OracleOutcome.answer (.ok (blockOf 4)) = sameKey call.inquiry.package call.inquiry.test ∨
        ∃ other ∈ s.calls, ∃ p, OracleOutcome.answer (.ok (blockOf 4)) = .answer (.ok p) ∧
          other.inquiry.key = call.inquiry.key ∧
          sameKey other.inquiry.package other.inquiry.test = .answer (.ok p)) := by
  obtain ⟨s, call, hrun, hcall, _, _, houtcome⟩ := exists_sameKey
  exact ⟨s, hrun, call, hcall, houtcome, (answers_of_runs hrun call hcall _ houtcome).1⟩

/-- Not every call comes to what the oracle says of its own test. -/
theorem answers_not_own :
    ¬ ∀ (oracle : CoverageOracle) (depth : Nat) (moves : List CallMove) (s : SharedCalls),
      (empty depth).run? oracle moves = some s → ∀ call ∈ s.calls, ∀ outcome,
        call.inquiry.outcome? = some outcome →
          outcome = oracle call.inquiry.package call.inquiry.test := by
  intro hown
  obtain ⟨s, call, hrun, hcall, hpackage, htest, houtcome⟩ := exists_sameKey
  have hanswer := hown sameKey 64 sameKeyCalls s hrun call hcall _ houtcome
  rw [hpackage, htest] at hanswer
  have hprofile : OracleOutcome.answer (.ok (blockOf 4)) = .answer (.ok (blockOf 1)) :=
    hanswer.trans (by rfl)
  injection hprofile with hprofile
  injection hprofile with hprofile
  exact absurd hprofile (by decide)

end SharedCalls

end CoverageReplay
