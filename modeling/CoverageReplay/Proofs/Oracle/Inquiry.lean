import CoverageReplay.Oracle.Inquiry

/-!
# What an inquiry learns

An inquiry asks for the same test from start to end, and learns of it what the oracle or the cache
says. It stays honest (`Inquiry.Honest`) as long as the cache has nothing for the test but what the
oracle knows.
-/

namespace CoverageReplay

/-- Whether an inquiry has learnt nothing but what an oracle knows. -/
def Inquiry.Honest (oracle : CoverageOracle) (i : Inquiry) : Prop :=
  match i.stage with
  | .looking | .consulting => True
  | .keeping p => oracle i.package i.test = .answer (.ok p)
  | .done outcome => oracle i.package i.test = outcome

namespace Inquiry

variable {oracle : CoverageOracle} {i : Inquiry}

/-- The oracle answers. -/
theorem honest_onOutcome (i : Inquiry) : (i.onOutcome (oracle i.package i.test)).Honest oracle := by
  unfold onOutcome
  split
  next p houtcome => exact houtcome
  next houtcome => rfl

/-- An inquiry keeps its test when the oracle answers. -/
theorem onOutcome_package (i : Inquiry) (outcome : OracleOutcome) :
    (i.onOutcome outcome).package = i.package ∧ (i.onOutcome outcome).test = i.test := by
  unfold onOutcome
  split
  next => exact ⟨rfl, rfl⟩
  next => exact ⟨rfl, rfl⟩

/-- An inquiry keeps its test when the cache replies. -/
theorem onReply_package (i : Inquiry) (cache : Cache Payload) (reply : CacheReply Payload) :
    (i.onReply cache reply).package = i.package ∧ (i.onReply cache reply).test = i.test := by
  unfold onReply
  split
  next =>
    split
    next => exact ⟨rfl, rfl⟩
    next => exact ⟨rfl, rfl⟩
    next => exact ⟨rfl, rfl⟩
  next => exact ⟨rfl, rfl⟩
  next => exact ⟨rfl, rfl⟩

/-- A cache replies. What it has for the test must be the profile that the oracle knows. -/
theorem Honest.onReply (h : i.Honest oracle) (cache : Cache Payload) {reply : CacheReply Payload}
    (truthful : i.stage = .looking → ∀ payload, reply = .found (some payload) →
      ∃ p, payload = .profile p ∧ oracle i.package i.test = .answer (.ok p)) :
    (i.onReply cache reply).Honest oracle := by
  unfold Inquiry.onReply
  cases hstage : i.stage with
  | looking =>
    have htruthful := truthful hstage
    cases reply with
    | found payload? =>
      cases payload? with
      | none => trivial
      | some payload =>
        obtain ⟨p, rfl, hp⟩ := htruthful payload rfl
        exact hp
    | stored => trivial
    | size => trivial
  | keeping p =>
    unfold Honest at h
    rw [hstage] at h
    exact h
  | consulting | done => exact h

end Inquiry

end CoverageReplay
