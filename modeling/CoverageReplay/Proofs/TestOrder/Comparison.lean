import CoverageReplay.TestOrder.Greedy
import Mathlib.Algebra.Order.Group.Int
import Mathlib.Data.Prod.Lex

/-!
# Scores that can be compared

A float that is not a number is neither less nor greater than any other. All others stand in one
line (`level?`), and one is less than another exactly if its level is (`score_lt_iff_level`). So the
strict comparison of scores is transitive (`score_lt_trans`), and a score that is not less than a
second one is at least as far up, if it can be compared at all (`score_lt_of_not_lt`).
-/

namespace CoverageReplay

open Float.Model (UnpackedFloat)
open Float.Model.UnpackedFloat (Sign)

/-- Where a float stands among those that can be compared: its class, from negative to positive
infinity, then its exponent, then its significand, the latter two turned around below zero. -/
def level? : UnpackedFloat → Option (Int ×ₗ Int ×ₗ Int)
  | .notANumber => none
  | .infinity .negative => some (toLex (-2, toLex (0, 0)))
  | .finite .negative m e _ => some (toLex (-1, toLex (-e, -m)))
  | .zero _ => some (toLex (0, toLex (0, 0)))
  | .finite .positive m e _ => some (toLex (1, toLex (e, m)))
  | .infinity .positive => some (toLex (2, toLex (0, 0)))

/-- Infinities are compared by their signs. -/
theorem infinity_lt_iff {s : Sign} {y : UnpackedFloat} :
    (UnpackedFloat.infinity s).lt y ↔ ∃ a ∈ level? (.infinity s), ∃ b ∈ level? y, a < b := by
  unfold UnpackedFloat.lt UnpackedFloat.compare level?
  cases s with
  | negative | positive =>
    cases y with
    | notANumber | zero => simp [Prod.Lex.toLex_lt_toLex]
    | infinity s' =>
      cases s' with
      | negative | positive => simp [compare, Prod.Lex.toLex_lt_toLex]
    | finite s' m' e' =>
      cases s' with
      | negative | positive => simp [Prod.Lex.toLex_lt_toLex]

/-- Zero is compared by the sign of the other float. -/
theorem zero_lt_iff {s : Sign} {y : UnpackedFloat} :
    (UnpackedFloat.zero s).lt y ↔ ∃ a ∈ level? (.zero s), ∃ b ∈ level? y, a < b := by
  unfold UnpackedFloat.lt UnpackedFloat.compare level?
  cases y with
  | notANumber | zero => simp
  | infinity s' | finite s' =>
    cases s' with
    | negative | positive => simp [Prod.Lex.toLex_lt_toLex]

/-- Below zero the number with the greater exponent is less, then the one with the greater
significand. -/
theorem negative_lt_iff {m : Nat} {e : Int} {pos : 0 < m} {y : UnpackedFloat} :
    (UnpackedFloat.finite .negative m e pos).lt y ↔
      ∃ a ∈ level? (.finite .negative m e pos), ∃ b ∈ level? y, a < b := by
  unfold UnpackedFloat.lt UnpackedFloat.compare level?
  cases y with
  | notANumber | zero => simp [Prod.Lex.toLex_lt_toLex]
  | infinity s' =>
    cases s' with
    | negative | positive => simp [Prod.Lex.toLex_lt_toLex]
  | finite s' m' e' =>
    cases s' with
    | negative =>
      -- Of the same sign, the exponents are compared first, both the other way around.
      simp [Prod.Lex.toLex_lt_toLex, Ordering.swap_eq_lt, Ordering.then_eq_gt, Int.compare_eq_gt,
        Nat.compare_eq_gt]
    | positive => simp [Prod.Lex.toLex_lt_toLex]

/-- Above zero the number with the smaller exponent is less, then the one with the smaller
significand. -/
theorem positive_lt_iff {m : Nat} {e : Int} {pos : 0 < m} {y : UnpackedFloat} :
    (UnpackedFloat.finite .positive m e pos).lt y ↔
      ∃ a ∈ level? (.finite .positive m e pos), ∃ b ∈ level? y, a < b := by
  unfold UnpackedFloat.lt UnpackedFloat.compare level?
  cases y with
  | notANumber | zero => simp [Prod.Lex.toLex_lt_toLex]
  | infinity s' =>
    cases s' with
    | negative | positive => simp [Prod.Lex.toLex_lt_toLex]
  | finite s' m' e' =>
    cases s' with
    | negative => simp [Prod.Lex.toLex_lt_toLex]
    | positive =>
      simp [Prod.Lex.toLex_lt_toLex, Ordering.then_eq_lt, Int.compare_eq_lt, Nat.compare_eq_lt]

/-- A float is less than another exactly if both can be compared and its level is less. -/
theorem unpacked_lt_iff {x y : UnpackedFloat} : x.lt y ↔ ∃ a ∈ level? x, ∃ b ∈ level? y, a < b := by
  cases x with
  | notANumber =>
    unfold UnpackedFloat.lt UnpackedFloat.compare level?
    simp
  | infinity s => exact infinity_lt_iff
  | zero s => exact zero_lt_iff
  | finite s m e pos =>
    cases s with
    | negative => exact negative_lt_iff
    | positive => exact positive_lt_iff

variable {w x y z : Float}

/-- Floats are compared in their unpacked form. -/
theorem score_lt_iff_unpacked : x < y ↔ x.toModel.unpack.lt y.toModel.unpack := by
  show decide (x.toModel < y.toModel) = true ↔ _
  rw [decide_eq_true_iff]
  rfl

theorem score_lt_iff_level :
    x < y ↔ ∃ a ∈ level? x.toModel.unpack, ∃ b ∈ level? y.toModel.unpack, a < b := by
  rw [score_lt_iff_unpacked, unpacked_lt_iff]

/-- The strict comparison of scores is transitive. -/
theorem score_lt_trans (hxy : x < y) (hyz : y < z) : x < z := by
  rw [score_lt_iff_level] at hxy hyz ⊢
  obtain ⟨a, ha, b, hb, hab⟩ := hxy
  obtain ⟨b', hb', c, hc, hbc⟩ := hyz
  obtain rfl : b = b' := Option.mem_unique hb hb'
  exact ⟨a, ha, c, hc, hab.trans hbc⟩

/-- No score is less than itself. -/
theorem score_lt_irrefl (x : Float) : ¬ x < x := by
  rw [score_lt_iff_level]
  rintro ⟨a, ha, a', ha', hlt⟩
  obtain rfl : a = a' := Option.mem_unique ha ha'
  exact lt_irrefl a hlt

/-- What exceeds a score exceeds all scores that do not exceed it, if these are numbers. -/
theorem score_lt_of_not_lt (hx : w < x) (hle : ¬ y < x) (hlt : y < z) : x < z := by
  rw [score_lt_iff_level] at hx hle hlt ⊢
  obtain ⟨_, _, a, ha, _⟩ := hx
  obtain ⟨b, hb, c, hc, hbc⟩ := hlt
  have hab : a ≤ b := le_of_not_gt fun h => hle ⟨b, hb, a, ha, h⟩
  exact ⟨a, ha, c, hc, hab.trans_lt hbc⟩

end CoverageReplay
