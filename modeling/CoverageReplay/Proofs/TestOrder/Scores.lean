import CoverageReplay.Proofs.TestOrder.Comparison
import CoverageReplay.TestOrder.Rank
import Mathlib

/-!
# Counts as scores

A count of at most 2⁵³ is a float without rounding: `Exact` says how the float is put together, and
`exact_unpack_countScore` that a count is put together so. Floats put together so compare as the
numbers do (`Exact.score_lt_iff`), and each of them exceeds the score that the search starts from
(`Exact.leastScore_lt`).
-/

namespace CoverageReplay

open Float.Model (Format UnpackedFloat totalExponent)
open Float.Model.UnpackedFloat

/-- Whether a float is a natural number. Its significand has 53 bits unless it is zero. -/
inductive Exact : Nat → UnpackedFloat → Prop
  | zero : Exact 0 (.zero .positive)
  | finite {n m k : Nat} (pos : 0 < m) : 2 ^ 52 ≤ m → m < 2 ^ 53 → n * 2 ^ 52 = m * 2 ^ k →
      Exact n (.finite .positive m (k - 52) pos)

variable {m n k a b : Nat} {e : Int} {x y : Float}

/-! ## Comparing -/

/-- Of two numbers the one with the smaller exponent is smaller. -/
theorem lt_of_exponent_lt {a b m' k' : Nat} (hm : m < 2 ^ 53) (hm' : 2 ^ 52 ≤ m')
    (ha : a * 2 ^ 52 = m * 2 ^ k) (hb : b * 2 ^ 52 = m' * 2 ^ k') (hk : k < k') : a < b := by
  refine Nat.lt_of_mul_lt_mul_right (a := 2 ^ 52) ?_
  calc a * 2 ^ 52 = m * 2 ^ k := ha
    _ < 2 ^ 53 * 2 ^ k := Nat.mul_lt_mul_of_pos_right hm (Nat.two_pow_pos k)
    _ = 2 ^ 52 * 2 ^ (k + 1) := by rw [Nat.pow_succ 2 k]; omega
    _ ≤ 2 ^ 52 * 2 ^ k' := Nat.mul_le_mul_left _ (Nat.pow_le_pow_right (by omega) hk)
    _ ≤ m' * 2 ^ k' := Nat.mul_le_mul_right _ hm'
    _ = b * 2 ^ 52 := hb.symm

theorem Exact.pos (h : n * 2 ^ 52 = m * 2 ^ k) (hm : 0 < m) : 0 < n := by
  have hpos : 0 < m * 2 ^ k := Nat.mul_pos hm (Nat.two_pow_pos k)
  omega

/-- Subtracting one number from two does not change how they compare. -/
theorem compare_sub_right (a b c : Int) : compare (a - c) (b - c) = compare a b := by
  rcases Int.lt_trichotomy a b with h | h | h
  · rw [Int.compare_eq_lt.mpr h, Int.compare_eq_lt.mpr (by omega)]
  · rw [h, Int.compare_eq_eq.mpr rfl, Int.compare_eq_eq.mpr rfl]
  · rw [Int.compare_eq_gt.mpr h, Int.compare_eq_gt.mpr (by omega)]

/-- Natural numbers compare as floats as they do as numbers. -/
theorem Exact.lt_iff {a b : Nat} {x y : UnpackedFloat} (hx : Exact a x) (hy : Exact b y) :
    x.lt y = true ↔ a < b := by
  unfold UnpackedFloat.lt
  cases hx with
  | zero =>
    cases hy with
    | zero => decide
    | finite hpos _ _ hb =>
      have := Exact.pos hb hpos
      exact ⟨fun _ => this, fun _ => rfl⟩
  | finite hpos hlow hhigh ha =>
    cases hy with
    | zero =>
      constructor
      · intro hlt
        cases hlt
      · intro hlt
        exact absurd hlt (Nat.not_lt_zero _)
    | finite hpos' hlow' hhigh' hb =>
      rename_i m k m' k'
      simp only [UnpackedFloat.compare, compare_sub_right, beq_iff_eq, Option.some.injEq]
      rcases Nat.lt_trichotomy k k' with hk | rfl | hk
      · have hlt := lt_of_exponent_lt hhigh hlow' ha hb hk
        rw [Int.compare_eq_lt.mpr (by omega)]
        exact ⟨fun _ => hlt, fun _ => rfl⟩
      · -- With the same exponent the significands decide.
        rw [Int.compare_eq_eq.mpr rfl]
        show compare m m' = .lt ↔ a < b
        rw [Nat.compare_eq_lt]
        have hpow := Nat.two_pow_pos k
        constructor
        · intro hlt
          have := Nat.mul_lt_mul_of_pos_right hlt hpow
          omega
        · intro hlt
          refine Nat.lt_of_mul_lt_mul_right (a := 2 ^ k) ?_
          omega
      · have hlt := lt_of_exponent_lt hhigh' hlow hb ha hk
        rw [Int.compare_eq_gt.mpr (by omega)]
        constructor
        · intro hgt
          cases hgt
        · intro hlt'
          omega

/-! ## Rounding -/

theorem log2_of_bits (hlow : 2 ^ k ≤ n) (hhigh : n < 2 ^ (k + 1)) : n.log2 = k :=
  (Nat.log2_eq_iff (by have := Nat.two_pow_pos k; omega)).mpr ⟨hlow, hhigh⟩

/-- A significand of 53 bits keeps its exponent. -/
theorem targetExponent_of_bits (hlow : 2 ^ 52 ≤ m) (hhigh : m < 2 ^ 53) (he : -52 ≤ e) :
    Format.binary64.targetExponent (totalExponent m e) = e := by
  simp only [Format.targetExponent, totalExponent, log2_of_bits hlow hhigh, Format.mantissaBits,
    Format.minExponent]
  omega

/-- Shifting out zeros loses nothing. -/
theorem shiftRight_zeros (q s : Nat) :
    (⟨q * 2 ^ s, false, false⟩ : ExtendedMantissa) >>> s = ⟨q, false, false⟩ := by
  show s.repeat ExtendedMantissa.shiftRightOne ⟨q * 2 ^ s, false, false⟩ = ⟨q, false, false⟩
  induction s generalizing q with
  | zero => simp [Nat.repeat]
  | succ s ih =>
    have hsplit : q * 2 ^ (s + 1) = (q * 2) * 2 ^ s := by rw [Nat.pow_succ]; ring
    rw [Nat.repeat, hsplit, ih]
    simp [ExtendedMantissa.shiftRightOne]

/-- Nothing is rounded if only zeros stand behind the first 53 bits. -/
theorem roundWithAccuracy_of_shift {q s : Nat} (hlow : 2 ^ 52 ≤ q) (hhigh : q < 2 ^ 53)
    (he : -52 ≤ e + s) :
    roundWithAccuracy .binary64 .positive (q * 2 ^ s) e .exact =
      .finite .positive q (e + s) (by omega) := by
  have hlow' : 2 ^ (52 + s) ≤ q * 2 ^ s := by
    rw [Nat.pow_add]
    exact Nat.mul_le_mul_right _ hlow
  have hhigh' : q * 2 ^ s < 2 ^ (52 + s + 1) := by
    calc q * 2 ^ s < 2 ^ 53 * 2 ^ s := Nat.mul_lt_mul_of_pos_right hhigh (Nat.two_pow_pos s)
      _ = 2 ^ (52 + s + 1) := by rw [← Nat.pow_add]; congr 1; omega
  have htarget : Format.binary64.targetExponent (totalExponent (q * 2 ^ s) e) = e + s := by
    simp only [Format.targetExponent, totalExponent, log2_of_bits hlow' hhigh', Format.mantissaBits,
      Format.minExponent]
    omega
  have hq : q ≠ 0 := by omega
  have hshift (x : ExtendedMantissa) : x >>> (0 : Nat) = x := rfl
  simp [roundWithAccuracy, shiftToTargetExponent, htarget, shiftToExponent,
    ExtendedMantissa.ofMantissaAndAccuracy, shiftRight_zeros, ExtendedMantissa.roundedMantissa,
    ExtendedMantissa.accuracy, Accuracy.roundToNearestEven,
      targetExponent_of_bits hlow hhigh he, hshift, hq]

/-- Nothing is rounded at a significand of 53 bits. -/
theorem roundWithAccuracy_of_bits (hlow : 2 ^ 52 ≤ m) (hhigh : m < 2 ^ 53) (he : -52 ≤ e) :
    roundWithAccuracy .binary64 .positive m e .exact = .finite .positive m e (by omega) := by
  simpa using roundWithAccuracy_of_shift (s := 0) hlow hhigh (by omega)

/-- A number with fewer bits is shifted until it has 53. -/
theorem round_of_bits (hlow : 2 ^ k ≤ n) (hhigh : n < 2 ^ (k + 1)) (hk : k ≤ 52) :
    Exact n (UnpackedFloat.round .binary64 .positive n 0) := by
  have hlow' : 2 ^ 52 ≤ n * 2 ^ (52 - k) := by
    calc 2 ^ 52 = 2 ^ k * 2 ^ (52 - k) := by rw [← Nat.pow_add]; congr 1; omega
      _ ≤ n * 2 ^ (52 - k) := Nat.mul_le_mul_right _ hlow
  have hhigh' : n * 2 ^ (52 - k) < 2 ^ 53 := by
    calc n * 2 ^ (52 - k) < 2 ^ (k + 1) * 2 ^ (52 - k) :=
      Nat.mul_lt_mul_of_pos_right hhigh (Nat.two_pow_pos _)
      _ = 2 ^ 53 := by rw [← Nat.pow_add]; congr 1; omega
  have htarget : Format.binary64.targetExponent (totalExponent n 0) = (k : Int) - 52 := by
    simp only [Format.targetExponent, totalExponent, log2_of_bits hlow hhigh, Format.mantissaBits,
      Format.minExponent]
    omega
  have hamount : (0 - ((k : Int) - 52)).toNat = 52 - k := by omega
  have hexponent : (0 : Int) - (52 - k : Nat) = k - 52 := by omega
  simp only [UnpackedFloat.round, htarget, decreaseExponent, hamount, hexponent, Nat.shiftLeft_eq]
  rw [roundWithAccuracy_of_bits hlow' hhigh' (by omega)]
  refine .finite _ hlow' hhigh' ?_
  rw [Nat.mul_assoc, ← Nat.pow_add]
  congr 2
  omega

/-- Of the numbers with 54 bits the smallest is a float too. -/
theorem round_two_pow : Exact (2 ^ 53) (UnpackedFloat.round .binary64 .positive (2 ^ 53) 0) := by
  have hround : UnpackedFloat.round .binary64 .positive (2 ^ 53) 0 =
      .finite .positive (2 ^ 52) ((53 : Nat) - 52) (by decide) := rfl
  rw [hround]
  exact .finite _ (Nat.le_refl _) (by decide) (by decide)

/-- A number of at most 53 bits becomes a float that is exactly it. -/
theorem exact_ofNat (h : n ≤ 2 ^ 53) : Exact n (UnpackedFloat.ofNat .binary64 n) := by
  unfold UnpackedFloat.ofNat UnpackedFloat.ofInt UnpackedFloat.normalize
  rcases Nat.eq_zero_or_pos n with rfl | hpos
  · exact .zero
  · rw [Int.compare_eq_gt.mpr (by omega)]
    dsimp only
    rw [Int.toNat_natCast]
    rcases Nat.lt_or_eq_of_le h with hlt | rfl
    · have hne : n ≠ 0 := by omega
      have hlog : n.log2 < 53 := (Nat.log2_lt hne).mpr hlt
      exact round_of_bits (Nat.log2_self_le hne) Nat.lt_log2_self (by omega)
    · exact round_two_pow

/-! ## Packing -/

/-- Packing keeps the sign. -/
theorem unpackSign_packComponents (exponent : BitVec 11) (mantissa : BitVec 52) :
    unpackSign (packComponents .binary64 .positive exponent mantissa) = 0#1 := by
  show (0#1 ++ exponent ++ mantissa).extractLsb' 63 1 = 0#1
  rw [BitVec.extractLsb'_append_eq_of_le (by omega), BitVec.extractLsb'_append_eq_of_le (by omega)]
  rfl

/-- The bits of a significand are those behind its first one. -/
theorem toNat_one_append (hlow : 2 ^ 52 ≤ m) (hhigh : m < 2 ^ 53) :
    (1#1 ++ BitVec.ofNat 52 m).toNat = m := by
  rw [BitVec.toNat_append, BitVec.toNat_ofNat, BitVec.toNat_ofNat, Nat.shiftLeft_eq, Nat.or_comm,
    Nat.mod_eq_of_lt (by omega : 1 < 2 ^ 1), Nat.one_mul,
    Nat.or_two_pow_eq_add_of_lt (Nat.mod_lt m (Nat.two_pow_pos 52))]
  omega

/-- A significand of 53 bits and its exponent are got back from the packed form. -/
theorem unpack_pack_of_bits (hlow : 2 ^ 52 ≤ m) (hhigh : m < 2 ^ 53) (he : -52 ≤ e) (he' : e ≤ 1) :
    unpack .binary64 (pack .binary64 (.finite .positive m e (by omega))) =
      .finite .positive m e (by omega) := by
  have hbits : m.log2 + 1 = Format.binary64.mantissaBits := by rw [log2_of_bits hlow hhigh]; rfl
  have hbias : ((Format.binary64.exponentBias : Nat) : Int) = 1023 := rfl
  have hbiased :
    (e + Format.binary64.exponentBias + Format.binary64.mantissaBitsWithoutImplicit).toNat =
      (e + 1075).toNat := by
    rw [hbias]
    show (e + 1023 + 52).toNat = _
    omega
  have hvalue : (BitVec.ofNat 11 (e + 1075).toNat).toNat = (e + 1075).toNat := by
    rw [BitVec.toNat_ofNat]
    omega
  -- The biased exponent is from 1023 to 1076, so it is neither zero nor all ones.
  have hnormal (b : Nat) (hb : b < 1023 ∨ 1076 < b) (hsize : b < 2048) :
      BitVec.ofNat 11 (e + 1075).toNat ≠ BitVec.ofNat 11 b := by
    intro h
    have := congrArg BitVec.toNat h
    rw [hvalue, BitVec.toNat_ofNat] at this
    omega
  unfold pack
  dsimp only
  rw [hbiased, if_neg (by show ¬ 2048 ≤ _; omega), if_pos hbits]
  unfold unpack
  simp only [unpackMantissa_packComponents, unpackExponent_packComponents]
  have hnan : BitVec.ofNat 11 (e + 1075).toNat ≠ -1#11 := hnormal 2047 (by omega) (by omega)
  rw [unpackSign_packComponents, if_neg hnan, if_neg (hnormal 0 (by omega) (by omega))]
  congr 1
  · exact toNat_one_append hlow hhigh
  · rw [hvalue, hbias]
    show _ - (1023 + 52 : Int) = e
    omega

/-- A natural number of at most 2⁵³ is got back from the packed form. -/
theorem Exact.unpack_pack {u : UnpackedFloat} (hu : Exact n u) (h : n ≤ 2 ^ 53) :
    unpack .binary64 (pack .binary64 u) = u := by
  cases hu with
  | zero => rfl
  | finite hpos hlow hhigh hn =>
    rename_i m k
    -- The exponent is small, since the number is.
    have hk : k ≤ 53 := by
      refine Nat.le_of_not_lt fun hlarge => ?_
      have hpow : 2 ^ 54 ≤ 2 ^ k := Nat.pow_le_pow_right (by omega) (by omega)
      have hmul := Nat.mul_le_mul hlow hpow
      omega
    exact unpack_pack_of_bits hlow hhigh (by omega) (by omega)

/-! ## Counts -/

/-- A count of at most 2⁵³ is a float. -/
theorem exact_unpack_countScore (h : n ≤ 2 ^ 53) : Exact n (countScore n).toModel.unpack := by
  have hvalue : (UInt64.ofNat n).toNat = n :=
    UInt64.toNat_ofNat_of_lt' (by simp only [UInt64.size]; omega)
  have hunpack : (countScore n).toModel.unpack =
      unpack .binary64 (pack .binary64 (UnpackedFloat.ofNat .binary64 n)) := by
    show unpack .binary64 (pack .binary64 (UnpackedFloat.ofNat .binary64 (UInt64.ofNat n).toNat)) =
      _
    rw [hvalue]
  rw [hunpack, (exact_ofNat h).unpack_pack h]
  exact exact_ofNat h

/-- Natural numbers compare as scores as they do as numbers. -/
theorem Exact.score_lt_iff (hx : Exact a x.toModel.unpack) (hy : Exact b y.toModel.unpack) :
    x < y ↔ a < b := by
  rw [score_lt_iff_unpacked, hx.lt_iff hy]

/-- A natural number exceeds the score that the search starts from. -/
theorem Exact.leastScore_lt (hx : Exact a x.toModel.unpack) : leastScore < x := by
  have hleast : leastScore.toModel.unpack = .infinity .negative := rfl
  rw [score_lt_iff_unpacked, hleast]
  generalize x.toModel.unpack = u at hx
  cases hx with
  | zero => rfl
  | finite => rfl

theorem countScore_lt_iff (ha : a ≤ 2 ^ 53) (hb : b ≤ 2 ^ 53) :
    countScore a < countScore b ↔ a < b :=
  (exact_unpack_countScore ha).score_lt_iff (exact_unpack_countScore hb)

theorem leastScore_lt_countScore (h : n ≤ 2 ^ 53) : leastScore < countScore n :=
  (exact_unpack_countScore h).leastScore_lt

end CoverageReplay
