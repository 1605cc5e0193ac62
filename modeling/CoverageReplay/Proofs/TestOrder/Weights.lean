import CoverageReplay.Proofs.TestOrder.Orders

/-!
# Weights that leave one count

With a weight for one of the two counts and none for the other, the `importance` strategy orders as
the strategy that goes by this count alone does (`importance_of_single`), as long as no score is
rounded.

A product of natural numbers is not rounded if it is at most 2⁵³ (`Exact.mul`), and adding zero
changes nothing (`Exact.add_zero`). So scores compare as the counts do (`RanksBy`). Two greedy runs
whose scores compare as the same counts do take the same candidates (`greedyFrom_congr`), and a
greedy run by counts that do not change on the way sorts by them, ties as listed
(`greedy_eq_byRaw`).
-/

namespace CoverageReplay

open Float.Model (Format UnpackedFloat)
open Float.Model.UnpackedFloat

/-! ## Products and sums -/

section Arithmetic

variable {m n k a b : Nat} {x y : Float}

/-- A number of at most 2⁵³ has a significand of 53 bits. -/
theorem exists_bits (hpos : 0 < n) (h : n ≤ 2 ^ 53) :
    ∃ q j, 2 ^ 52 ≤ q ∧ q < 2 ^ 53 ∧ n * 2 ^ 52 = q * 2 ^ j := by
  have hexact := exact_ofNat h
  generalize UnpackedFloat.ofNat .binary64 n = u at hexact
  cases hexact with
  | zero => omega
  | finite _ hlow hhigh hn => exact ⟨_, _, hlow, hhigh, hn⟩

/-- A larger significand of the same number ends in zeros. -/
theorem exists_shift {q j : Nat} (h : m * 2 ^ k = q * 2 ^ j) (hlt : q < m) :
    ∃ s, m = q * 2 ^ s ∧ k + s = j := by
  rcases Nat.le_total k j with hk | hj
  · refine ⟨j - k, Nat.eq_of_mul_eq_mul_right (Nat.two_pow_pos k) ?_, by omega⟩
    rw [h, Nat.mul_assoc, ← Nat.pow_add]
    congr 2
    omega
  · have hq : m * 2 ^ (k - j) = q := by
      refine Nat.eq_of_mul_eq_mul_right (Nat.two_pow_pos j) ?_
      rw [← h, Nat.mul_assoc, ← Nat.pow_add]
      congr 2
      omega
    have hle : m * 1 ≤ m * 2 ^ (k - j) := Nat.mul_le_mul_left m (Nat.two_pow_pos _)
    omega

/-- Two whole floats have their exact product if it is small. -/
theorem Exact.mul_unpacked {u v : UnpackedFloat} (hu : Exact a u) (hv : Exact b v)
    (h : a * b ≤ 2 ^ 53) :
    Exact (a * b) (UnpackedFloat.mul .binary64 u v) := by
  cases hu with
  | zero =>
    rw [Nat.zero_mul]
    cases hv with
    | zero => exact .zero
    | finite => exact .zero
  | finite hpos hlow hhigh ha =>
    cases hv with
    | zero => exact .zero
    | finite hpos' hlow' hhigh' hb =>
      rename_i m k m' k'
      have hab : 0 < a * b := Nat.mul_pos (Exact.pos ha hpos) (Exact.pos hb hpos')
      -- The product is at most `2^53`, so its significand loses only zeros when it is cut to 53
      -- bits.
      obtain ⟨q, j, hq, hq', hbits⟩ := exists_bits hab h
      have hsame : m * m' * 2 ^ (k + k') = q * 2 ^ (j + 52) := by
        calc m * m' * 2 ^ (k + k') = (m * 2 ^ k) * (m' * 2 ^ k') := by rw [Nat.pow_add]; ring
          _ = (a * 2 ^ 52) * (b * 2 ^ 52) := by rw [ha, hb]
          _ = (a * b * 2 ^ 52) * 2 ^ 52 := by ring
          _ = q * 2 ^ (j + 52) := by rw [hbits, Nat.pow_add]; ring
      have hlt : q < m * m' := by
        have hle := Nat.mul_le_mul hlow hlow'
        omega
      obtain ⟨s, hs, hexponent⟩ := exists_shift hsame hlt
      have hsum : ((k : Int) - 52) + ((k' : Int) - 52) + s = j - 52 := by omega
      have hround : UnpackedFloat.mul .binary64 (.finite .positive m (k - 52) hpos)
          (.finite .positive m' (k' - 52) hpos') =
          roundWithAccuracy .binary64 .positive (m * m') ((k - 52) + (k' - 52)) .exact := rfl
      rw [hround, hs, roundWithAccuracy_of_shift hq hq' (by omega)]
      simp only [hsum]
      exact .finite _ hq hq' hbits

theorem Exact.mul (hx : Exact a x.toModel.unpack) (hy : Exact b y.toModel.unpack)
    (h : a * b ≤ 2 ^ 53) :
    Exact (a * b) (x * y).toModel.unpack := by
  have hmul := hx.mul_unpacked hy h
  have hunpack : (x * y).toModel.unpack =
      unpack .binary64 (pack .binary64
        (UnpackedFloat.mul .binary64 x.toModel.unpack y.toModel.unpack)) := rfl
  rw [hunpack, hmul.unpack_pack h]
  exact hmul

/-- Adding zero changes no whole float. -/
theorem Exact.add_unpacked {u v : UnpackedFloat} (hu : Exact a u) (hv : Exact 0 v) :
    UnpackedFloat.add .binary64 u v = u ∧ UnpackedFloat.add .binary64 v u = u := by
  cases hv with
  | finite hpos _ _ hn => exact absurd (Exact.pos hn hpos) (Nat.lt_irrefl 0)
  | zero =>
    cases hu with
    | zero => exact ⟨rfl, rfl⟩
    | finite => exact ⟨rfl, rfl⟩

/-- Adding zero, from either side, changes nothing. -/
theorem Exact.add_zero (hx : Exact a x.toModel.unpack) (hy : Exact 0 y.toModel.unpack)
    (h : a ≤ 2 ^ 53) :
    Exact a (x + y).toModel.unpack ∧ Exact a (y + x).toModel.unpack := by
  obtain ⟨hright, hleft⟩ := hx.add_unpacked hy
  have hunpack (x y : Float) : (x + y).toModel.unpack =
      unpack .binary64 (pack .binary64
        (UnpackedFloat.add .binary64 x.toModel.unpack y.toModel.unpack)) := rfl
  rw [hunpack x y, hunpack y x, hright, hleft, hx.unpack_pack h]
  exact ⟨hx, hx⟩

end Arithmetic

/-! ## Runs by the same counts -/

section Runs

variable {score score' : List Region → Candidate → Float} {key : List Region → Candidate → Nat}
  {seen : List Region} {c d : Candidate} {cs ds : List Candidate} {n : Nat}

theorem RanksBy.mono {score : Candidate → Float} {key : Candidate → Nat}
    (h : RanksBy score key cs) (sub : ds ⊆ cs) :
    RanksBy score key ds :=
  ⟨fun c hc => h.above c (sub hc), fun c hc d hd => h.lt_iff c (sub hc) d (sub hd)⟩

/-- The search depends only on how the scores compare with each other and with the bar. -/
theorem bestPlace_congr {score score' : Candidate → Float} {bar bar' : Float} {best here : Nat}
    (hbar : ∀ c ∈ cs, bar < score c ↔ bar' < score' c)
    (hscore : ∀ c ∈ cs, ∀ d ∈ cs, score c < score d ↔ score' c < score' d) :
    bestPlace score best bar here cs = bestPlace score' best bar' here cs := by
  induction cs generalizing best bar bar' here with
  | nil => rfl
  | cons c rest ih =>
    rw [List.forall_mem_cons] at hbar hscore
    obtain ⟨hc, hrest⟩ := hbar
    have hscore' : ∀ d ∈ rest, ∀ e ∈ rest, score d < score e ↔ score' d < score' e := by
      intro d hd e he
      exact hscore.2 d hd e (List.mem_cons_of_mem c he)
    rw [bestPlace, bestPlace]
    by_cases h : bar < score c
    · rw [if_pos h, if_pos (hc.mp h)]
      exact ih (fun d hd => hscore.1 d (List.mem_cons_of_mem c hd)) hscore'
    · rw [if_neg h, if_neg (mt hc.mpr h)]
      exact ih hrest hscore'

/-- Scores that rank by the same key take the same candidate. -/
theorem takeBest_congr {score score' : Candidate → Float} {key : Candidate → Nat}
    (h : RanksBy score key cs) (h' : RanksBy score' key cs) :
    takeBest score cs = takeBest score' cs := by
  have hplace : bestPlace score 0 leastScore 0 cs = bestPlace score' 0 leastScore 0 cs :=
    bestPlace_congr (fun c hc => iff_of_true (h.above c hc) (h'.above c hc))
      fun c hc d hd => (h.lt_iff c hc d hd).trans (h'.lt_iff c hc d hd).symm
  rw [takeBest, takeBest, hplace]

/-- Scores that compare as the same counts do lead to the same run. -/
theorem greedyFrom_congr (h : ∀ seen, RanksBy (score seen) (key seen) cs)
    (h' : ∀ seen, RanksBy (score' seen) (key seen) cs) :
    greedyFrom score seen n cs = greedyFrom score' seen n cs := by
  induction n generalizing seen cs with
  | zero => rfl
  | succ n ih =>
    rw [greedyFrom, greedyFrom, takeBest_congr (h seen) (h' seen)]
    by_cases hempty : cs = []
    · rw [hempty]
      rfl
    · obtain ⟨front, c, back, rfl, htake, _⟩ := takeBest_chosen (score' seen) hempty
      have hsub : front ++ back ⊆ front ++ c :: back :=
        ((List.sublist_cons_self c back).append_left front).subset
      rw [htake]
      dsimp only
      rw [ih (fun seen => (h seen).mono hsub) fun seen => (h' seen).mono hsub]

/-- A run by what candidates cover takes no candidate before one that covers more, nor before one
that covers as much and was listed first. -/
theorem pairwise_greedyFrom (hlength : cs.length = n)
    (h : ∀ seen, RanksBy (score seen) Candidate.raw cs) :
    (greedyFrom score seen n cs).Pairwise (ByRaw cs) := by
  induction n generalizing seen cs with
  | zero => exact List.Pairwise.nil
  | succ n ih =>
    obtain ⟨front, c, back, rfl, hrun, hchosen, hlength'⟩ := greedyFrom_step score seen hlength
    obtain ⟨hfront, hback⟩ := hchosen.largest (h seen)
    have hsub : (front ++ back).Sublist (front ++ c :: back) :=
      (List.sublist_cons_self c back).append_left front
    rw [hrun, List.pairwise_cons]
    constructor
    · intro d hd
      rw [(greedyFrom_perm _ _ hlength').mem_iff, List.mem_append] at hd
      rcases hd with hd | hd
      · have hlt := hfront d hd
        exact ⟨by omega, fun heq => absurd heq (by omega)⟩
      · refine ⟨hback d hd, fun _ => ?_⟩
        exact ((List.singleton_sublist.mpr hd).cons_cons c).trans
          (List.sublist_append_right front _)
    · refine (ih hlength' fun seen => (h seen).mono hsub.subset).imp fun {d e} hde => ?_
      exact ⟨hde.le, fun heq => (hde.listed heq).trans hsub⟩

/-- So such a run sorts. -/
theorem greedy_eq_byRaw (distinct : cs.Nodup) (h : ∀ seen, RanksBy (score seen) Candidate.raw cs) :
    greedy score cs = byRaw cs := by
  have hperm : (greedy score cs).Perm (byRaw cs) :=
    (greedyFrom_perm _ _ rfl).trans (List.mergeSort_perm _ _).symm
  refine hperm.eq_of_pairwise (fun c d _ _ hcd hdc =>
    ?_) (pairwise_greedyFrom rfl h) (pairwise_byRaw distinct)
  have heq : d.raw = c.raw := Nat.le_antisymm hcd.le hdc.le
  exact absurd (hdc.listed heq.symm) (not_sublist_swap distinct (hcd.listed heq))

end Runs

/-! ## Scores with one weight -/

section Single

variable {w : Float} {n : Nat} {cs : List Candidate} (pos : 0 < n)
    (whole : Exact n w.toModel.unpack) (small : ∀ c ∈ cs, n * c.raw ≤ 2 ^ 53)

theorem exact_zero : Exact 0 (0 : Float).toModel.unpack := .zero

/-- A count without a weight adds nothing. -/
theorem exact_zero_mul {a : Nat} {x : Float} (hx : Exact a x.toModel.unpack) :
    Exact 0 (0 * x).toModel.unpack := by
  have hmul := exact_zero.mul hx
  rw [Nat.zero_mul] at hmul
  exact hmul (Nat.zero_le _)

include pos whole small

/-- With no weight on what is new the importance ranks by the raw counts. -/
theorem ranksBy_raw (seen : List Region) :
    RanksBy (importanceScore ⟨w, 0⟩ seen) Candidate.raw cs := by
  have hexact : ∀ c ∈ cs, Exact (n * c.raw) (importanceScore ⟨w, 0⟩ seen c).toModel.unpack := by
    intro c hc
    have hraw : c.raw ≤ 2 ^ 53 := (Nat.le_mul_of_pos_left c.raw pos).trans (small c hc)
    have hgain : c.gain seen ≤ 2 ^ 53 := (c.gain_le_raw seen).trans hraw
    have hmul := whole.mul (exact_unpack_countScore hraw) (small c hc)
    exact (hmul.add_zero (exact_zero_mul (exact_unpack_countScore hgain)) (small c hc)).1
  refine ⟨fun c hc => (hexact c hc).leastScore_lt, fun c hc d hd => ?_⟩
  rw [(hexact c hc).score_lt_iff (hexact d hd), Nat.mul_lt_mul_left pos]

/-- With no weight on the raw counts the importance ranks by what is new. -/
theorem ranksBy_gain_of_single (seen : List Region) :
    RanksBy (importanceScore ⟨0, w⟩ seen) (Candidate.gain seen) cs := by
  have hexact :
      ∀ c ∈ cs, Exact (n * c.gain seen) (importanceScore ⟨0, w⟩ seen c).toModel.unpack := by
    intro c hc
    have hraw : c.raw ≤ 2 ^ 53 := (Nat.le_mul_of_pos_left c.raw pos).trans (small c hc)
    have hgain : c.gain seen ≤ 2 ^ 53 := (c.gain_le_raw seen).trans hraw
    have hsmall : n * c.gain seen ≤ 2 ^ 53 :=
      (Nat.mul_le_mul_left n (c.gain_le_raw seen)).trans (small c hc)
    have hmul := whole.mul (exact_unpack_countScore hgain) hsmall
    exact (hmul.add_zero (exact_zero_mul (exact_unpack_countScore hraw)) hsmall).2
  refine ⟨fun c hc => (hexact c hc).leastScore_lt, fun c hc d hd => ?_⟩
  rw [(hexact c hc).score_lt_iff (hexact d hd), Nat.mul_lt_mul_left pos]

end Single

/-- **One weight alone.** If a whole number weighs one count and the other has no weight, and no
test covers so much that its score would be rounded, `importance` is the order by what tests cover
on their own, or the order of always the largest gain. -/
theorem TestOrder.importance_of_single (entries : List (String × Profile))
    (weights : ImportanceWeights) {n : Nat} {w : Float} (pos : 0 < n)
    (whole : Exact n w.toModel.unpack)
    (small : ∀ e ∈ (TestProfiles.ofList entries).entries, n * e.2.coveredStatements ≤ 2 ^ 53) :
    TestOrder.apply ⟨.importance, ⟨w, 0⟩⟩ (TestProfiles.ofList entries) =
        TestOrder.apply ⟨.raw, weights⟩ (TestProfiles.ofList entries) ∧
      TestOrder.apply ⟨.importance, ⟨0, w⟩⟩ (TestProfiles.ofList entries) =
        TestOrder.apply ⟨.netNew, weights⟩ (TestProfiles.ofList entries) := by
  have distinct := TestProfiles.nodup_names_ofList entries
  generalize TestProfiles.ofList entries = tests at small distinct
  have hraw : ∀ c ∈ tests.candidates, n * c.raw ≤ 2 ^ 53 := by
    intro c hc
    obtain ⟨p, _, hof, he⟩ := TestProfiles.get?_of_mem_candidates distinct hc
    rw [hof]
    exact (Nat.mul_le_mul_left n (Candidate.raw_ofProfile_le c.name p)).trans (small _ he)
  constructor
  · exact congrArg (List.map Candidate.name)
      (greedy_eq_byRaw (TestProfiles.nodup_candidates distinct) (ranksBy_raw pos whole hraw))
  · exact congrArg (List.map Candidate.name)
      (greedyFrom_congr (ranksBy_gain_of_single pos whole hraw)
      (ranksBy_gain fun c hc => (Nat.le_mul_of_pos_left c.raw pos).trans (hraw c hc)))

theorem TestOrder.importance_of_single_overlapping :
    let tests := TestProfiles.ofList overlappingTests
    (0 < 3 ∧ Exact 3 (3 : Float).toModel.unpack ∧
      ∀ e ∈ tests.entries, 3 * e.2.coveredStatements ≤ 2 ^ 53) ∧
      TestOrder.apply ⟨.importance, ⟨3, 0⟩⟩ tests = TestOrder.apply ⟨.raw, .standard⟩ tests ∧
      TestOrder.apply ⟨.importance, ⟨0, 3⟩⟩ tests = TestOrder.apply ⟨.netNew, .standard⟩ tests := by
  have hthree : (3 : Float).toModel.unpack =
      .finite .positive (3 * 2 ^ 51) ((1 : Nat) - 52) (by decide) := rfl
  have whole : Exact 3 (3 : Float).toModel.unpack := by
    rw [hthree]
    exact .finite _ (by decide) (by decide) (by decide)
  have small : ∀ e ∈ (TestProfiles.ofList overlappingTests).entries,
      3 * e.2.coveredStatements ≤ 2 ^ 53 := by
    decide +kernel
  exact ⟨⟨by decide, whole, small⟩,
    TestOrder.importance_of_single overlappingTests .standard (by decide) whole small⟩

end CoverageReplay
