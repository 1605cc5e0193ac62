import CoverageReplay.Proofs.TestOrder.Accounts
import Mathlib.Algebra.Order.Ring.Int
import Mathlib.Tactic.Linarith
import Mathlib.Tactic.Ring

/-!
# The share that the first tests cover

The `netNew` order takes at each step what adds most. No other choice of as few tests covers much
more than its first tests do: of what any `k` tests cover together, the first `k` tests of the order
miss at most the share `(1 - 1/k)^k` (`netNew_share`).

The bound comes from one step (`missing_le_step`). What a choice of `k` tests covers is what was
covered before and what each of them adds to that at most, and none of them adds more than the next
test in the order. So a step makes up for at least one part in `k` of what is still missing, and the
rest is arithmetic (`pow_mul_missing_le`).
-/

namespace CoverageReplay

open MergedCoverage

/-! ## What tests add -/

variable {before after : List Profile} {p : Profile}

/-- The more was run before, the less a profile adds. -/
theorem newStatements_antitone (sub : before ⊆ after) (p : Profile) :
    newStatements after p ≤ newStatements before p := by
  have hregions := executedRegions_mono (flatMap_blocks_subset sub)
  exact Finset.sum_le_sum_of_subset (Finset.sdiff_subset_sdiff (Finset.Subset.refl _) hregions)

/-- A profile adds nothing a second time. -/
theorem newStatements_of_mem (h : p ∈ before) : newStatements before p = 0 := by
  have hregions : executedRegions p.blocks ⊆ executedRegions (before.flatMap Profile.blocks) :=
    executedRegions_mono fun b hb => List.mem_flatMap.mpr ⟨p, h, hb⟩
  rw [newStatements, Finset.sdiff_eq_empty_iff_subset.mpr hregions, Finset.sum_empty]

namespace TestProfiles

variable {tests : TestProfiles} {names choice : List String} {name : String} {m : Nat}

/-- The statements that the tests of some names cover together. -/
def covered (tests : TestProfiles) (names : List String) : Nat :=
  (ofProfiles (names.filterMap tests.get?)).coveredStatements

/-- Whether tests agree on the statements of each region that they run. -/
def Agree (tests : TestProfiles) : Prop := SameCounts (tests.entries.flatMap fun e => e.2.blocks)

instance (tests : TestProfiles) : Decidable tests.Agree :=
  inferInstanceAs (Decidable (SameCounts _))

/-- Profiles that agree report the same counts for any names. -/
theorem Agree.sameCounts (agree : tests.Agree) (names : List String) :
    SameCounts ((names.filterMap tests.get?).flatMap Profile.blocks) := by
  refine agree.mono fun b hb => ?_
  obtain ⟨p, hp, hb⟩ := List.mem_flatMap.mp hb
  obtain ⟨name, _, hget⟩ := List.mem_filterMap.mp hp
  exact List.mem_flatMap.mpr ⟨_, mem_of_get? hget, hb⟩

theorem covered_mono (sub : choice ⊆ names) : tests.covered choice ≤ tests.covered names :=
  coveredStatements_mono (List.filterMap_subset _ sub)

theorem added_antitone {before after : List String} (sub : before ⊆ after) (name : String) :
    tests.added after name ≤ tests.added before name :=
  newStatements_antitone (List.filterMap_subset _ sub) _

/-- A test that is not listed adds nothing. -/
theorem added_of_none (h : tests.get? name = none) (before : List String) :
    tests.added before name = 0 := by
  rw [added, h]
  exact Finset.sum_eq_zero fun r hr => absurd (Finset.mem_sdiff.mp hr).1 (Finset.notMem_empty r)

/-- A test adds nothing a second time. -/
theorem added_of_mem {before : List String} (h : name ∈ before) : tests.added before name = 0 := by
  cases hget : tests.get? name with
  | none => exact added_of_none hget before
  | some p =>
    rw [added, hget]
    exact newStatements_of_mem (List.mem_filterMap.mpr ⟨name, h, hget⟩)

/-- One test more covers what it adds. -/
theorem covered_concat (agree : tests.Agree) (before : List String) (name : String) :
    tests.covered (before ++ [name]) = tests.covered before + tests.added before name := by
  have same := agree.sameCounts (before ++ [name])
  rw [List.filterMap_append] at same
  rw [covered, List.filterMap_append]
  cases hget : tests.get? name with
  | none =>
    rw [added_of_none hget, List.filterMap_cons_none hget, List.filterMap_nil, List.append_nil]
    rfl
  | some p =>
    rw [List.filterMap_cons_some hget, List.filterMap_nil] at same ⊢
    rw [coveredStatements_concat same, added, hget]
    rfl

/-- Some tests cover, with those before them, what was covered and what each of them adds to that at
most. -/
theorem covered_append_le (agree : tests.Agree) {before : List String}
    (h : ∀ name ∈ choice, tests.added before name ≤ m) :
    tests.covered (before ++ choice) ≤ tests.covered before + choice.length * m := by
  -- By induction on the choice: once one of its tests is taken, the others add no more than before.
  induction choice generalizing before with
  | nil =>
    rw [List.append_nil]
    exact Nat.le_add_right _ _
  | cons name choice ih =>
    obtain ⟨hname, hchoice⟩ := List.forall_mem_cons.mp h
    have hrest : ∀ other ∈ choice, tests.added (before ++ [name]) other ≤ m := fun other hother =>
      (added_antitone (List.subset_append_left _ _) other).trans (hchoice other hother)
    rw [← List.singleton_append, ← List.append_assoc]
    calc tests.covered (before ++ [name] ++ choice)
        ≤ tests.covered (before ++ [name]) + choice.length * m := ih hrest
      _ = tests.covered before + tests.added before name + choice.length * m := by
        rw [covered_concat agree]
      _ ≤ tests.covered before + m + choice.length * m := by omega
      _ = tests.covered before + ([name] ++ choice).length * m := by
        rw [List.length_append, List.length_singleton, Nat.add_mul, Nat.one_mul, Nat.add_assoc]

/-! ## One step of the order -/

/-- What the first tests cover. -/
def coveredByFirst (tests : TestProfiles) (i : Nat) : Nat :=
  tests.covered ((tests.netNewRun.map Candidate.name).take i)

/-- No test adds more to the first ones than the next one does. -/
theorem added_le_step (distinct : tests.names.Nodup) (hraw : ∀ c ∈ tests.candidates, c.raw ≤ 2 ^ 53)
    (agree : tests.Agree) (i : Nat) (name : String) :
    tests.coveredByFirst i + tests.added ((tests.netNewRun.map Candidate.name).take i) name ≤
      tests.coveredByFirst (i + 1) := by
  unfold coveredByFirst
  have hperm : (tests.netNewRun.map Candidate.name).Perm tests.names :=
    TestOrder.apply_perm ⟨.netNew, .standard⟩ tests
  have hbest {before after : List String} {next other : String}
      (h : tests.netNewRun.map Candidate.name = before ++ next :: after) (hother : other ∈ after) :
      tests.added before other ≤ tests.added before next :=
        (best_of_netNewRun distinct hraw h hother).1
  generalize tests.netNewRun.map Candidate.name = order at hperm hbest
  -- A test that is still to come adds no more than the next one, and any other adds nothing.
  by_cases hleft : name ∈ order.drop i
  · have hi : i < order.length := by
      have hlength := List.length_pos_of_mem hleft
      rw [List.length_drop] at hlength
      omega
    rw [List.take_succ_eq_append_getElem hi, covered_concat agree]
    refine Nat.add_le_add_left ?_ _
    rw [← List.getElem_cons_drop hi, List.mem_cons] at hleft
    rcases hleft with rfl | hlater
    · exact Nat.le_refl _
    · exact hbest (split_getElem order hi) hlater
  · have hnothing : tests.added (order.take i) name = 0 := by
      cases hget : tests.get? name with
      | none => exact added_of_none hget _
      | some p =>
        have hname : name ∈ order := hperm.mem_iff.mpr (List.mem_map_of_mem (mem_of_get? hget))
        rw [← List.take_append_drop i order, List.mem_append] at hname
        exact added_of_mem (hname.resolve_right hleft)
    rw [hnothing]
    exact covered_mono (List.take_subset_take_left order (Nat.le_succ i))

/-- The next test makes up for at least one part in `k` of what `k` tests cover beyond the first
ones. -/
theorem missing_le_step (distinct : tests.names.Nodup)
    (hraw : ∀ c ∈ tests.candidates, c.raw ≤ 2 ^ 53) (agree : tests.Agree) {k : Nat}
    (few : choice.length ≤ k) (i : Nat) :
    (tests.covered choice : Int) - tests.coveredByFirst i ≤
      k * (tests.coveredByFirst (i + 1) - tests.coveredByFirst i) := by
  have hadded := added_le_step distinct hraw agree i
  obtain ⟨m, hm⟩ : ∃ m, tests.coveredByFirst (i + 1) = tests.coveredByFirst i + m :=
    Nat.exists_eq_add_of_le (covered_mono (List.take_subset_take_left _ (Nat.le_succ i)))
  have hcovered : tests.covered choice ≤ tests.coveredByFirst i + k * m :=
    calc tests.covered choice
        ≤ tests.covered ((tests.netNewRun.map Candidate.name).take i ++ choice) :=
          covered_mono (List.subset_append_right _ _)
      _ ≤ tests.coveredByFirst i + choice.length * m :=
          covered_append_le agree fun name _ => Nat.le_of_add_le_add_left (hm ▸ hadded name)
      _ ≤ tests.coveredByFirst i + k * m := Nat.add_le_add_left (Nat.mul_le_mul_right m few) _
  rw [hm, Int.natCast_add, add_sub_cancel_left]
  exact sub_left_le_of_le_add (by exact_mod_cast hcovered)

/-- What is reported of the first tests comes to what they cover together. -/
theorem total_netNew_take_explain (agree : tests.Agree) (order : List String) (i : Nat) :
    total (((explain order tests).take i).map RankedTest.netNew) =
      tests.covered (((explain order tests).take i).map RankedTest.name) := by
  have hprofiles : (((explain order tests).take i).map RankedTest.name).filterMap tests.get? =
      ((tests.listed order).take i).map Prod.snd := by
    rw [List.filterMap_map]
    exact tests.profiles_take_explain order i
  have same := agree.sameCounts (((explain order tests).take i).map RankedTest.name)
  rw [hprofiles] at same
  rw [covered, hprofiles, map_netNew_take_explain, total_netNew_eq same]

end TestProfiles

/-! ## The share -/

/-- What makes up at each step for at least one part in `k` of what is missing leaves at most the
share `(1 - 1/k)^n` after `n` steps. -/
theorem pow_mul_missing_le {f : Nat → Nat} {best k : Nat} (hk : 1 ≤ k)
    (step : ∀ i, (best : Int) - f i ≤ k * (f (i + 1) - f i)) (n : Nat) :
    (k : Int) ^ n * (best - f n) ≤ ((k : Int) - 1) ^ n * best := by
  induction n with
  | zero =>
    rw [pow_zero, pow_zero, one_mul, one_mul]
    exact sub_le_self _ (Int.natCast_nonneg _)
  | succ n ih =>
    have hk' : (0 : Int) ≤ (k : Int) - 1 := by omega
    have hpow : (0 : Int) ≤ (k : Int) ^ n := pow_nonneg (Int.natCast_nonneg k) n
    have hmissing : (k : Int) * (best - f (n + 1)) ≤ ((k : Int) - 1) * (best - f n) := by
      have hstep := step n
      linarith
    calc (k : Int) ^ (n + 1) * (best - f (n + 1))
      _ = (k : Int) ^ n * (k * (best - f (n + 1))) := by ring
      _ ≤ (k : Int) ^ n * (((k : Int) - 1) * (best - f n)) :=
        mul_le_mul_of_nonneg_left hmissing hpow
      _ = ((k : Int) - 1) * ((k : Int) ^ n * (best - f n)) := by ring
      _ ≤ ((k : Int) - 1) * (((k : Int) - 1) ^ n * best) := mul_le_mul_of_nonneg_left ih hk'
      _ = ((k : Int) - 1) ^ (n + 1) * best := by ring

/-- **The share that the first tests cover.** Whatever at most `k` tests cover together, the first
`k` tests of the `netNew` order miss at most the share `(1 - 1/k)^k` of it, if the tests agree on
the statements of each region. What is reported of these tests comes to what they cover together. -/
theorem TestOrder.netNew_share (entries : List (String × Profile)) (weights : ImportanceWeights)
    (k : Nat) (choice : List String) (positive : 1 ≤ k) (few : choice.length ≤ k)
    (small : ∀ e ∈ (TestProfiles.ofList entries).entries, e.2.coveredStatements ≤ 2 ^ 53)
    (agree : (TestProfiles.ofList entries).Agree) :
    let tests := TestProfiles.ofList entries
    let first := (TestOrder.rank ⟨.netNew, weights⟩ tests).take k
    let gained := total (first.map RankedTest.netNew)
    let best := tests.covered choice
    (k : Int) ^ k * (best - gained) ≤ ((k : Int) - 1) ^ k * best ∧
      gained = tests.covered (first.map RankedTest.name) := by
  intro tests first gained best
  have distinct : tests.names.Nodup := TestProfiles.nodup_names_ofList entries
  have hnames : first.map RankedTest.name = (tests.netNewRun.map Candidate.name).take k := by
    have hranked : TestOrder.rank ⟨.netNew, weights⟩ tests = explainFrom [] tests.netNewRun :=
      TestProfiles.explain_netNewRun distinct
    rw [List.map_take, hranked, map_name_explainFrom]
  have hgained : gained = tests.covered (first.map RankedTest.name) :=
    TestProfiles.total_netNew_take_explain agree _ k
  refine ⟨?_, hgained⟩
  rw [hgained, hnames]
  exact pow_mul_missing_le positive
    (TestProfiles.missing_le_step distinct (TestProfiles.raw_le distinct small) agree few) k

/-- Two tests cover eight statements, of which the first two in the order miss one; they might miss
two. -/
theorem TestOrder.netNew_share_overlapping :
    let tests := TestProfiles.ofList overlappingTests
    let first := (TestOrder.rank ⟨.netNew, .standard⟩ tests).take 2
    (∀ e ∈ tests.entries, e.2.coveredStatements ≤ 2 ^ 53) ∧ tests.Agree ∧
      tests.covered ["left", "right"] = 8 ∧ total (first.map RankedTest.netNew) = 7 ∧
      (2 : Int) ^ 2 * (8 - 7) ≤ (2 - 1) ^ 2 * 8 := by
  intro tests first
  have small : ∀ e ∈ tests.entries, e.2.coveredStatements ≤ 2 ^ 53 := by decide +kernel
  have agree : tests.Agree := by decide +kernel
  have hbest : tests.covered ["left", "right"] = 8 := by decide +kernel
  have hgained : total (first.map RankedTest.netNew) = 7 := by decide +kernel
  have hshare :=
    (TestOrder.netNew_share overlappingTests .standard 2 ["left", "right"] (by decide) (by decide)
    small agree).1
  refine ⟨small, agree, hbest, hgained, ?_⟩
  rw [hbest, hgained] at hshare
  exact hshare

end CoverageReplay
