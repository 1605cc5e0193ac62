import CoverageReplay.Proofs.Coverage.Points
import CoverageReplay.Proofs.Coverage.Touched
import Mathlib.Algebra.BigOperators.Group.Finset.Basic
import Mathlib.Algebra.GroupWithZero.Nat

/-!
# Merged coverage and the blocks it is made of

Merging keeps coalesced ranges for each file and one count for each region. `ofProfiles_answers`
says that nothing is lost by that: whatever merged coverage can be asked, its answer is the one that
the list of all merged blocks gives.

`MergedCoverage.Tracks` is what ties the coverage to the blocks; one block more keeps it
(`Tracks.addBlock`).
-/

namespace CoverageReplay

/-! ## The order of regions -/

/-- Ranges are in the order of their starts, then of their ends. -/
theorem SourceRange.lt_iff {r s : SourceRange} : r < s ↔
    r.start.rank < s.start.rank ∨ r.start.rank = s.start.rank ∧ r.stop.rank < s.stop.rank := by
  rw [← Position.lt_iff_rank, ← Position.lt_iff_rank, Position.rank_inj]
  exact Iff.rfl

/-- A range is known by the ranks of its two ends. -/
theorem SourceRange.eq_of_rank {r s : SourceRange} (start : r.start.rank = s.start.rank)
    (stop : r.stop.rank = s.stop.rank) : r = s := by
  have hstart : r.start = s.start := Position.rank_inj.mp start
  have hstop : r.stop = s.stop := Position.rank_inj.mp stop
  cases r
  cases s
  rw [SourceRange.mk.injEq]
  exact ⟨hstart, hstop⟩

theorem Region.lt_iff {a b : Region} :
    a < b ↔ a.file < b.file ∨ a.file = b.file ∧ a.range < b.range := Iff.rfl

instance : Std.Irrefl (α := Region) (· < ·) where
  irrefl a h := by
    rw [Region.lt_iff, SourceRange.lt_iff] at h
    rcases h with h | ⟨_, h⟩
    · exact lt_irrefl _ h
    · omega

instance : IsTrans Region (· < ·) where
  trans a b c hab hbc := by
    rw [Region.lt_iff, SourceRange.lt_iff] at hab hbc ⊢
    rcases hab with hab | ⟨hab, hrange⟩
    · rcases hbc with hbc | ⟨hbc, _⟩
      · exact Or.inl (lt_trans hab hbc)
      · exact Or.inl (hbc ▸ hab)
    · rcases hbc with hbc | ⟨hbc, hrange'⟩
      · exact Or.inl (hab ▸ hbc)
      · exact Or.inr ⟨hab.trans hbc, by omega⟩

instance : Std.Trichotomous (α := Region) (· < ·) where
  trichotomous a b hab hba := by
    obtain ⟨file, range⟩ := a
    obtain ⟨file', range'⟩ := b
    rw [Region.lt_iff, SourceRange.lt_iff] at hab hba
    dsimp only at hab hba
    have hfile : file = file' :=
      le_antisymm (le_of_not_gt fun h => hba (Or.inl h)) (le_of_not_gt fun h => hab (Or.inl h))
    subst hfile
    rw [not_or, not_and] at hab hba
    have hab := hab.2 rfl
    have hba := hba.2 rfl
    have hrange : range = range' := SourceRange.eq_of_rank (by omega) (by omega)
    rw [hrange]

/-! ## One file -/

theorem Block.isCovered_iff {b : Block} : b.isCovered ↔ 0 < b.executed := decide_eq_true_iff

theorem Block.isCovered_eq_false_iff {b : Block} : b.isCovered = false ↔ b.executed = 0 := by
  rw [Block.isCovered, decide_eq_false_iff_not, UInt32.not_lt]
  exact UInt32.le_zero_iff

/-- Whether the coverage of a file knows the positions of some blocks, and apart from them
nothing. -/
structure FileCoverage.Tracks (f : FileCoverage) (blocks : List Block) : Prop where
  instrumentedApart : Apart f.instrumented.ranges
  instrumented : f.instrumented.points = rangePoints (blocks.map Block.range)
  coveredApart : Apart f.covered.ranges
  covered : f.covered.points = rangePoints ((blocks.filter Block.isCovered).map Block.range)

namespace FileCoverage

variable {f : FileCoverage} {blocks : List Block}

theorem Tracks.empty : FileCoverage.empty.Tracks [] :=
  ⟨RangeSet.apart_empty, by simp [FileCoverage.empty], RangeSet.apart_empty,
    by simp [FileCoverage.empty]⟩

/-- A block that is added is tracked. -/
theorem Tracks.addBlock (h : f.Tracks blocks) (b : Block) :
    (f.addBlock b).Tracks (blocks ++ [b]) where
  instrumentedApart := RangeSet.apart_insert h.instrumentedApart b.range
  instrumented := by
    unfold FileCoverage.addBlock
    rw [RangeSet.points_insert h.instrumentedApart, h.instrumented, List.map_append,
      rangePoints_append, Set.union_comm]
    simp
  coveredApart := by
    unfold FileCoverage.addBlock
    dsimp only
    split
    next => exact RangeSet.apart_insert h.coveredApart b.range
    next => exact h.coveredApart
  covered := by
    unfold FileCoverage.addBlock
    dsimp only
    rw [List.filter_append, List.map_append, rangePoints_append]
    split
    next hcovered =>
      rw [RangeSet.points_insert h.coveredApart, h.covered, Set.union_comm]
      simp [hcovered]
    next hcovered =>
      rw [h.covered]
      simp [hcovered]

/-- A position lies in the range of a block exactly if the range contains it. -/
theorem mem_rangePoints {blocks : List Block} {p : Position} :
    p ∈ rangePoints (blocks.map Block.range) ↔ ∃ b ∈ blocks, b.range.contains p := by
  simp [CoverageReplay.mem_rangePoints]

theorem Tracks.contains_instrumented (h : f.Tracks blocks) (p : Position) :
    f.instrumented.contains p ↔ ∃ b ∈ blocks, b.range.contains p := by
  rw [RangeSet.contains_iff_mem_points h.instrumentedApart, h.instrumented, mem_rangePoints]

/-- A covered position lies in some block that ran. -/
theorem Tracks.contains_covered (h : f.Tracks blocks) (p : Position) :
    f.covered.contains p ↔ ∃ b ∈ blocks, b.isCovered ∧ b.range.contains p := by
  rw [RangeSet.contains_iff_mem_points h.coveredApart, h.covered, mem_rangePoints]
  simp only [List.mem_filter, and_assoc]

end FileCoverage

/-! ## Statements of a region -/

/-- The total is the sum. -/
theorem total_eq_sum (counts : List Nat) : total counts = counts.sum := by
  induction counts with
  | nil => rfl
  | cons n rest ih => rw [total, ih, List.sum_cons]

theorem total_concat (counts : List Nat) (n : Nat) : total (counts ++ [n]) = total counts + n := by
  rw [total_eq_sum, total_eq_sum, List.sum_append, List.sum_singleton]

/-- The largest number of statements that a block of some region reports, of those that ran. -/
def largestCount (blocks : List Block) (r : Region) : Nat :=
  ((blocks.filter fun b => b.isCovered && decide (b.region = r)).map
    (·.statements.toNat)).foldr max 0

/-- A last count may be the largest one. -/
theorem foldr_max_concat (counts : List Nat) (n : Nat) :
    (counts ++ [n]).foldr max 0 = max (counts.foldr max 0) n := by
  induction counts with
  | nil => simp
  | cons m rest ih => simp only [List.cons_append, List.foldr_cons, ih, Nat.max_assoc]

/-- The largest count is bounded as all of them are. -/
theorem foldr_max_le_iff {counts : List Nat} {n : Nat} :
    counts.foldr max 0 ≤ n ↔ ∀ m ∈ counts, m ≤ n := by
  induction counts with
  | nil => simp
  | cons m rest ih => rw [List.foldr_cons, Nat.max_le, ih, List.forall_mem_cons]

/-- The largest count is one of them. -/
theorem foldr_max_mem {counts : List Nat} (h : counts ≠ []) : counts.foldr max 0 ∈ counts := by
  induction counts with
  | nil => exact absurd rfl h
  | cons m rest ih =>
    rw [List.foldr_cons]
    by_cases hrest : rest = []
    · rw [hrest, List.foldr_nil, Nat.max_zero]
      exact List.mem_singleton_self m
    · rcases max_choice m (rest.foldr max 0) with hmax | hmax
      · rw [hmax]
        exact List.mem_cons_self
      · rw [hmax]
        exact List.mem_cons_of_mem m (ih hrest)

/-- The last block may have the largest count of its region. -/
theorem largestCount_concat (blocks : List Block) (b : Block) (r : Region) :
    largestCount (blocks ++ [b]) r =
      if b.isCovered && decide (b.region = r) then max (largestCount blocks r) b.statements.toNat
      else largestCount blocks r := by
  unfold largestCount
  rw [List.filter_append, List.map_append]
  split
  next h => rw [List.filter_singleton, h, cond_true, List.map_singleton, foldr_max_concat]
  next h =>
    rw [List.filter_singleton, Bool.eq_false_iff.mpr h, cond_false, List.map_nil, List.append_nil]

/-- The regions in which some block ran. -/
def executedRegions (blocks : List Block) : Finset Region :=
  ((blocks.filter Block.isCovered).map Block.region).toFinset

theorem mem_executedRegions {blocks : List Block} {r : Region} :
    r ∈ executedRegions blocks ↔ ∃ b ∈ blocks, b.isCovered ∧ b.region = r := by
  simp [executedRegions, and_assoc]

/-! ## All files -/

namespace MergedCoverage

/-- The blocks of a file. -/
def blocksIn (path : String) (blocks : List Block) : List Block :=
  blocks.filter fun b => decide (b.file = path)

/-- Whether merged coverage knows some blocks, and apart from them nothing. -/
structure Tracks (m : MergedCoverage) (blocks : List Block) : Prop where
  filesSorted : m.files.keys.Pairwise (· < ·)
  statementsSorted : m.statements.keys.Pairwise (· < ·)
  file : ∀ path, ((m.file? path).getD .empty).Tracks (blocksIn path blocks)
  regions : ∀ r, r ∈ m.statements.keys ↔ r ∈ executedRegions blocks
  count : ∀ r, ((m.statements.get? r).getD 0).toNat = largestCount blocks r

variable {m : MergedCoverage} {blocks : List Block}

/-- Without blocks nothing has been merged. -/
theorem Tracks.empty : MergedCoverage.empty.Tracks [] where
  filesSorted := List.Pairwise.nil
  statementsSorted := List.Pairwise.nil
  file := fun _ => FileCoverage.Tracks.empty
  regions := fun r => by simp [MergedCoverage.empty, executedRegions]
  count := fun _ => rfl

/-- A block that is added changes the coverage of its own file. -/
theorem file?_addBlock (sorted : m.files.keys.Pairwise (· < ·)) (b : Block) (path : String) :
    (m.addBlock b).file? path =
      if b.file = path then some (((m.file? b.file).getD .empty).addBlock b) else m.file? path :=
  SortedMap.get?_alter sorted b.file path _

/-- A block that ran may raise the number of statements of its region, and of no other. -/
theorem statements_addBlock (sorted : m.statements.keys.Pairwise (· < ·)) (b : Block) (r : Region) :
    ((m.addBlock b).statements.get? r).getD 0 =
      if b.isCovered && decide (b.region = r) then
        max ((m.statements.get? r).getD 0) b.statements
      else (m.statements.get? r).getD 0 := by
  unfold addBlock
  dsimp only
  by_cases hcovered : b.isCovered
  · rw [if_pos hcovered, SortedMap.get?_alter sorted, hcovered, Bool.true_and]
    by_cases hregion : b.region = r
    · simp [hregion]
    · simp [hregion]
  · simp [hcovered]

/-- One block more. -/
theorem Tracks.addBlock (h : m.Tracks blocks) (b : Block) :
    (m.addBlock b).Tracks (blocks ++ [b]) where
  filesSorted := SortedMap.pairwise_keys_alter h.filesSorted _ _
  statementsSorted := by
    unfold MergedCoverage.addBlock
    dsimp only
    split
    next => exact SortedMap.pairwise_keys_alter h.statementsSorted _ _
    next => exact h.statementsSorted
  file := by
    intro path
    rw [file?_addBlock h.filesSorted, blocksIn, List.filter_append]
    by_cases hpath : b.file = path
    · subst hpath
      rw [if_pos rfl, Option.getD_some, List.filter_singleton, decide_eq_true rfl, cond_true]
      exact (h.file b.file).addBlock b
    · rw [if_neg hpath, List.filter_singleton, decide_eq_false hpath, cond_false, List.append_nil]
      exact h.file path
  regions := by
    intro r
    have hregions := h.regions r
    rw [mem_executedRegions] at hregions
    simp only [mem_executedRegions, List.mem_append, List.mem_singleton, or_and_right, exists_or,
      exists_eq_left, ← hregions]
    unfold MergedCoverage.addBlock
    dsimp only
    split
    next hcovered =>
      rw [SortedMap.mem_keys_alter, or_comm]
      simp [hcovered, eq_comm]
    next hcovered => simp [hcovered]
  count := by
    intro r
    rw [statements_addBlock h.statementsSorted, largestCount_concat, ← h.count]
    split
    next => exact UInt32.toNat_max _ _
    next => rfl

/-- Blocks that are merged one after the other are all tracked. -/
theorem tracks_foldl (h : m.Tracks blocks) (more : List Block) :
    (more.foldl MergedCoverage.addBlock m).Tracks (blocks ++ more) := by
  induction more generalizing m blocks with
  | nil => rwa [List.append_nil]
  | cons b rest ih =>
    rw [List.foldl_cons, ← List.singleton_append, ← List.append_assoc]
    exact ih (h.addBlock b)

/-- Merged coverage knows the blocks of its profiles. -/
theorem tracks_ofProfiles (profiles : List Profile) :
    (ofProfiles profiles).Tracks (profiles.flatMap Profile.blocks) := by
  rw [ofProfiles_eq_foldl]
  exact tracks_foldl Tracks.empty _

/-! ## Answers -/

namespace Tracks

variable (h : m.Tracks blocks) (path : String) (p : Position)

include h

/-- A position is instrumented in merged coverage exactly if some block of the file holds it. -/
theorem instrumented_iff : ((m.file? path).getD .empty).instrumented.contains p ↔
    ∃ b ∈ blocks, b.file = path ∧ b.range.contains p := by
  rw [(h.file path).contains_instrumented]
  simp [blocksIn, and_assoc]

/-- A position is covered in merged coverage exactly if some block of the file that ran holds it. -/
theorem covered_iff : ((m.file? path).getD .empty).covered.contains p ↔
    ∃ b ∈ blocks, b.file = path ∧ b.range.contains p ∧ b.isCovered := by
  rw [(h.file path).contains_covered]
  simp only [blocksIn, List.mem_filter, decide_eq_true_eq, and_assoc, and_comm (a :=
    Block.isCovered _)]

/-- A position is dead if some block reports it and none of those that report it ran. -/
theorem isDead_iff : m.isDead path p ↔
    (∃ b ∈ blocks, b.file = path ∧ b.range.contains p) ∧
      ∀ b ∈ blocks, b.file = path → b.range.contains p → b.isCovered = false := by
  -- A file without coverage answers as one of which nothing is known.
  have hdead : m.isDead path p = ((m.file? path).getD .empty).isDead p := by
    unfold isDead
    cases m.file? path with
    | none => rfl
    | some => rfl
  have hcovered := h.covered_iff path p
  rw [hdead, FileCoverage.isDead, Bool.and_eq_true, h.instrumented_iff, Bool.not_eq_true',
    Bool.eq_false_iff, Ne, hcovered]
  refine and_congr_right fun _ => ?_
  constructor
  · intro hnone b hb hpath hp
    exact Bool.eq_false_iff.mpr fun hrun => hnone ⟨b, hb, hpath, hp, hrun⟩
  · intro hall hsome
    obtain ⟨b, hb, hpath, hp, hrun⟩ := hsome
    rw [hall b hb hpath hp] at hrun
    cases hrun

omit path p in
/-- Each region that ran counts once, with the largest number of statements reported. -/
theorem coveredStatements_eq :
    m.coveredStatements = ∑ r ∈ executedRegions blocks, largestCount blocks r := by
  have hnodup : m.statements.keys.Nodup := h.statementsSorted.nodup
  have hkeys : m.statements.keys.toFinset = executedRegions blocks := by
    ext r
    rw [List.mem_toFinset, h.regions]
  -- The values are the counts of the keys, since no key has two entries.
  have hvalues : m.statements.values.map UInt32.toNat =
      m.statements.keys.map (largestCount blocks) := by
    unfold SortedMap.values SortedMap.keys
    rw [List.map_map, List.map_map]
    refine List.map_congr_left fun e he => ?_
    rw [Function.comp_apply, Function.comp_apply, ← h.count, SortedMap.get?_of_mem hnodup he,
      Option.getD_some]
  rw [coveredStatements, hvalues, total_eq_sum, ← hkeys, List.sum_toFinset _ hnodup]

end Tracks

/-- Merged coverage answers as the list of the merged blocks does. A file is known if a block
belongs to it. A position of a file is instrumented if a block of the file contains it, covered if
one that ran does, and dead if some do and none of them ran. A region with a block that ran counts
with the largest number of statements reported by such a block. -/
theorem ofProfiles_answers (profiles : List Profile) :
    let blocks := profiles.flatMap Profile.blocks
    let merged := ofProfiles profiles
    merged.files.keys = (blocks.map Block.file).toFinset.sort ∧
      (∀ path, (merged.file? path).isSome ↔ ∃ b ∈ blocks, b.file = path) ∧
      (∀ path p, (merged.file? path).any (·.instrumented.contains p) ↔
        ∃ b ∈ blocks, b.file = path ∧ b.range.contains p) ∧
      (∀ path p, (merged.file? path).any (·.covered.contains p) ↔
        ∃ b ∈ blocks, b.file = path ∧ b.range.contains p ∧ 0 < b.executed) ∧
      (∀ path p, merged.isDead path p ↔
        (∃ b ∈ blocks, b.file = path ∧ b.range.contains p) ∧
          ∀ b ∈ blocks, b.file = path → b.range.contains p → b.executed = 0) ∧
      merged.coveredStatements = ∑ r ∈ executedRegions blocks, largestCount blocks r := by
  intro blocks merged
  -- The invariant that ties merged coverage to the list of its blocks answers every question.
  have h : merged.Tracks blocks := tracks_ofProfiles profiles
  have hkeys : merged.files.keys = (blocks.map Block.file).toFinset.sort := by
    rw [keys_ofProfiles, touched, List.map_flatMap]
  refine ⟨hkeys, ?_, ?_, ?_, ?_, h.coveredStatements_eq⟩
  · intro path
    rw [file?, ← SortedMap.contains, SortedMap.contains_iff_mem_keys, hkeys]
    simp
  · intro path p
    rw [← h.instrumented_iff]
    cases merged.file? path with
    | none => rfl
    | some => rfl
  · intro path p
    simp only [← Block.isCovered_iff, ← h.covered_iff]
    cases merged.file? path with
    | none => rfl
    | some => rfl
  · intro path p
    simp only [h.isDead_iff, Block.isCovered_eq_false_iff]

end MergedCoverage

end CoverageReplay
