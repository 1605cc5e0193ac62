import CoverageReplay.Proofs.Coverage.Blocks
import Mathlib.Algebra.Order.BigOperators.Group.Finset

/-!
# Merging as a union

Merged coverage is the union of the profiles merged into it, and `merge_is_union` says so in two
ways. It is a value that depends on the set of these profiles only: merging them in another order,
or one of them again, gives the same ranges and the same counts. And it is the least that contains
what was there before and the new profile, in the sense of `contains`.

Both rest on the ranges of a set being apart. Ranges that are apart are determined by their
positions (`Apart.eq_of_rangePoints`), and a range all of whose positions are in the set lies in a
single range of it (`covers_iff_subset`), since between two ranges some position is missing.
-/

namespace CoverageReplay

/-! ## One list of ranges for a set of positions -/

theorem SourceRange.start_mem_points {r : SourceRange} (h : r.start.rank < r.stop.rank) :
    r.start ∈ r.points :=
  SourceRange.mem_points.mpr ⟨Nat.le_refl _, h⟩

namespace Apart

variable {r s : SourceRange} {ranges others : List SourceRange} {p : Position}

/-- No position comes before the first range. -/
theorem start_le (h : Apart (r :: ranges)) (hp : p ∈ rangePoints (r :: ranges)) :
    r.start.rank ≤ p.rank := by
  obtain ⟨hr, hgap, _⟩ := cons_iff.mp h
  obtain ⟨s, hs, hp⟩ := hp
  rw [SourceRange.mem_points] at hp
  rcases List.mem_cons.mp hs with rfl | hs
  · exact hp.1
  · have hbehind := hgap s hs
    omega

/-- The positions of the later ranges are those behind the first one, with a gap. -/
theorem mem_tail_iff (h : Apart (r :: ranges)) :
    p ∈ rangePoints ranges ↔ p ∈ rangePoints (r :: ranges) ∧ r.stop.rank ≤ p.rank := by
  obtain ⟨_, hgap, _⟩ := cons_iff.mp h
  rw [rangePoints_cons, Set.mem_union, SourceRange.mem_points]
  constructor
  · intro hp
    obtain ⟨s, hs, hps⟩ := hp
    have hbehind := hgap s hs
    rw [SourceRange.mem_points] at hps
    exact ⟨Or.inr ⟨s, hs, SourceRange.mem_points.mpr hps⟩, by omega⟩
  · intro ⟨hp, hstop⟩
    exact hp.resolve_left (by omega)

/-- Right behind a range a position is missing. -/
theorem stop_notMem (h : Apart ranges) (hr : r ∈ ranges) : r.stop ∉ rangePoints ranges := by
  obtain ⟨front, back, rfl⟩ := List.append_of_mem hr
  obtain ⟨_, hback, hbetween⟩ := append_iff.mp h
  obtain ⟨_, hgap, _⟩ := cons_iff.mp hback
  intro hstop
  obtain ⟨s, hs, hstop⟩ := hstop
  rw [SourceRange.mem_points] at hstop
  rcases List.mem_append.mp hs with hs | hs
  · have hbefore := hbetween s hs r List.mem_cons_self
    have hnonempty := h.nonempty r hr
    omega
  · rcases List.mem_cons.mp hs with rfl | hs
    · omega
    · have hbehind := hgap s hs
      omega

/-- The first ranges end together: where one ends first, the other set has a position that its own
does not have. -/
theorem stop_le_of_subset (h : Apart (r :: ranges)) (start : r.start.rank = s.start.rank)
    (sub : rangePoints (s :: others) ⊆ rangePoints (r :: ranges)) : s.stop.rank ≤ r.stop.rank := by
  by_contra hlt
  have hr := h.nonempty r List.mem_cons_self
  have hmem : r.stop ∈ rangePoints (s :: others) :=
    ⟨s, List.mem_cons_self, SourceRange.mem_points.mpr ⟨by omega, by omega⟩⟩
  exact h.stop_notMem List.mem_cons_self (sub hmem)

/-- Ranges that are apart are determined by their positions. -/
theorem eq_of_rangePoints (h : Apart ranges) (h' : Apart others)
    (same : rangePoints ranges = rangePoints others) : ranges = others := by
  induction ranges generalizing others with
  | nil =>
    cases others with
    | nil => rfl
    | cons s others =>
      have hmem : s.start ∈ rangePoints (s :: others) :=
        ⟨s, List.mem_cons_self, SourceRange.start_mem_points (h'.nonempty s List.mem_cons_self)⟩
      rw [← same, rangePoints_nil] at hmem
      exact absurd hmem (Set.notMem_empty _)
  | cons r ranges ih =>
    have hr := SourceRange.start_mem_points (h.nonempty r List.mem_cons_self)
    have hrmem : r.start ∈ rangePoints (r :: ranges) := ⟨r, List.mem_cons_self, hr⟩
    cases others with
    | nil =>
      rw [same, rangePoints_nil] at hrmem
      exact absurd hrmem (Set.notMem_empty _)
    | cons s others =>
      have hs := SourceRange.start_mem_points (h'.nonempty s List.mem_cons_self)
      have hsmem : s.start ∈ rangePoints (s :: others) := ⟨s, List.mem_cons_self, hs⟩
      -- Both first ranges begin at the least position, end at the same one, and leave the same
      -- positions.
      have hstart : r.start.rank = s.start.rank :=
        Nat.le_antisymm (h.start_le (same ▸ hsmem)) (h'.start_le (same ▸ hrmem))
      have hstop : r.stop.rank = s.stop.rank :=
        Nat.le_antisymm (h'.stop_le_of_subset hstart.symm same.subset)
          (h.stop_le_of_subset hstart same.symm.subset)
      have hrest : rangePoints ranges = rangePoints others := by
        ext p
        rw [h.mem_tail_iff, h'.mem_tail_iff, same, hstop]
      rw [SourceRange.eq_of_rank hstart hstop,
        ih (cons_iff.mp h).2.2 (cons_iff.mp h').2.2 hrest]

end Apart

/-! ## One range for many positions -/

namespace RangeSet

variable {set other : RangeSet} {r : SourceRange}

/-- The range found after a position is one of the set, and it ends behind the position. -/
theorem mem_of_after? (h : Apart set.ranges) {p : Position} (hafter : set.after? p = some r) :
    r ∈ set.ranges ∧ p.rank < r.stop.rank := by
  obtain ⟨front, back, hranges, hhead, _, hback⟩ := after?_spec h p
  have hr : r ∈ back := List.mem_of_head? (hhead ▸ hafter)
  exact ⟨hranges ▸ List.mem_append_right front hr, hback r hr⟩

/-- A range is covered exactly if all its positions are in the set. -/
theorem covers_iff_subset (h : Apart set.ranges) : set.covers r ↔ r.points ⊆ set.points := by
  unfold covers
  by_cases hempty : r.isEmpty
  · rw [hempty, Bool.true_or, SourceRange.points_of_isEmpty hempty]
    exact iff_of_true rfl (Set.empty_subset _)
  rw [Bool.eq_false_iff.mpr hempty, Bool.false_or]
  rw [SourceRange.isEmpty_iff, Position.le_iff_rank] at hempty
  have hstart : r.start ∈ r.points := SourceRange.start_mem_points (by omega)
  -- The range that is looked up decides whether the start is in the set at all.
  have hfound := contains_iff_mem_points h (p := r.start)
  unfold contains at hfound
  cases hafter : set.after? r.start with
  | none =>
    rw [hafter, Option.any_none] at hfound
    exact iff_of_false Bool.false_ne_true fun hsub => Bool.false_ne_true (hfound.mpr (hsub hstart))
  | some s =>
    obtain ⟨hs, hends⟩ := mem_of_after? h hafter
    rw [hafter, Option.any_some, decide_eq_true_eq, Position.le_iff_rank] at hfound
    rw [Option.any_some, Bool.and_eq_true, decide_eq_true_eq, decide_eq_true_eq,
      Position.le_iff_rank, Position.le_iff_rank]
    constructor
    · intro hinside p hp
      rw [SourceRange.mem_points] at hp
      exact ⟨s, hs, SourceRange.mem_points.mpr ⟨by omega, by omega⟩⟩
    · intro hsub
      have hbegins := hfound.mpr (hsub hstart)
      refine ⟨hbegins, Nat.le_of_not_lt fun hlt => ?_⟩
      exact h.stop_notMem hs (hsub (SourceRange.mem_points.mpr ⟨by omega, hlt⟩))

/-- A set includes another one exactly if it has all its positions. -/
theorem isSuperset_iff (h : Apart set.ranges) (h' : Apart other.ranges) :
    set.isSuperset other ↔ ∀ p, other.contains p → set.contains p := by
  simp only [isSuperset, List.all_eq_true, covers_iff_subset h, contains_iff_mem_points h,
    contains_iff_mem_points h']
  constructor
  · intro hall p hp
    obtain ⟨r, hr, hp⟩ := hp
    exact hall r hr hp
  · intro hsub r hr p hp
    exact hsub p ⟨r, hr, hp⟩

/-- Sets that answer alike are equal. -/
theorem eq_of_contains (h : Apart set.ranges) (h' : Apart other.ranges)
    (same : ∀ p, set.contains p ↔ other.contains p) : set = other := by
  have hpoints : set.points = other.points := by
    ext p
    rw [← contains_iff_mem_points h, ← contains_iff_mem_points h', same]
  have hranges : set.ranges = other.ranges := h.eq_of_rangePoints h' hpoints
  cases set
  cases other
  rw [RangeSet.mk.injEq]
  exact hranges

end RangeSet

/-! ## Equal profiles, equal coverage -/

section Sets

variable {profiles profiles' : List Profile} (same : ∀ p, p ∈ profiles ↔ p ∈ profiles')

include same

/-- Profiles with the same members touch the same files. -/
theorem touched_congr : touched profiles = touched profiles' := by
  refine (sortedLT_touched profiles).eq_of_mem_iff (sortedLT_touched profiles') fun path => ?_
  rw [mem_touched, mem_touched]
  simp only [same]

/-- Profiles with the same members have the same blocks. -/
theorem mem_blocks_congr (b : Block) :
    b ∈ profiles.flatMap Profile.blocks ↔ b ∈ profiles'.flatMap Profile.blocks := by
  rw [List.mem_flatMap, List.mem_flatMap]
  simp only [same]

end Sets

section Tracks

variable {f f' : FileCoverage} {m m' : MergedCoverage} {blocks blocks' : List Block}

/-- The coverage of a file is determined by its answers. -/
theorem FileCoverage.Tracks.ext (h : f.Tracks blocks) (h' : f'.Tracks blocks')
    (instrumented : ∀ p, f.instrumented.contains p ↔ f'.instrumented.contains p)
    (covered : ∀ p, f.covered.contains p ↔ f'.covered.contains p) : f = f' := by
  have hinstrumented : f.instrumented = f'.instrumented :=
    RangeSet.eq_of_contains h.instrumentedApart h'.instrumentedApart instrumented
  have hcovered : f.covered = f'.covered :=
    RangeSet.eq_of_contains h.coveredApart h'.coveredApart covered
  cases f
  cases f'
  rw [FileCoverage.mk.injEq]
  exact ⟨hinstrumented, hcovered⟩

/-- So it is determined by the set of the blocks that it knows. -/
theorem FileCoverage.Tracks.unique (h : f.Tracks blocks) (h' : f'.Tracks blocks')
    (same : ∀ b, b ∈ blocks ↔ b ∈ blocks') : f = f' := by
  refine h.ext h' (fun p => ?_) fun p => ?_
  · simp only [h.contains_instrumented, h'.contains_instrumented, same]
  · simp only [h.contains_covered, h'.contains_covered, same]

namespace MergedCoverage

theorem Tracks.nodup_files (h : m.Tracks blocks) : m.files.keys.Nodup :=
  h.filesSorted.sortedLT.nodup

theorem Tracks.nodup_statements (h : m.Tracks blocks) : m.statements.keys.Nodup :=
  h.statementsSorted.nodup

/-- More blocks report no less of a region. -/
theorem largestCount_mono (sub : blocks ⊆ blocks') (r : Region) :
    largestCount blocks r ≤ largestCount blocks' r := by
  unfold largestCount
  rw [foldr_max_le_iff]
  intro n hn
  exact foldr_max_le_iff.mp (Nat.le_refl _) n (List.map_subset _ (List.filter_subset _ sub) hn)

/-- The counts of regions are determined by the set of the blocks. -/
theorem Tracks.statements_unique (h : m.Tracks blocks) (h' : m'.Tracks blocks')
    (same : ∀ b, b ∈ blocks ↔ b ∈ blocks') : m.statements = m'.statements := by
  have hantisymm : Std.Antisymm (α := Region) (· < ·) := Std.Asymm.antisymm _
  have hkeys : m.statements.keys = m'.statements.keys := by
    refine h.statementsSorted.eq_of_mem_iff h'.statementsSorted fun r => ?_
    rw [h.regions, h'.regions, mem_executedRegions, mem_executedRegions]
    simp only [same]
  refine SortedMap.eq_of_get?_eq h.nodup_statements hkeys fun r hr => ?_
  obtain ⟨n, hn⟩ := Option.isSome_iff_exists.mp (SortedMap.contains_iff_mem_keys.mpr hr)
  obtain ⟨n', hn'⟩ := Option.isSome_iff_exists.mp (SortedMap.contains_iff_mem_keys.mpr (hkeys ▸ hr))
  have hlargest : largestCount blocks r = largestCount blocks' r :=
    Nat.le_antisymm (largestCount_mono (fun b => (same b).mp) r)
      (largestCount_mono (fun b => (same b).mpr) r)
  have hcount := h.count r
  rw [hlargest, ← h'.count r, hn, hn', Option.getD_some, Option.getD_some,
    UInt32.toNat_inj] at hcount
  rw [hn, hn', hcount]

/-- The coverage of all files is determined by which files are known and by what is known of
each. -/
theorem Tracks.files_eq (h : m.Tracks blocks) (h' : m'.Tracks blocks')
    (known : ∀ path, (m.file? path).isSome ↔ (m'.file? path).isSome)
    (same : ∀ path, (m.file? path).getD .empty = (m'.file? path).getD .empty) :
    m.files = m'.files := by
  have hkeys : m.files.keys = m'.files.keys := by
    refine h.filesSorted.sortedLT.eq_of_mem_iff h'.filesSorted.sortedLT fun path => ?_
    rw [← SortedMap.contains_iff_mem_keys, ← SortedMap.contains_iff_mem_keys]
    exact known path
  refine SortedMap.eq_of_get?_eq h.nodup_files hkeys fun path hpath => ?_
  obtain ⟨f, hf⟩ := Option.isSome_iff_exists.mp (SortedMap.contains_iff_mem_keys.mpr hpath)
  obtain ⟨f', hf'⟩ :=
    Option.isSome_iff_exists.mp (SortedMap.contains_iff_mem_keys.mpr (hkeys ▸ hpath))
  have hsame := same path
  rw [file?, file?, hf, hf', Option.getD_some, Option.getD_some] at hsame
  rw [hf, hf', hsame]

/-- So it is determined by which files are known and by the set of the blocks. -/
theorem Tracks.files_unique (h : m.Tracks blocks) (h' : m'.Tracks blocks')
    (same : ∀ b, b ∈ blocks ↔ b ∈ blocks')
    (known : ∀ path, (m.file? path).isSome ↔ (m'.file? path).isSome) : m.files = m'.files := by
  refine h.files_eq h' known fun path => (h.file path).unique (h'.file path) fun b => ?_
  simp only [blocksIn, List.mem_filter, same]

/-- Coverage knows a file exactly if some block names it. -/
theorem file?_isSome_iff {profiles : List Profile} {path : String} :
    ((ofProfiles profiles).file? path).isSome ↔
      ∃ b ∈ profiles.flatMap Profile.blocks, b.file = path := by
  rw [file?, ← SortedMap.contains, SortedMap.contains_iff_mem_keys, keys_ofProfiles, mem_touched]
  constructor
  · rintro ⟨p, hp, b, hb, hpath⟩
    exact ⟨b, List.mem_flatMap.mpr ⟨p, hp, hb⟩, hpath⟩
  · rintro ⟨b, hb, hpath⟩
    obtain ⟨p, hp, hb⟩ := List.mem_flatMap.mp hb
    exact ⟨p, hp, b, hb, hpath⟩

/-- Merged coverage depends on the set of the profiles, not on their order, nor on how often each is
merged. -/
theorem ofProfiles_congr {profiles profiles' : List Profile}
    (same : ∀ p, p ∈ profiles ↔ p ∈ profiles') : ofProfiles profiles = ofProfiles profiles' := by
  have h := tracks_ofProfiles profiles
  have h' := tracks_ofProfiles profiles'
  have hknown : ∀ path, ((ofProfiles profiles).file? path).isSome ↔
      ((ofProfiles profiles').file? path).isSome := by
    intro path
    simp only [file?_isSome_iff, mem_blocks_congr same]
  have hfiles := h.files_unique h' (mem_blocks_congr same) hknown
  have hstatements := h.statements_unique h' (mem_blocks_congr same)
  -- Both parts are equal, so the values are.
  generalize ofProfiles profiles = m at hfiles hstatements
  generalize ofProfiles profiles' = m' at hfiles hstatements
  cases m
  cases m'
  rw [MergedCoverage.mk.injEq]
  exact ⟨hfiles, hstatements⟩

/-! ## Containing -/

/-- Whether some blocks report nothing that others do not report: no file, no position, and no
position that ran. -/
structure Within (blocks blocks' : List Block) : Prop where
  files : ∀ b ∈ blocks, ∃ b' ∈ blocks', b'.file = b.file
  instrumented : ∀ path p, (∃ b ∈ blocks, b.file = path ∧ b.range.contains p) →
    ∃ b' ∈ blocks', b'.file = path ∧ b'.range.contains p
  covered : ∀ path p, (∃ b ∈ blocks, b.file = path ∧ b.range.contains p ∧ b.isCovered) →
    ∃ b' ∈ blocks', b'.file = path ∧ b'.range.contains p ∧ b'.isCovered

/-- What some blocks cover, more blocks cover. -/
theorem Within.of_subset (sub : blocks ⊆ blocks') : Within blocks blocks' where
  files := fun b hb => ⟨b, sub hb, rfl⟩
  instrumented := fun _ _ ⟨b, hb, h⟩ => ⟨b, sub hb, h⟩
  covered := fun _ _ ⟨b, hb, h⟩ => ⟨b, sub hb, h⟩

/-- What two lists of blocks cover, a list covers that covers either. -/
theorem Within.append {more : List Block} (h : Within blocks blocks') (h' : Within more blocks') :
    Within (blocks ++ more) blocks' where
  files := List.forall_mem_append.mpr ⟨h.files, h'.files⟩
  instrumented := by
    intro path p hreports
    obtain ⟨b, hb, hreports⟩ := hreports
    rcases List.mem_append.mp hb with hb | hb
    · exact h.instrumented path p ⟨b, hb, hreports⟩
    · exact h'.instrumented path p ⟨b, hb, hreports⟩
  covered := by
    intro path p hreports
    obtain ⟨b, hb, hreports⟩ := hreports
    rcases List.mem_append.mp hb with hb | hb
    · exact h.covered path p ⟨b, hb, hreports⟩
    · exact h'.covered path p ⟨b, hb, hreports⟩

/-- Merged coverage contains another one if each file of that is known and its coverage included. -/
theorem contains_iff_exists (distinct : m'.files.keys.Nodup) :
    m.contains m' ↔
      ∀ path f', m'.file? path = some f' → ∃ f, m.file? path = some f ∧ f.includes f' := by
  -- A path has one entry at most, so the entries that are compared are those that are looked up.
  unfold contains
  rw [List.all_eq_true]
  constructor
  · intro hall path f' hf'
    exact (Option.any_eq_true _ _).mp (hall (path, f') (SortedMap.mem_of_get? hf'))
  · intro hall e he
    exact (Option.any_eq_true _ _).mpr (hall e.1 e.2 (SortedMap.get?_of_mem distinct he))

/-- Merged coverage contains another one if it knows its files and includes what that knows of
each. -/
theorem contains_iff_file? (distinct : m'.files.keys.Nodup) :
    m.contains m' ↔ (∀ path, (m'.file? path).isSome → (m.file? path).isSome) ∧
      ∀ path, ((m.file? path).getD .empty).includes ((m'.file? path).getD .empty) := by
  rw [contains_iff_exists distinct]
  constructor
  · intro hall
    refine ⟨fun path hsome => ?_, fun path => ?_⟩
    · obtain ⟨f', hf'⟩ := Option.isSome_iff_exists.mp hsome
      obtain ⟨f, hf, _⟩ := hall path f' hf'
      exact Option.isSome_of_eq_some hf
    · cases hf' : m'.file? path with
      | none => rfl
      | some f' =>
        obtain ⟨f, hf, hincludes⟩ := hall path f' hf'
        rw [hf]
        exact hincludes
  · intro ⟨hknown, hincludes⟩ path f' hf'
    obtain ⟨f, hf⟩ := Option.isSome_iff_exists.mp (hknown path (Option.isSome_of_eq_some hf'))
    have hboth := hincludes path
    rw [hf, hf'] at hboth
    exact ⟨f, hf, hboth⟩

/-- One file includes another exactly if it has its instrumented and its covered positions. -/
theorem includes_iff (h : f.Tracks blocks) (h' : f'.Tracks blocks') :
    f.includes f' ↔ (∀ p, f'.instrumented.contains p → f.instrumented.contains p) ∧
      ∀ p, f'.covered.contains p → f.covered.contains p := by
  rw [FileCoverage.includes, Bool.and_eq_true,
    RangeSet.isSuperset_iff h.instrumentedApart h'.instrumentedApart,
    RangeSet.isSuperset_iff h.coveredApart h'.coveredApart]

/-- Merged coverage contains another one exactly if its blocks report what those of the other one
do. -/
theorem contains_iff_within {profiles profiles' : List Profile} :
    (ofProfiles profiles).contains (ofProfiles profiles') ↔
      Within (profiles'.flatMap Profile.blocks) (profiles.flatMap Profile.blocks) := by
  have h := tracks_ofProfiles profiles
  have h' := tracks_ofProfiles profiles'
  rw [contains_iff_file? h'.nodup_files]
  simp only [includes_iff (h.file _) (h'.file _), h.instrumented_iff, h'.instrumented_iff,
    h.covered_iff, h'.covered_iff, file?_isSome_iff]
  constructor
  · intro ⟨hfiles, hpositions⟩
    exact ⟨fun b hb => hfiles b.file ⟨b, hb, rfl⟩, fun path => (hpositions path).1,
      fun path => (hpositions path).2⟩
  · intro hwithin
    refine ⟨fun path hpath => ?_, fun path => ⟨hwithin.instrumented path, hwithin.covered path⟩⟩
    obtain ⟨b, hb, rfl⟩ := hpath
    exact hwithin.files b hb

/-! ## Merging -/

/-- More profiles have more blocks. -/
theorem flatMap_blocks_subset {profiles profiles' : List Profile} (sub : profiles ⊆ profiles') :
    profiles.flatMap Profile.blocks ⊆ profiles'.flatMap Profile.blocks := by
  intro b hb
  obtain ⟨p, hp, hb⟩ := List.mem_flatMap.mp hb
  exact List.mem_flatMap.mpr ⟨p, sub hp, hb⟩

/-- More blocks have more executed regions. -/
theorem executedRegions_mono (sub : blocks ⊆ blocks') :
    executedRegions blocks ⊆ executedRegions blocks' := by
  intro r hr
  obtain ⟨b, hb, hregion⟩ := mem_executedRegions.mp hr
  exact mem_executedRegions.mpr ⟨b, sub hb, hregion⟩

/-- Merging a profile never takes statements away. -/
theorem coveredStatements_mono {profiles profiles' : List Profile} (sub : profiles ⊆ profiles') :
    (ofProfiles profiles).coveredStatements ≤ (ofProfiles profiles').coveredStatements := by
  have hblocks := flatMap_blocks_subset sub
  rw [(tracks_ofProfiles profiles).coveredStatements_eq,
    (tracks_ofProfiles profiles').coveredStatements_eq]
  exact (Finset.sum_le_sum fun r _ => largestCount_mono hblocks r).trans
    (Finset.sum_le_sum_of_subset (executedRegions_mono hblocks))

/-- **Merging is the union.** Merged coverage is the same value for the same profiles, in whatever
order and however often each of them is merged. Merging one more profile gives the least coverage
that contains both what was there before and the profile alone, and it never takes statements
away. -/
theorem merge_is_union :
    (∀ profiles profiles' : List Profile, (∀ p, p ∈ profiles ↔ p ∈ profiles') →
      ofProfiles profiles = ofProfiles profiles') ∧
    ∀ (profiles : List Profile) (p : Profile),
      let m := ofProfiles profiles
      (m.merge p).contains m ∧ (m.merge p).contains (empty.merge p) ∧
        (∀ others, (ofProfiles others).contains m → (ofProfiles others).contains (empty.merge p) →
          (ofProfiles others).contains (m.merge p)) ∧
        m.coveredStatements ≤ (m.merge p).coveredStatements := by
  refine ⟨fun profiles profiles' same => ofProfiles_congr same, fun profiles p => ?_⟩
  intro m
  have hp : empty.merge p = ofProfiles [p] := rfl
  have hmerge : m.merge p = ofProfiles (profiles ++ [p]) := (ofProfiles_append profiles p).symm
  have hblocks : (profiles ++ [p]).flatMap Profile.blocks =
      profiles.flatMap Profile.blocks ++ [p].flatMap Profile.blocks := List.flatMap_append ..
  rw [hmerge, hp]
  refine ⟨contains_iff_within.mpr ?_, contains_iff_within.mpr ?_, fun others hold hnew => ?_, ?_⟩
  · rw [hblocks]
    exact Within.of_subset (List.subset_append_left _ _)
  · rw [hblocks]
    exact Within.of_subset (List.subset_append_right _ _)
  · rw [contains_iff_within] at hold hnew ⊢
    rw [hblocks]
    exact hold.append hnew
  · exact coveredStatements_mono (List.subset_append_left _ _)

/-- A profile with one block. -/
def blockProfile (start stop : Position) (executed : UInt32) : Profile :=
  ⟨.set, [⟨"f.rs", ⟨start, stop⟩, 1, executed⟩]⟩

/-- Two blocks that touch are fused in either order, also if one of them is merged twice, and a
block that reaches over both contains their union, though it is none of the two. -/
theorem merge_is_union_touching :
    let first := blockProfile ⟨1, 1⟩ ⟨2, 5⟩ 1
    let second := blockProfile ⟨2, 5⟩ ⟨4, 1⟩ 1
    let wide := blockProfile ⟨1, 1⟩ ⟨4, 1⟩ 3
    ofProfiles [second, first, second] = ofProfiles [first, second] ∧
      (ofProfiles [wide]).contains (ofProfiles [first]) ∧
      (ofProfiles [wide]).contains (empty.merge second) ∧
      (ofProfiles [wide]).contains ((ofProfiles [first]).merge second) := by
  intro first second wide
  have hfirst : (ofProfiles [wide]).contains (ofProfiles [first]) := by decide
  have hsecond : (ofProfiles [wide]).contains (empty.merge second) := by decide
  have hsame : ∀ p, p ∈ [second, first, second] ↔ p ∈ [first, second] := by
    intro p
    simp only [List.mem_cons, List.not_mem_nil, or_false]
    rw [or_left_comm, or_self]
  refine ⟨merge_is_union.1 _ _ hsame, hfirst, hsecond, ?_⟩
  exact (merge_is_union.2 [first] second).2.2.1 [wide] hfirst hsecond

end MergedCoverage

end Tracks

end CoverageReplay
