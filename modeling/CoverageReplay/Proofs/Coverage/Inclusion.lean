import CoverageReplay.Proofs.Coverage.Union

/-!
# Inclusion of positions

A set of positions is kept as a list of ranges, and the list depends only on the positions: whatever
ranges are inserted, in whatever order, they end up in order with gaps between them, and ranges with
the same positions end up as the same list (`ofList_normal`).

What is asked of such sets is whether one includes another. That is decided by looking at one kept
range for each range that is asked for, and `contains_is_inclusion` says that nothing is missed by
it: the answer is whether every position of the one is a position of the other. So containing is a
preorder on merged coverage, and two that contain each other keep the same ranges of the same files.
-/

namespace CoverageReplay

/-! ## Ranges inserted one after the other -/

/-- Ranges that are apart come in order, each of them behind the end of those before it. -/
theorem Apart.pairwise_lt {ranges : List SourceRange} (h : Apart ranges) :
    ranges.Pairwise fun r s => r < s ∧ r.stop < s.start := by
  refine h.gaps.imp_of_mem fun {r s} hr _ hgap => ?_
  have hnonempty := h.nonempty r hr
  rw [SourceRange.lt_iff, Position.lt_iff_rank]
  omega

namespace RangeSet

theorem ofList_concat (ranges : List SourceRange) (r : SourceRange) :
    ofList (ranges ++ [r]) = (ofList ranges).insert r := by
  simp [ofList]

/-- Whatever is inserted, the ranges stay apart, and their positions are those of the inserted
ranges. -/
theorem ofList_spec (ranges : List SourceRange) :
    Apart (ofList ranges).ranges ∧ (ofList ranges).points = rangePoints ranges := by
  induction ranges using List.reverseRecOn with
  | nil => exact ⟨apart_empty, points_empty.trans rangePoints_nil.symm⟩
  | append_singleton ranges r ih =>
    obtain ⟨hapart, hpoints⟩ := ih
    rw [ofList_concat]
    refine ⟨apart_insert hapart r, ?_⟩
    rw [points_insert hapart, hpoints, rangePoints_append, rangePoints_cons, rangePoints_nil,
      Set.union_empty, Set.union_comm]

/-- A range set holds the positions that were inserted. -/
theorem contains_ofList {ranges : List SourceRange} {p : Position} :
    (ofList ranges).contains p ↔ ∃ r ∈ ranges, r.contains p := by
  obtain ⟨hapart, hpoints⟩ := ofList_spec ranges
  rw [contains_iff_mem_points hapart, hpoints, mem_rangePoints]

/-- **Inserted ranges have a normal form.** After any sequence of inserts, and so after each insert
of a longer one, the ranges that are kept are not empty, they come in order, and each ends before
the next one starts. A position is found exactly if some inserted range contains it, and two
sequences of inserts leave the same list exactly if their ranges contain the same positions. -/
theorem ofList_normal :
    (∀ ranges : List SourceRange,
      (∀ r ∈ (ofList ranges).ranges, r.start < r.stop) ∧
      (ofList ranges).ranges.Pairwise (fun r s => r < s ∧ r.stop < s.start) ∧
      ∀ p, (ofList ranges).contains p ↔ ∃ r ∈ ranges, r.contains p) ∧
    ∀ ranges others : List SourceRange, (ofList ranges).ranges = (ofList others).ranges ↔
      ∀ p, (∃ r ∈ ranges, r.contains p) ↔ ∃ r ∈ others, r.contains p := by
  constructor
  · intro ranges
    have hapart := (ofList_spec ranges).1
    refine ⟨fun r hr => ?_, hapart.pairwise_lt, fun p => contains_ofList⟩
    exact Position.lt_iff_rank.mpr (hapart.nonempty r hr)
  · intro ranges others
    constructor
    · intro hranges p
      have hsame : ofList ranges = ofList others := congrArg RangeSet.mk hranges
      rw [← contains_ofList, ← contains_ofList, hsame]
    · intro hpositions
      refine congrArg RangeSet.ranges
        (eq_of_contains (ofList_spec ranges).1 (ofList_spec others).1 fun p => ?_)
      rw [contains_ofList, contains_ofList, hpositions]

/-- Touching, repeated, empty and inverted ranges leave the list that one long range leaves. -/
theorem ofList_normal_touching :
    let pieces : List SourceRange :=
      [⟨⟨4, 0⟩, ⟨6, 1⟩⟩, ⟨⟨5, 5⟩, ⟨5, 5⟩⟩, ⟨⟨1, 1⟩, ⟨4, 0⟩⟩, ⟨⟨9, 1⟩, ⟨2, 1⟩⟩, ⟨⟨1, 1⟩, ⟨4, 0⟩⟩]
    let whole : SourceRange := ⟨⟨1, 1⟩, ⟨6, 1⟩⟩
    (ofList pieces).ranges = (ofList [whole]).ranges ∧ whole ∈ (ofList pieces).ranges ∧
      whole.start < whole.stop := by
  intro pieces whole
  have hmem : whole ∈ (ofList pieces).ranges := by decide
  refine ⟨(ofList_normal.2 pieces [whole]).mpr fun p =>
    ?_, hmem, (ofList_normal.1 pieces).1 whole hmem⟩
  simp only [pieces, whole, List.exists_mem_cons_iff, List.not_mem_nil, false_and,
    exists_false, or_false, SourceRange.contains_iff, Position.le_iff_rank, Position.lt_iff_rank,
      Position.rank, UInt32.reduceToNat]
  omega

/-! ## Sets that can come up -/

/-- Whether a set comes up by inserting ranges. -/
inductive Reachable : RangeSet → Prop where
  | empty : Reachable empty
  | insert {set : RangeSet} (r : SourceRange) (before : Reachable set) : Reachable (set.insert r)

/-- The ranges of each set that can be reached lie apart. -/
theorem Reachable.apart {set : RangeSet} (h : set.Reachable) : Apart set.ranges := by
  induction h with
  | empty => exact apart_empty
  | insert r _ ih => exact apart_insert ih r

/-- A range is covered exactly if each of its positions is found. -/
theorem covers_iff_contains {set : RangeSet} (h : Apart set.ranges) {r : SourceRange} :
    set.covers r ↔ ∀ p, r.contains p → set.contains p := by
  rw [covers_iff_subset h]
  simp only [contains_iff_mem_points h, SourceRange.contains_iff]
  exact Iff.rfl

end RangeSet

namespace MergedCoverage

/-- Whether merged coverage comes up by merging profiles. -/
inductive Reachable : MergedCoverage → Prop where
  | empty : Reachable empty
  | merge {m : MergedCoverage} (p : Profile) (before : Reachable m) : Reachable (m.merge p)

variable {m m' : MergedCoverage} {blocks blocks' : List Block}

/-- Merged coverage that can be reached tracks some blocks. -/
theorem Reachable.tracks (h : m.Reachable) : ∃ blocks, m.Tracks blocks := by
  induction h with
  | empty => exact ⟨[], Tracks.empty⟩
  | merge p _ ih =>
    obtain ⟨blocks, hblocks⟩ := ih
    exact ⟨blocks ++ p.blocks, tracks_foldl hblocks p.blocks⟩

/-- In merged coverage each file tracks its own blocks. -/
theorem Tracks.of_file {f : FileCoverage} {path : String} (h : m.Tracks blocks)
    (hf : m.file? path = some f) :
    f.Tracks (blocksIn path blocks) := by
  have hfile := h.file path
  rwa [hf, Option.getD_some] at hfile

/-! ## What containing means -/

/-- Merged coverage contains another one exactly if it has its files and, in each of them, its
positions. -/
theorem Tracks.contains_iff (h : m.Tracks blocks) (h' : m'.Tracks blocks') :
    m.contains m' ↔ ∀ path theirs, m'.file? path = some theirs → ∃ ours, m.file? path = some ours ∧
      (∀ p, theirs.instrumented.contains p → ours.instrumented.contains p) ∧
      ∀ p, theirs.covered.contains p → ours.covered.contains p := by
  rw [contains_iff_exists h'.nodup_files]
  constructor
  · intro hall path theirs htheirs
    obtain ⟨ours, hours, hincludes⟩ := hall path theirs htheirs
    exact ⟨ours, hours, (includes_iff (h.of_file hours) (h'.of_file htheirs)).mp hincludes⟩
  · intro hall path theirs htheirs
    obtain ⟨ours, hours, hpositions⟩ := hall path theirs htheirs
    exact ⟨ours, hours, (includes_iff (h.of_file hours) (h'.of_file htheirs)).mpr hpositions⟩

theorem Tracks.file?_isSome_of_contains (h' : m'.Tracks blocks') (hle : m.contains m')
    {path : String} (hsome : (m'.file? path).isSome) : (m.file? path).isSome :=
  ((contains_iff_file? h'.nodup_files).mp hle).1 path hsome

/-- What is known of a file on either side is known in the same way. -/
theorem Tracks.file_eq_of_contains (h : m.Tracks blocks) (h' : m'.Tracks blocks')
    (hle : m.contains m') (hge : m'.contains m) (path : String) :
    (m.file? path).getD .empty = (m'.file? path).getD .empty := by
  have hours := ((contains_iff_file? h'.nodup_files).mp hle).2 path
  have htheirs := ((contains_iff_file? h.nodup_files).mp hge).2 path
  rw [includes_iff (h.file path) (h'.file path)] at hours
  rw [includes_iff (h'.file path) (h.file path)] at htheirs
  exact (h.file path).ext (h'.file path) (fun p => ⟨htheirs.1 p, hours.1 p⟩) fun p =>
    ⟨htheirs.2 p, hours.2 p⟩

/-- **Containing is inclusion.** A set that comes up by inserting ranges covers a range exactly if
it has all positions of the range, and it is a superset of another one exactly if it has all
positions of that. Merged coverage contains another one exactly if it knows each file of that and
has its instrumented positions among the instrumented ones and its covered positions among the
covered ones. So each merged coverage contains itself, containing is transitive, and two that
contain each other have the same files with the same ranges. -/
theorem contains_is_inclusion :
    (∀ set other : RangeSet, set.Reachable → other.Reachable →
      (∀ r, set.covers r ↔ ∀ p, r.contains p → set.contains p) ∧
        (set.isSuperset other ↔ ∀ p, other.contains p → set.contains p)) ∧
    (∀ m m' : MergedCoverage, m.Reachable → m'.Reachable →
      (m.contains m' ↔ ∀ path theirs, m'.file? path = some theirs →
        ∃ ours, m.file? path = some ours ∧
        (∀ p, theirs.instrumented.contains p → ours.instrumented.contains p) ∧
        ∀ p, theirs.covered.contains p → ours.covered.contains p)) ∧
    (∀ m : MergedCoverage, m.Reachable → m.contains m) ∧
    (∀ m₁ m₂ m₃ : MergedCoverage, m₁.Reachable → m₂.Reachable → m₃.Reachable →
      m₁.contains m₂ → m₂.contains m₃ → m₁.contains m₃) ∧
    ∀ m m' : MergedCoverage, m.Reachable → m'.Reachable → m.contains m' → m'.contains m →
      m.files = m'.files := by
  refine ⟨fun set other h h' => ?_, fun m m' h h' => ?_, fun m h => ?_,
    fun m₁ m₂ m₃ h₁ h₂ h₃ h₁₂ h₂₃ => ?_, fun m m' h h' hle hge => ?_⟩
  · exact ⟨fun r => RangeSet.covers_iff_contains h.apart, RangeSet.isSuperset_iff h.apart h'.apart⟩
  · obtain ⟨blocks, hblocks⟩ := h.tracks
    obtain ⟨blocks', hblocks'⟩ := h'.tracks
    exact hblocks.contains_iff hblocks'
  · obtain ⟨blocks, hblocks⟩ := h.tracks
    exact (hblocks.contains_iff hblocks).mpr fun path theirs htheirs =>
      ⟨theirs, htheirs, fun _ hp => hp, fun _ hp => hp⟩
  · -- Inclusion of points is transitive, file by file.
    obtain ⟨blocks₁, hblocks₁⟩ := h₁.tracks
    obtain ⟨blocks₂, hblocks₂⟩ := h₂.tracks
    obtain ⟨blocks₃, hblocks₃⟩ := h₃.tracks
    rw [hblocks₁.contains_iff hblocks₂] at h₁₂
    rw [hblocks₂.contains_iff hblocks₃] at h₂₃
    rw [hblocks₁.contains_iff hblocks₃]
    intro path theirs htheirs
    obtain ⟨middle, hmiddle, hinstrumented, hcovered⟩ := h₂₃ path theirs htheirs
    obtain ⟨ours, hours, hinstrumented', hcovered'⟩ := h₁₂ path middle hmiddle
    exact ⟨ours, hours, fun p hp => hinstrumented' p (hinstrumented p hp),
      fun p hp => hcovered' p (hcovered p hp)⟩
  · obtain ⟨blocks, hblocks⟩ := h.tracks
    obtain ⟨blocks', hblocks'⟩ := h'.tracks
    refine hblocks.files_eq hblocks' (fun path => ⟨?_, ?_⟩)
      (hblocks.file_eq_of_contains hblocks' hle hge)
    · exact hblocks.file?_isSome_of_contains hge
    · exact hblocks'.file?_isSome_of_contains hle

/-- Two blocks that touch and one block over both contain each other and leave the same ranges,
though they count different statements. -/
theorem contains_is_inclusion_touching :
    let set := RangeSet.empty.insert ⟨⟨1, 1⟩, ⟨4, 1⟩⟩
    let other := (RangeSet.empty.insert ⟨⟨3, 1⟩, ⟨4, 1⟩⟩).insert ⟨⟨1, 1⟩, ⟨2, 5⟩⟩
    let first := empty.merge (blockProfile ⟨1, 1⟩ ⟨2, 5⟩ 1)
    let pieces := first.merge (blockProfile ⟨2, 5⟩ ⟨4, 1⟩ 1)
    let whole := empty.merge (blockProfile ⟨1, 1⟩ ⟨4, 1⟩ 3)
    set.Reachable ∧ other.Reachable ∧ (∀ p, other.contains p → set.contains p) ∧
      first.Reachable ∧ pieces.Reachable ∧ whole.Reachable ∧
      whole.contains pieces ∧ pieces.contains first ∧ whole.contains first ∧
      pieces.contains whole ∧ pieces.files = whole.files ∧ pieces ≠ whole := by
  intro set other first pieces whole
  have hset : set.Reachable := .insert _ .empty
  have hother : other.Reachable := .insert _ (.insert _ .empty)
  have hsuperset : set.isSuperset other := by decide
  have hfirst : first.Reachable := .merge _ .empty
  have hpieces : pieces.Reachable := .merge _ hfirst
  have hwhole : whole.Reachable := .merge _ .empty
  have hge : whole.contains pieces := by decide
  have hle : pieces.contains whole := by decide
  have hpart : pieces.contains first := by decide
  obtain ⟨hranges, _, _, htrans, hantisymm⟩ := contains_is_inclusion
  exact ⟨hset, hother, (hranges set other hset hother).2.mp hsuperset, hfirst, hpieces,
    hwhole, hge, hpart, htrans whole pieces first hwhole hpieces hfirst hge hpart, hle,
    hantisymm pieces whole hpieces hwhole hle hge, by decide⟩

end MergedCoverage

end CoverageReplay
