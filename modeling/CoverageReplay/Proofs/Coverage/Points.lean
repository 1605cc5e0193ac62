import CoverageReplay.Coverage.RangeSet
import Mathlib.Data.Set.Basic

/-!
# The positions of a range set

A range set stands for the positions in its ranges, `points`. Inserting a range adds exactly its
positions (`points_insert`), and asking for a position finds it exactly if it is among them
(`contains_iff_mem_points`).

Both look for a place by bisection, which finds it only if the ranges before the place differ from
those after it in the property that is asked for. That is so because the ranges of a set are
`Apart`: in text order, with gaps, none of them empty. Inserting keeps them apart (`apart_insert`).
-/

namespace CoverageReplay

variable {α : Type}

/-! ## Bisection -/

/-- As long as the place lies between the two ends, halving comes to it. -/
theorem bisect_append {holds : α → Bool} {front back : List α} (hfront : ∀ x ∈ front, holds x)
    (hback : ∀ x ∈ back, holds x = false) :
    ∀ rounds low high, low ≤ front.length → front.length ≤ high →
      high ≤ (front ++ back).length → high - low ≤ rounds →
      bisect holds (front ++ back) rounds low high = front.length
  | 0, low, high, hlow, hhigh, _, hrounds => by
    unfold bisect
    omega
  | rounds + 1, low, high, hlow, hhigh, hlength, hrounds => by
    unfold bisect
    by_cases hlt : low < high
    · rw [if_pos hlt]
      dsimp only
      by_cases hmiddle : low + (high - low) / 2 < front.length
      · -- The middle is in front of the place, so the place is behind it.
        have hget : (front ++ back)[low + (high - low) / 2]?.any holds = true := by
          rw [List.getElem?_append_left hmiddle, List.getElem?_eq_getElem hmiddle]
          exact hfront _ (List.getElem_mem hmiddle)
        rw [if_pos hget]
        exact bisect_append hfront hback rounds _ _ (by omega) hhigh hlength (by omega)
      · have hget : (front ++ back)[low + (high - low) / 2]?.any holds = false := by
          have hinside : low + (high - low) / 2 - front.length < back.length := by
            rw [List.length_append] at hlength
            omega
          rw [List.getElem?_append_right (by omega), List.getElem?_eq_getElem hinside]
          exact hback _ (List.getElem_mem hinside)
        rw [hget, if_neg Bool.false_ne_true]
        exact bisect_append hfront hback rounds _ _ hlow (by omega) (by omega) (by omega)
    · rw [if_neg hlt]
      omega

/-- Bisection finds where the elements with a property end. -/
theorem partitionPoint_append {holds : α → Bool} {front back : List α}
    (hfront : ∀ x ∈ front, holds x) (hback : ∀ x ∈ back, holds x = false) :
    partitionPoint holds (front ++ back) = front.length := by
  unfold partitionPoint
  exact bisect_append hfront hback _ _ _ (Nat.zero_le _)
    (by rw [List.length_append]; exact Nat.le_add_right _ _) (Nat.le_refl _) (Nat.sub_le _ _)

/-- A list in which a property never comes back splits where it ends. -/
theorem exists_partition {holds : α → Bool} {xs : List α}
    (sorted : xs.Pairwise fun x y => holds y → holds x) :
    ∃ front back, xs = front ++ back ∧ (∀ x ∈ front, holds x) ∧ ∀ x ∈ back, holds x = false := by
  induction xs with
  | nil => exact ⟨[], [], rfl, by simp, by simp⟩
  | cons x xs ih =>
    rw [List.pairwise_cons] at sorted
    obtain ⟨hx, hxs⟩ := sorted
    by_cases hholds : holds x
    · obtain ⟨front, back, rfl, hfront, hback⟩ := ih hxs
      exact ⟨x :: front, back, rfl, List.forall_mem_cons.mpr ⟨hholds, hfront⟩, hback⟩
    · -- No later element has the property either, for it would come back.
      refine ⟨[], x :: xs, rfl, by
        simp, List.forall_mem_cons.mpr ⟨Bool.eq_false_iff.mpr hholds, ?_⟩⟩
      intro y hy
      exact Bool.eq_false_iff.mpr fun h => hholds (hx y hy h)

/-! ## Ranges apart -/

/-- The earlier of two positions has the smaller rank. -/
theorem Position.rank_min (a b : Position) : (a.min b).rank = min a.rank b.rank := by
  unfold Position.min
  split
  next h =>
    rw [Position.lt_iff_rank] at h
    omega
  next h =>
    rw [Position.lt_iff_rank] at h
    omega

/-- The later of two positions has the greater rank. -/
theorem Position.rank_max (a b : Position) : (a.max b).rank = max a.rank b.rank := by
  unfold Position.max
  split
  next h =>
    rw [Position.lt_iff_rank] at h
    omega
  next h =>
    rw [Position.lt_iff_rank] at h
    omega

/-- The positions inside a range. -/
def SourceRange.points (r : SourceRange) : Set Position :=
  {p | r.start ≤ p ∧ p < r.stop}

/-- A range holds the positions between its ends, the first end included. -/
theorem SourceRange.mem_points {r : SourceRange} {p : Position} :
    p ∈ r.points ↔ r.start.rank ≤ p.rank ∧ p.rank < r.stop.rank := by
  rw [← Position.le_iff_rank, ← Position.lt_iff_rank]
  exact Iff.rfl

/-- An empty range has no positions. -/
theorem SourceRange.points_of_isEmpty {r : SourceRange} (h : r.isEmpty) : r.points = ∅ := by
  rw [SourceRange.isEmpty_iff, Position.le_iff_rank] at h
  refine Set.eq_empty_iff_forall_notMem.mpr fun p hp => ?_
  rw [SourceRange.mem_points] at hp
  omega

/-- The positions inside some ranges. -/
def rangePoints (ranges : List SourceRange) : Set Position :=
  {p | ∃ r ∈ ranges, p ∈ r.points}

@[simp] theorem rangePoints_nil : rangePoints [] = ∅ := by
  simp [rangePoints]

@[simp] theorem rangePoints_cons (r : SourceRange) (ranges : List SourceRange) :
    rangePoints (r :: ranges) = r.points ∪ rangePoints ranges := by
  ext p
  simp [rangePoints]

/-- The points of two lists of ranges are those of both. -/
@[simp] theorem rangePoints_append (ranges more : List SourceRange) :
    rangePoints (ranges ++ more) = rangePoints ranges ∪ rangePoints more := by
  ext p
  simp [rangePoints, or_and_right, exists_or]

/-- The positions inside some ranges are those that one of the ranges contains. -/
theorem mem_rangePoints {ranges : List SourceRange} {p : Position} :
    p ∈ rangePoints ranges ↔ ∃ r ∈ ranges, r.contains p := by
  simp only [SourceRange.contains_iff]
  exact Iff.rfl

/-- Whether ranges follow each other with gaps between them, and none is empty. -/
structure Apart (ranges : List SourceRange) : Prop where
  nonempty : ∀ r ∈ ranges, r.start.rank < r.stop.rank
  gaps : ranges.Pairwise fun r s => r.stop.rank < s.start.rank

namespace Apart

variable {r : SourceRange} {ranges front back : List SourceRange}

theorem nil : Apart [] := ⟨by simp, List.Pairwise.nil⟩

/-- Ranges lie apart if the first one ends before all others begin, and these lie apart. -/
theorem cons_iff : Apart (r :: ranges) ↔
    r.start.rank < r.stop.rank ∧ (∀ s ∈ ranges, r.stop.rank < s.start.rank) ∧ Apart ranges := by
  constructor
  · intro h
    obtain ⟨hnonempty, hgaps⟩ := h
    rw [List.forall_mem_cons] at hnonempty
    rw [List.pairwise_cons] at hgaps
    exact ⟨hnonempty.1, hgaps.1, hnonempty.2, hgaps.2⟩
  · intro h
    obtain ⟨hr, hgap, hnonempty, hgaps⟩ := h
    exact ⟨List.forall_mem_cons.mpr ⟨hr, hnonempty⟩, List.pairwise_cons.mpr ⟨hgap, hgaps⟩⟩

/-- Two lists of ranges lie apart if each does and the first ends before the second begins. -/
theorem append_iff : Apart (front ++ back) ↔
    Apart front ∧ Apart back ∧ ∀ r ∈ front, ∀ s ∈ back, r.stop.rank < s.start.rank := by
  constructor
  · intro h
    obtain ⟨hnonempty, hgaps⟩ := h
    rw [List.forall_mem_append] at hnonempty
    rw [List.pairwise_append] at hgaps
    exact ⟨⟨hnonempty.1, hgaps.1⟩, ⟨hnonempty.2, hgaps.2.1⟩, hgaps.2.2⟩
  · intro h
    obtain ⟨hfront, hback, hbetween⟩ := h
    exact ⟨List.forall_mem_append.mpr ⟨hfront.nonempty, hback.nonempty⟩,
      List.pairwise_append.mpr ⟨hfront.gaps, hback.gaps, hbetween⟩⟩

/-- Where a range ends early, those before it do too. -/
theorem partition (h : Apart ranges) (holds : SourceRange → Bool)
    (early : ∀ r s : SourceRange, r.stop.rank < s.stop.rank → holds s → holds r) :
    ∃ front back, ranges = front ++ back ∧ partitionPoint holds ranges = front.length ∧
      (∀ r ∈ front, holds r) ∧ ∀ r ∈ back, holds r = false := by
  have hsorted : ranges.Pairwise fun r s => holds s → holds r := by
    refine h.gaps.imp_of_mem fun {r s} _ hs hgap => ?_
    have hnonempty := h.nonempty s hs
    exact early r s (by omega)
  obtain ⟨front, back, rfl, hfront, hback⟩ := exists_partition hsorted
  exact ⟨front, back, rfl, partitionPoint_append hfront hback, hfront, hback⟩

end Apart

namespace RangeSet

variable {set : RangeSet} {r : SourceRange} {p : Position}

/-! ## Inserting -/

/-- The range from the start of the earlier to the end of the later of two ranges. -/
def fuse (r s : SourceRange) : SourceRange :=
  ⟨r.start.min s.start, r.stop.max s.stop⟩

theorem rank_start_fuse (r s : SourceRange) :
    (fuse r s).start.rank = min r.start.rank s.start.rank :=
  Position.rank_min _ _

theorem rank_stop_fuse (r s : SourceRange) : (fuse r s).stop.rank = max r.stop.rank s.stop.rank :=
  Position.rank_max _ _

/-- Between two ranges that overlap or touch lies no position. -/
theorem points_fuse {r s : SourceRange} (hrs : r.start.rank ≤ s.stop.rank)
    (hsr : s.start.rank ≤ r.stop.rank) : (fuse r s).points = r.points ∪ s.points := by
  ext p
  rw [Set.mem_union, SourceRange.mem_points, SourceRange.mem_points, SourceRange.mem_points,
    rank_start_fuse, rank_stop_fuse]
  omega

/-- Absorbing fuses a range with those that it overlaps or touches, of ranges that end at its start
or later, and leaves the others alone. What is before all of them stays before the result. -/
theorem absorb_spec {ranges : List SourceRange} {r : SourceRange} (h : Apart ranges)
    (hr : r.start.rank < r.stop.rank) (hreach : ∀ s ∈ ranges, r.start.rank ≤ s.stop.rank) :
    Apart (absorb r ranges) ∧ rangePoints (absorb r ranges) = r.points ∪ rangePoints ranges ∧
      ∀ bound, bound < r.start.rank → (∀ s ∈ ranges, bound < s.start.rank) →
        ∀ s ∈ absorb r ranges, bound < s.start.rank := by
  -- The range grows while it absorbs, so the induction is for every range that reaches this far.
  induction ranges generalizing r with
  | nil =>
    refine ⟨Apart.cons_iff.mpr ⟨hr, by simp, Apart.nil⟩, by simp [absorb], ?_⟩
    intro bound hbound _ s hs
    rw [List.mem_singleton.mp hs]
    exact hbound
  | cons s rest ih =>
    obtain ⟨hs, hgap, hrest⟩ := Apart.cons_iff.mp h
    have hrs : r.start.rank ≤ s.stop.rank := hreach s List.mem_cons_self
    -- Ranges that only touch are fused too; this is what keeps a gap between those that are left.
    by_cases htouch : s.start.rank ≤ r.stop.rank
    · have habsorb : absorb r (s :: rest) = absorb (fuse r s) rest := by
        rw [absorb, if_pos (Position.le_iff_rank.mpr htouch), fuse]
      rw [habsorb]
      have hstart := rank_start_fuse r s
      have hstop := rank_stop_fuse r s
      have hfused : ∀ t ∈ rest, (fuse r s).start.rank ≤ t.stop.rank := by
        intro t ht
        have htgap := hgap t ht
        have htrange := hrest.nonempty t ht
        omega
      obtain ⟨hapart, hpoints, hbounds⟩ := ih (r := fuse r s) hrest (by omega) hfused
      refine ⟨hapart, ?_, ?_⟩
      · rw [hpoints, rangePoints_cons, points_fuse hrs htouch, Set.union_assoc]
      · intro bound hbound hall
        have hsbound := hall s List.mem_cons_self
        exact hbounds bound (by omega) fun t ht => hall t (List.mem_cons_of_mem s ht)
    · have habsorb : absorb r (s :: rest) = r :: s :: rest := by
        rw [absorb, if_neg fun hle => htouch (Position.le_iff_rank.mp hle)]
      rw [habsorb]
      refine ⟨Apart.cons_iff.mpr ⟨hr, ?_, h⟩, rangePoints_cons _ _, ?_⟩
      · intro t ht
        rcases List.mem_cons.mp ht with rfl | ht
        · omega
        · have htgap := hgap t ht
          omega
      · intro bound hbound hall t ht
        rcases List.mem_cons.mp ht with rfl | ht
        · exact hbound
        · exact hall t ht

/-- The positions of a set. -/
def points (set : RangeSet) : Set Position :=
  rangePoints set.ranges

theorem apart_empty : Apart empty.ranges := Apart.nil

@[simp] theorem points_empty : empty.points = ∅ := rangePoints_nil

/-- Inserting keeps ranges apart and adds the positions of the range. -/
theorem insert_spec (h : Apart set.ranges) (r : SourceRange) :
    Apart (set.insert r).ranges ∧ (set.insert r).points = r.points ∪ set.points := by
  unfold insert
  by_cases hempty : r.isEmpty
  · rw [if_pos hempty, SourceRange.points_of_isEmpty hempty, Set.empty_union]
    exact ⟨h, rfl⟩
  · rw [if_neg hempty]
    rw [SourceRange.isEmpty_iff, Position.le_iff_rank] at hempty
    -- The ranges that end before the new one stay; it absorbs those that it reaches from the
    -- others.
    obtain ⟨front, back, hranges, hplace, hfront, hback⟩ :=
      h.partition (fun s => decide (s.stop < r.start)) (by
        intro s t hst ht
        rw [decide_eq_true_eq, Position.lt_iff_rank] at ht ⊢
        omega)
    have hbefore : ∀ s ∈ front, s.stop.rank < r.start.rank := by
      intro s hs
      have hlt := hfront s hs
      rwa [decide_eq_true_eq, Position.lt_iff_rank] at hlt
    have hreach : ∀ s ∈ back, r.start.rank ≤ s.stop.rank := by
      intro s hs
      have hnlt := hback s hs
      rw [decide_eq_false_iff_not, Position.lt_iff_rank] at hnlt
      omega
    dsimp only
    rw [hplace, hranges, List.take_left, List.drop_left]
    rw [hranges] at h
    obtain ⟨hapart, haparts, hbetween⟩ := Apart.append_iff.mp h
    obtain ⟨habsorbed, hpoints, hbounds⟩ := absorb_spec haparts (by omega) hreach
    constructor
    · refine Apart.append_iff.mpr ⟨hapart, habsorbed, fun s hs => ?_⟩
      exact hbounds _ (hbefore s hs) (hbetween s hs)
    · simp only [points, hranges, rangePoints_append, hpoints]
      exact Set.union_left_comm _ _ _

theorem apart_insert (h : Apart set.ranges) (r : SourceRange) : Apart (set.insert r).ranges :=
  (insert_spec h r).1

theorem points_insert (h : Apart set.ranges) (r : SourceRange) :
    (set.insert r).points = r.points ∪ set.points :=
  (insert_spec h r).2

/-! ## Asking -/

/-- The range that is looked up for a position is the first of those that end after it. -/
theorem after?_spec (h : Apart set.ranges) (p : Position) :
    ∃ front back, set.ranges = front ++ back ∧ set.after? p = back.head? ∧
      (∀ s ∈ front, s.stop.rank ≤ p.rank) ∧ ∀ s ∈ back, p.rank < s.stop.rank := by
  obtain ⟨front, back, hranges, hplace, hfront, hback⟩ :=
    h.partition (fun s => decide (s.stop ≤ p)) (by
      intro s t hst ht
      rw [decide_eq_true_eq, Position.le_iff_rank] at ht ⊢
      omega)
  refine ⟨front, back, hranges, ?_, fun s hs => ?_, fun s hs => ?_⟩
  · unfold after?
    rw [hplace, hranges, List.getElem?_append_right (Nat.le_refl _), Nat.sub_self,
      List.head?_eq_getElem?]
  · have hle := hfront s hs
    rwa [decide_eq_true_eq, Position.le_iff_rank] at hle
  · have hnle := hback s hs
    rw [decide_eq_false_iff_not, Position.le_iff_rank] at hnle
    omega

/-- A position is found exactly if it lies in a range of the set. -/
theorem contains_iff_mem_points (h : Apart set.ranges) : set.contains p ↔ p ∈ set.points := by
  obtain ⟨front, back, hranges, hafter, hfront, hback⟩ := after?_spec h p
  have hfrontPoints : p ∉ rangePoints front := by
    intro hp
    obtain ⟨s, hs, hp⟩ := hp
    have hends := hfront s hs
    rw [SourceRange.mem_points] at hp
    omega
  unfold contains points
  rw [hafter, hranges, rangePoints_append, Set.mem_union, or_iff_right hfrontPoints]
  rw [hranges] at h
  obtain ⟨_, haparts, _⟩ := Apart.append_iff.mp h
  cases back with
  | nil => simp
  | cons s rest =>
    -- The first range that ends after the position is the only one that can contain it.
    obtain ⟨_, hgap, _⟩ := Apart.cons_iff.mp haparts
    have hends := hback s List.mem_cons_self
    have hrest : p ∉ rangePoints rest := by
      intro hp
      obtain ⟨t, ht, hp⟩ := hp
      have htgap := hgap t ht
      rw [SourceRange.mem_points] at hp
      omega
    rw [rangePoints_cons, Set.mem_union, or_iff_left hrest, SourceRange.mem_points,
      List.head?_cons, Option.any_some, decide_eq_true_eq, Position.le_iff_rank]
    omega

end RangeSet

end CoverageReplay
