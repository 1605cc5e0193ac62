import CoverageReplay.Coverage.Position

/-!
# Sets of positions as coalesced ranges

A `RangeSet` keeps its ranges in text order and apart: ranges that overlap or touch are fused when
one is inserted, so the list of ranges is determined by the positions it covers. Empty ranges leave
no trace.

The place of a range or of a position among the ranges is found by bisection (`partitionPoint`),
which relies on the order of the ranges.
-/

namespace CoverageReplay

variable {α : Type}

/-- The place from `low` to `high` where the elements with a property end, found by halving the
stretch in at most `rounds` rounds. -/
def bisect (holds : α → Bool) (xs : List α) : (rounds low high : Nat) → Nat
  | 0, low, _ => low
  | rounds + 1, low, high =>
    if low < high then
      let middle := low + (high - low) / 2
      if xs[middle]?.any holds then bisect holds xs rounds (middle + 1) high
      else bisect holds xs rounds low middle
    else low

/-- The number of elements with a property, if those with it come before those without. -/
def partitionPoint (holds : α → Bool) (xs : List α) : Nat :=
  bisect holds xs xs.length 0 xs.length

/-- A set of positions, kept as ranges in text order with gaps between them. -/
structure RangeSet where
  ranges : List SourceRange
  deriving DecidableEq, Repr, Inhabited

namespace RangeSet

/-- The set without positions. -/
def empty : RangeSet := ⟨[]⟩

/-- Fuses `r` with the leading ranges that begin at or before its end. -/
def absorb (r : SourceRange) : List SourceRange → List SourceRange
  | [] => [r]
  | s :: rest =>
    if s.start ≤ r.stop then absorb ⟨r.start.min s.start, r.stop.max s.stop⟩ rest
    else r :: s :: rest

/-- Adds the positions of a range. -/
def insert (set : RangeSet) (r : SourceRange) : RangeSet :=
  if r.isEmpty then set
  else
    let place := partitionPoint (fun s => decide (s.stop < r.start)) set.ranges
    ⟨set.ranges.take place ++ absorb r (set.ranges.drop place)⟩

/-- The set of the positions of some ranges. -/
def ofList (ranges : List SourceRange) : RangeSet :=
  ranges.foldl insert empty

/-- The first range that ends after a position. -/
def after? (set : RangeSet) (p : Position) : Option SourceRange :=
  set.ranges[partitionPoint (fun s => decide (s.stop ≤ p)) set.ranges]?

/-- Whether a position is in the set. -/
def contains (set : RangeSet) (p : Position) : Bool :=
  (set.after? p).any fun s => decide (s.start ≤ p)

/-- Whether one range of the set holds all of `r`. -/
def covers (set : RangeSet) (r : SourceRange) : Bool :=
  r.isEmpty || (set.after? r.start).any fun s =>
    decide (s.start ≤ r.start) && decide (r.stop ≤ s.stop)

/-- Whether every range of `other` is covered. -/
def isSuperset (set other : RangeSet) : Bool :=
  other.ranges.all set.covers

end RangeSet

end CoverageReplay
