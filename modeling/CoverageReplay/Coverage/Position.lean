/-!
# Positions and ranges of a source text

A position is a line and a column, both counted from one, the column in characters. Positions are
ordered as in the text: by line, then by column. `Position.lt_iff_rank` embeds this order into the
natural numbers, so order facts about positions are facts of arithmetic.

A range is half open, `[start, stop)`.
-/

namespace CoverageReplay

/-- A line and a column of a source text. -/
structure Position where
  line : UInt32
  column : UInt32
  deriving DecidableEq, Repr, Inhabited

namespace Position

/-- The place of a position in the order of all positions. -/
def rank (p : Position) : Nat :=
  p.line.toNat * 4294967296 + p.column.toNat

instance : LT Position where
  lt a b := a.line < b.line ∨ a.line = b.line ∧ a.column < b.column

instance : LE Position where
  le a b := ¬ b < a

instance (a b : Position) : Decidable (a < b) :=
  inferInstanceAs (Decidable (a.line < b.line ∨ a.line = b.line ∧ a.column < b.column))

instance (a b : Position) : Decidable (a ≤ b) :=
  inferInstanceAs (Decidable (¬ b < a))

/-- Positions are in the order of their ranks. -/
theorem lt_iff_rank {a b : Position} : a < b ↔ a.rank < b.rank := by
  have ha := a.column.toNat_lt
  have hb := b.column.toNat_lt
  show a.line < b.line ∨ a.line = b.line ∧ a.column < b.column ↔ _
  rw [UInt32.lt_iff_toNat_lt, UInt32.lt_iff_toNat_lt, ← UInt32.toNat_inj]
  unfold rank
  omega

theorem le_iff_rank {a b : Position} : a ≤ b ↔ a.rank ≤ b.rank := by
  show ¬ b < a ↔ _
  rw [lt_iff_rank]
  omega

/-- A position is known by its rank. -/
theorem rank_inj {a b : Position} : a.rank = b.rank ↔ a = b := by
  have ha := a.column.toNat_lt
  have hb := b.column.toNat_lt
  constructor
  · intro h
    unfold rank at h
    obtain ⟨al, ac⟩ := a
    obtain ⟨bl, bc⟩ := b
    have hl : al = bl := UInt32.toNat_inj.1 (by simp only at *; omega)
    have hc : ac = bc := UInt32.toNat_inj.1 (by simp only at *; omega)
    rw [hl, hc]
  · rintro rfl
    rfl

/-- The earlier of two positions. -/
protected def min (a b : Position) : Position :=
  if b < a then b else a

/-- The later of two positions. -/
protected def max (a b : Position) : Position :=
  if a < b then b else a

/-- The order of two positions. -/
def order (a b : Position) : Ordering :=
  if a < b then .lt else if b < a then .gt else .eq

/-- The written form, `line.column`. -/
def text (p : Position) : String :=
  toString p.line.toNat ++ "." ++ toString p.column.toNat

end Position

/-- A half-open range of positions. -/
structure SourceRange where
  /-- The first position inside. -/
  start : Position
  /-- The first position past the end. -/
  stop : Position
  deriving DecidableEq, Repr, Inhabited

namespace SourceRange

/-- Whether a position lies inside. -/
def contains (r : SourceRange) (p : Position) : Bool :=
  decide (r.start ≤ p) && decide (p < r.stop)

/-- Whether no position lies inside. -/
def isEmpty (r : SourceRange) : Bool :=
  decide (r.stop ≤ r.start)

instance : LT SourceRange where
  lt a b := a.start < b.start ∨ a.start = b.start ∧ a.stop < b.stop

instance (a b : SourceRange) : Decidable (a < b) :=
  inferInstanceAs (Decidable (a.start < b.start ∨ a.start = b.start ∧ a.stop < b.stop))

theorem contains_iff {r : SourceRange} {p : Position} :
    r.contains p = true ↔ r.start ≤ p ∧ p < r.stop := by
  simp [contains]

theorem isEmpty_iff {r : SourceRange} : r.isEmpty = true ↔ r.stop ≤ r.start := by
  simp [isEmpty]

end SourceRange

end CoverageReplay
