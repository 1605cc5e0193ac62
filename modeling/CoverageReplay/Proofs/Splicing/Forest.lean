import CoverageReplay.Pruning
import Mathlib.Algebra.Order.Group.Multiset

/-!
# What pruning does to the holes of a tree

As far as holes go, a tree is a `Forest`: each piece has a hole, the pieces nested in it, and those
after it. Whatever a pass removes and for whatever reason, it does one of two things with a piece:
it keeps it and goes on inside, or it cuts it, nested pieces and all, and leaves its hole. That is
the relation `Shrinks`, and `SourceTree.pass_shrinks` is all that later modules know of passes.

The pieces that a forest loses are more than those that are cut, since what is nested in a cut piece
is lost with it. `Shrinks.lost` and `Shrinks.cuts_of_nodup` relate the two.
-/

namespace CoverageReplay

/-- Trees of labels, as their first root, what is under it, and the other trees. -/
inductive Forest (α : Type) where
  | nil
  | cons (a : α) (inner rest : Forest α)

namespace Forest

variable {α β : Type}

/-- The trees of two forests. -/
def append : Forest α → Forest α → Forest α
  | nil, g => g
  | cons a inner rest, g => cons a inner (rest.append g)

/-- The forest with its labels changed. -/
def map (f : α → β) : Forest α → Forest β
  | nil => nil
  | cons a inner rest => cons (f a) (inner.map f) (rest.map f)

/-- The labels, each before those under it. -/
def labels : Forest α → List α
  | nil => []
  | cons a inner rest => a :: inner.labels ++ rest.labels

/-- Whether each label is related to all labels above it. -/
def Inside (R : α → α → Prop) : Forest α → Prop
  | nil => True
  | cons a inner rest => (∀ x ∈ inner.labels, R x a) ∧ inner.Inside R ∧ rest.Inside R

@[simp] theorem append_nil (g : Forest α) : g.append nil = g := by
  induction g with
  | nil => rfl
  | cons a inner rest _ ih => rw [append, ih]

/-- Two forests are mapped one by one. -/
theorem map_append (f : α → β) (g k : Forest α) :
    (g.append k).map f = (g.map f).append (k.map f) := by
  induction g with
  | nil => rfl
  | cons a inner rest _ ih => rw [append, map, ih, map, append]

/-- Two forests have the labels of both. -/
theorem labels_append (g k : Forest α) : (g.append k).labels = g.labels ++ k.labels := by
  induction g with
  | nil => rfl
  | cons a inner rest _ ih => simp [append, labels, ih]

@[simp] theorem labels_map (f : α → β) (g : Forest α) : (g.map f).labels = g.labels.map f := by
  induction g with
  | nil => rfl
  | cons a inner rest ih₁ ih₂ => simp [map, labels, ih₁, ih₂]

end Forest

/-! ## Keeping and cutting -/

/-- Whether a forest is left of another one when some pieces are cut. A piece that is cut may have
lost nested pieces before. -/
inductive Shrinks : Forest Hole → Forest Hole → Multiset Hole → Prop where
  | nil : Shrinks .nil .nil 0
  | keep {a : Hole} {inner inner' rest rest' : Forest Hole} {c d : Multiset Hole}
    (under : Shrinks inner inner' c) (after : Shrinks rest rest' d) :
    Shrinks (.cons a inner rest) (.cons a inner' rest') (c + d)
  | cut {a : Hole} {inner inner' rest rest' : Forest Hole} {c d : Multiset Hole}
    (under : Shrinks inner inner' c) (after : Shrinks rest rest' d) :
    Shrinks (.cons a inner rest) rest' (a ::ₘ (c + d))

namespace Shrinks

variable {f f' g g' k : Forest Hole} {c d : Multiset Hole}

/-- A forest shrinks to itself, and nothing is cut out. -/
theorem refl (f : Forest Hole) : Shrinks f f 0 := by
  induction f with
  | nil => exact nil
  | cons a inner rest ih₁ ih₂ => exact keep ih₁ ih₂

/-- A piece is cut as it is. -/
theorem drop (a : Hole) (inner : Forest Hole) (after : Shrinks g g' d) :
    Shrinks (.cons a inner g) g' (a ::ₘ d) := by
  have h := cut (a := a) (refl inner) after
  rwa [zero_add] at h

/-- Two forests that shrink shrink together. -/
theorem append (h₁ : Shrinks f f' c) (h₂ : Shrinks g g' d) :
    Shrinks (f.append g) (f'.append g') (c + d) := by
  induction h₁ with
  | nil => rwa [zero_add]
  | keep under after _ ih =>
    rw [add_assoc]
    exact keep under ih
  | cut under after _ ih =>
    rw [Multiset.cons_add, add_assoc]
    exact cut under ih

/-- What is cut out in two steps adds up. -/
theorem trans (h₁ : Shrinks f g c) (h₂ : Shrinks g k d) : Shrinks f k (c + d) := by
  induction h₁ generalizing k d with
  | nil => rwa [zero_add]
  | keep under after ih₁ ih₂ =>
    cases h₂ with
    | keep under' after' =>
      rw [add_add_add_comm]
      exact keep (ih₁ under') (ih₂ after')
    | cut under' after' =>
      rw [Multiset.add_cons, add_add_add_comm]
      exact cut (ih₁ under') (ih₂ after')
  | cut under after _ ih =>
    rw [Multiset.cons_add, add_assoc]
    exact cut under (ih h₂)

/-- What is cut was there. -/
theorem cuts_subset (h : Shrinks f g c) {x : Hole} (hx : x ∈ c) : x ∈ f.labels := by
  induction h with
  | nil => exact absurd hx (Multiset.notMem_zero x)
  | keep under after ih₁ ih₂ =>
    rcases Multiset.mem_add.mp hx with hx | hx
    · exact List.mem_append_left _ (List.mem_cons_of_mem _ (ih₁ hx))
    · exact List.mem_append_right _ (ih₂ hx)
  | cut under after ih₁ ih₂ =>
    rcases Multiset.mem_cons.mp hx with rfl | hx
    · exact List.mem_cons_self
    · rcases Multiset.mem_add.mp hx with hx | hx
      · exact List.mem_append_left _ (List.mem_cons_of_mem _ (ih₁ hx))
      · exact List.mem_append_right _ (ih₂ hx)

/-- The lost pieces are those that are not left. All cuts are among them, and each lies in a cut. -/
theorem lost {R : Hole → Hole → Prop} (self : ∀ x, R x x) (h : Shrinks f g c)
    (inside : f.Inside R) :
    ∃ lost : Multiset Hole, (f.labels : Multiset Hole) = g.labels + lost ∧ c ≤ lost ∧
      ∀ x ∈ lost, ∃ y ∈ c, R x y := by
  induction h with
  | nil => exact ⟨0, rfl, le_refl 0, by simp⟩
  | @keep a inner inner' rest rest' c d under after ih₁ ih₂ =>
    obtain ⟨lost₁, hlabels₁, hcuts₁, hin₁⟩ := ih₁ inside.2.1
    obtain ⟨lost₂, hlabels₂, hcuts₂, hin₂⟩ := ih₂ inside.2.2
    refine ⟨lost₁ + lost₂, ?_, add_le_add hcuts₁ hcuts₂, fun x hx => ?_⟩
    · simp only [Forest.labels, List.cons_append, ← Multiset.cons_coe, ← Multiset.coe_add, hlabels₁,
        hlabels₂, Multiset.cons_add]
      rw [add_add_add_comm]
    · rcases Multiset.mem_add.mp hx with hx | hx
      · obtain ⟨y, hy, hxy⟩ := hin₁ x hx
        exact ⟨y, Multiset.mem_add.mpr (Or.inl hy), hxy⟩
      · obtain ⟨y, hy, hxy⟩ := hin₂ x hx
        exact ⟨y, Multiset.mem_add.mpr (Or.inr hy), hxy⟩
  | @cut a inner inner' rest rest' c d under after ih₁ ih₂ =>
    obtain ⟨lost₁, hlabels₁, hcuts₁, _⟩ := ih₁ inside.2.1
    obtain ⟨lost₂, hlabels₂, hcuts₂, hin₂⟩ := ih₂ inside.2.2
    -- All that is under the cut piece is lost, what had been cut there before included.
    have hinner : c ≤ inner.labels := by
      rw [hlabels₁]
      exact hcuts₁.trans (Multiset.le_add_left _ _)
    refine ⟨a ::ₘ (inner.labels + lost₂), ?_, Multiset.cons_le_cons a (add_le_add hinner hcuts₂),
      fun x hx => ?_⟩
    · simp only [Forest.labels, List.cons_append, ← Multiset.cons_coe, ← Multiset.coe_add, hlabels₂,
        Multiset.add_cons]
      rw [add_left_comm]
    · rcases Multiset.mem_cons.mp hx with rfl | hx
      · exact ⟨x, Multiset.mem_cons_self .., self x⟩
      · rcases Multiset.mem_add.mp hx with hx | hx
        · exact ⟨a, Multiset.mem_cons_self .., inside.1 x hx⟩
        · obtain ⟨y, hy, hxy⟩ := hin₂ x hx
          exact ⟨y, Multiset.mem_cons_of_mem (Multiset.mem_add.mpr (Or.inr hy)), hxy⟩

/-- If no label occurs twice, the cuts are labels that are not left, and each label that is not left
lies in a cut. -/
theorem cuts_of_nodup {R : Hole → Hole → Prop} (self : ∀ x, R x x) (h : Shrinks f g c)
    (inside : f.Inside R) (distinct : f.labels.Nodup) :
    (∀ y ∈ c, y ∈ f.labels ∧ y ∉ g.labels) ∧
      ∀ x ∈ f.labels, x ∉ g.labels → ∃ y ∈ c, R x y := by
  obtain ⟨lost, hlabels, hcuts, hin⟩ := h.lost self inside
  have hsplit : ((g.labels : Multiset Hole) + lost).Nodup := hlabels ▸ distinct
  have hmem : ∀ x, x ∈ f.labels ↔ x ∈ g.labels ∨ x ∈ lost := by
    intro x
    rw [← Multiset.mem_coe, hlabels, Multiset.mem_add, Multiset.mem_coe]
  constructor
  · intro y hy
    have hlost : y ∈ lost := Multiset.mem_of_le hcuts hy
    refine ⟨(hmem y).mpr (Or.inr hlost), fun hleft => ?_⟩
    exact Multiset.disjoint_left.mp (Multiset.nodup_add.mp hsplit).2.2 hleft hlost
  · intro x hx hgone
    exact hin x (((hmem x).mp hx).resolve_left hgone)

end Shrinks

end CoverageReplay
