import CoverageReplay.Proofs.Splicing.Forest

/-!
# Passes keep and cut

A sweep returns a tree and a list of holes, which it makes separately. `SourceTree.pass_shrinks`
says that they fit together: the holes are those of pieces that the tree had, and without these it
is the tree that is returned. Several passes are then one (`SourceTree.passes_shrinks`).
-/

namespace CoverageReplay

/-! ## The forest of a tree -/

mutual

/-- The holes of the pieces of a body. -/
def Body.forest : Body → Forest Hole
  | .mk _ _ nodes _ => Body.nodesForest nodes

/-- The holes of some statements and the pieces in them. -/
def Body.nodesForest : List Node → Forest Hole
  | [] => .nil
  | n :: rest => .cons n.hole n.inner (Body.nodesForest rest)

/-- The holes of the pieces in a statement. -/
def Node.inner : Node → Forest Hole
  | .mk _ _ _ kind => kind.forest

/-- The holes of the pieces nested in a statement of some kind. -/
def NodeKind.forest : NodeKind → Forest Hole
  | .leaf => .nil
  | .binding _ _ => .nil
  | .block body _ => body.forest
  | .loop body _ => body.forest
  | .branch yes no _ => yes.forest.append no.forest
  | .select arms _ => NodeKind.armsForest arms

/-- The hole of an `else` branch and those of the pieces in it. -/
def Otherwise.forest : Otherwise → Forest Hole
  | .absent => .nil
  | .block hole body => .cons hole body.forest .nil
  | .chain hole n => .cons hole n.inner .nil

/-- The holes of some arms and the pieces in them. -/
def NodeKind.armsForest : List Arm → Forest Hole
  | [] => .nil
  | m :: rest => .cons m.hole m.inner (NodeKind.armsForest rest)

/-- The holes of the pieces in an arm. -/
def Arm.inner : Arm → Forest Hole
  | .flat _ _ _ => .nil
  | .block _ _ _ body => body.forest

end

/-- The holes of the pieces of some function bodies. -/
def SourceTree.bodiesForest : List Body → Forest Hole
  | [] => .nil
  | b :: rest => b.forest.append (bodiesForest rest)

/-- The holes of the pieces of a tree. -/
def SourceTree.forest (t : SourceTree) : Forest Hole :=
  bodiesForest t.bodies

/-- The holes of the pieces that a tree contains. -/
def SourceTree.places (t : SourceTree) : List Hole :=
  t.forest.labels

/-- A sweep moves no statement. -/
@[simp] theorem Node.hole_sweep (dead : Position → Bool) (n : Node) :
    (n.sweep dead).1.hole = n.hole := by
  cases n
  rfl

/-- A sweep moves no arm. -/
@[simp] theorem Arm.hole_sweep (dead : Position → Bool) (m : Arm) :
    (m.sweep dead).1.hole = m.hole := by
  cases m with
  | flat => rfl
  | block => rfl

/-! ## Sweeps -/

/-- The holes of two lists and one more are cut in whatever order they are listed. -/
theorem cut_holes (cuts more : List Hole) (h : Hole) :
    ((cuts ++ h :: more : List Hole) : Multiset Hole) = h ::ₘ (↑cuts + ↑more) := by
  rw [← Multiset.coe_add, ← Multiset.cons_coe, Multiset.add_cons]

/-- Dropping unused bindings cuts out what it drops. -/
theorem dropUnused_shrinks (nodes : List Node) :
    Shrinks (Body.nodesForest nodes) (Body.nodesForest (dropUnused nodes).1)
      ((dropUnused nodes).2.2 : Multiset Hole) := by
  induction nodes with
  | nil => exact .nil
  | cons n rest ih =>
    simp only [dropUnused]
    split
    next =>
      rw [cut_holes, Multiset.coe_nil, add_zero]
      exact .drop n.hole n.inner ih
    next =>
      have hkeep := Shrinks.keep (a := n.hole) (Shrinks.refl n.inner) ih
      rwa [zero_add] at hkeep

variable (dead : Position → Bool)

mutual

/-- A sweep over a body cuts out what it reports. -/
theorem Body.sweep_shrinks :
    ∀ b : Body, Shrinks b.forest (b.sweep dead).1.forest ((b.sweep dead).2 : Multiset Hole)
  | .mk _ _ nodes _ => by
    have hswept := (Body.sweepNodes_shrinks nodes).trans (dropUnused_shrinks _)
    rw [Multiset.coe_add] at hswept
    exact hswept

/-- What a sweep leaves of some statements is left of them when the holes are cut. -/
theorem Body.sweepNodes_shrinks :
    ∀ nodes : List Node,
      Shrinks (Body.nodesForest nodes) (Body.nodesForest (Body.sweepNodes dead nodes).1)
        ((Body.sweepNodes dead nodes).2 : Multiset Hole)
  | [] => .nil
  | n :: rest => by
    have hrest := Body.sweepNodes_shrinks rest
    have hn := Node.sweep_shrinks n
    simp only [Body.sweepNodes]
    split
    next => exact .drop n.hole n.inner hrest
    next =>
      split
      next =>
        rw [cut_holes]
        exact .cut hn hrest
      next =>
        have hkeep := Shrinks.keep (a := n.hole) hn hrest
        rw [Body.nodesForest, Body.nodesForest, Node.hole_sweep, ← Multiset.coe_add]
        exact hkeep

theorem Node.sweep_shrinks :
    ∀ n : Node, Shrinks n.inner (n.sweep dead).1.inner ((n.sweep dead).2 : Multiset Hole)
  | .mk _ _ _ kind => NodeKind.sweep_shrinks kind

theorem NodeKind.sweep_shrinks :
    ∀ k : NodeKind, Shrinks k.forest (k.sweep dead).1.forest ((k.sweep dead).2 : Multiset Hole)
  | .leaf => .nil
  | .binding _ _ => .nil
  | .block body _ => Body.sweep_shrinks body
  | .loop body _ => Body.sweep_shrinks body
  | .branch yes no _ => by
    have hboth := (Body.sweep_shrinks yes).append (Otherwise.sweep_shrinks no)
    rw [Multiset.coe_add] at hboth
    exact hboth
  | .select arms _ => NodeKind.sweepArms_shrinks arms

theorem Otherwise.sweep_shrinks :
    ∀ o : Otherwise,
      Shrinks o.forest (o.sweep dead).1.forest ((o.sweep dead).2.2 : Multiset Hole)
  | .absent => .nil
  | .block hole body => by
    have hbody := Body.sweep_shrinks body
    simp only [Otherwise.sweep]
    split
    next =>
      rw [cut_holes]
      exact .cut hbody .nil
    next =>
      have hkeep := Shrinks.keep (a := hole) hbody .nil
      rwa [add_zero] at hkeep
  | .chain hole n => by
    have hn := Node.sweep_shrinks n
    simp only [Otherwise.sweep]
    split
    next => exact .drop hole n.inner .nil
    next =>
      split
      next =>
        rw [cut_holes]
        exact .cut hn .nil
      next =>
        have hkeep := Shrinks.keep (a := hole) hn .nil
        rwa [add_zero] at hkeep

theorem NodeKind.sweepArms_shrinks :
    ∀ arms : List Arm,
      Shrinks (NodeKind.armsForest arms) (NodeKind.armsForest (NodeKind.sweepArms dead arms).1)
        ((NodeKind.sweepArms dead arms).2 : Multiset Hole)
  | [] => .nil
  | m :: rest => by
    have hrest := NodeKind.sweepArms_shrinks rest
    have hm := Arm.sweep_shrinks m
    simp only [NodeKind.sweepArms]
    split
    next => exact .drop m.hole m.inner hrest
    next =>
      split
      next =>
        rw [cut_holes]
        exact .cut hm hrest
      next =>
        have hkeep := Shrinks.keep (a := m.hole) hm hrest
        rw [NodeKind.armsForest, NodeKind.armsForest, Arm.hole_sweep, ← Multiset.coe_add]
        exact hkeep

theorem Arm.sweep_shrinks :
    ∀ m : Arm, Shrinks m.inner (m.sweep dead).1.inner ((m.sweep dead).2.2 : Multiset Hole)
  | .flat _ _ _ => .nil
  | .block _ _ _ body => Body.sweep_shrinks body

end

/-! ## Passes -/

namespace SourceTree

theorem sweepBodies_shrinks (bodies : List Body) :
    Shrinks (bodiesForest bodies) (bodiesForest (sweepBodies dead bodies).1)
      ((sweepBodies dead bodies).2 : Multiset Hole) := by
  induction bodies with
  | nil => exact .nil
  | cons b rest ih =>
    have hboth := (Body.sweep_shrinks dead b).append ih
    rw [Multiset.coe_add] at hboth
    exact hboth

/-- A pass leaves the tree without the pieces whose holes it adds. -/
theorem pass_shrinks (t : SourceTree) (m : MergedCoverage) :
    ∃ cuts : Multiset Hole, Shrinks t.forest (t.pass m).1.forest cuts ∧
      ((t.pass m).1.holes : Multiset Hole) = t.holes + cuts := by
  unfold pass
  split
  next => exact ⟨0, .refl _, (add_zero _).symm⟩
  next file _ => exact ⟨_, sweepBodies_shrinks file.isDead t.bodies, (Multiset.coe_add _ _).symm⟩

/-- The tree after one pass for each of some coverages. -/
def passes (t : SourceTree) (runs : List MergedCoverage) : SourceTree :=
  runs.foldl (fun t m => (t.pass m).1) t

/-- Passes leave the source as it is. -/
theorem source_passes (t : SourceTree) (runs : List MergedCoverage) :
    (t.passes runs).source = t.source := by
  induction runs generalizing t with
  | nil => rfl
  | cons m rest ih =>
    refine (ih (t.pass m).1).trans ?_
    unfold pass
    split
    next => rfl
    next => rfl

/-- The holes of a tree that no pass has gone over yet are, after some passes, those of the pieces
that were cut. -/
theorem passes_shrinks (t : SourceTree) (pristine : t.holes = []) (runs : List MergedCoverage) :
    Shrinks t.forest (t.passes runs).forest ((t.passes runs).holes : Multiset Hole) := by
  -- What carries the induction is that the holes so far lead from `t` to the tree so far.
  suffices h : ∀ (runs : List MergedCoverage) (u : SourceTree),
      Shrinks t.forest u.forest (u.holes : Multiset Hole) →
        Shrinks t.forest (u.passes runs).forest ((u.passes runs).holes : Multiset Hole) by
    refine h runs t ?_
    rw [pristine]
    exact .refl _
  intro runs
  induction runs with
  | nil => exact fun u hu => hu
  | cons m rest ih =>
    intro u hu
    obtain ⟨cuts, hpass, hholes⟩ := pass_shrinks u m
    refine ih (u.pass m).1 ?_
    rw [hholes]
    exact hu.trans hpass

end SourceTree

end CoverageReplay
