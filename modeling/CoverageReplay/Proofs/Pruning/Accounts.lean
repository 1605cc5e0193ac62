import CoverageReplay.Proofs.Except
import CoverageReplay.Proofs.Pruning.Growth
import CoverageReplay.Proofs.Splicing.Places

/-!
# Accounts of what passes remove

A pass reports how many pieces it removed, and that number is all that pruning goes by: it repeats
passes until the number is zero. `SourceTree.passes_account` says that the number can be trusted.
There are as many new holes, each that of a piece which the tree had; the count of pieces falls by
at least as much, since a piece that is cut weighs at least one and takes what is nested in it
along; and where the number is zero, nothing has changed at all.

A step of the account is one pass (`SourceTree.pass_loses`). Accounts of runs are put together from
steps (`SourceTree.Loses.trans`).
-/

namespace CoverageReplay

/-! ## Cuts are taken from what was there -/

section Cuts

variable {f g : Forest Hole} {c : Multiset Hole}

theorem Forest.inside_of_forall {R : Hole → Hole → Prop} (h : ∀ x y, R x y) (f : Forest Hole) :
    f.Inside R := by
  induction f with
  | nil => trivial
  | cons a inner rest ih₁ ih₂ => exact ⟨fun x _ => h x a, ih₁, ih₂⟩

/-- What is left and what is cut were there together. -/
theorem Shrinks.labels_add_cuts_le (h : Shrinks f g c) :
    (g.labels : Multiset Hole) + c ≤ f.labels := by
  obtain ⟨lost, hlabels, hcuts, _⟩ :=
    h.lost (R := fun _ _ => True) (fun _ => trivial) (f.inside_of_forall fun _ _ => trivial)
  rw [hlabels]
  exact add_le_add_right hcuts _

end Cuts

/-! ## Sweeps and the count -/

/-- A statement counts for at least one. -/
theorem Node.one_le_count (n : Node) : 1 ≤ n.count := by
  obtain ⟨start, hole, idents, kind⟩ := n
  rw [Node.count]
  omega

/-- An arm counts for at least one. -/
theorem Arm.one_le_count (m : Arm) : 1 ≤ m.count := by
  cases m with
  | flat start hole idents => rw [Arm.count]
  | block start hole idents body =>
    rw [Arm.count]
    omega

/-- Dropping unused bindings makes no more holes than it takes from the count. -/
theorem countNodes_dropUnused_le (nodes : List Node) :
    Body.countNodes (dropUnused nodes).1 + (dropUnused nodes).2.2.length ≤
      Body.countNodes nodes := by
  induction nodes with
  | nil => simp [dropUnused]
  | cons n rest ih =>
    have hn := n.one_le_count
    rcases hdropped : dropUnused rest with ⟨kept, later, cuts⟩
    simp only [hdropped] at ih
    simp only [dropUnused, hdropped, Body.countNodes]
    split
    next =>
      simp only [List.length_append, List.length_singleton]
      omega
    next =>
      simp only [Body.countNodes]
      omega

section Count

variable (dead : Position → Bool)

mutual

/-- A sweep makes no more holes in a body than it takes from its count. -/
theorem Body.count_sweep_le : ∀ b : Body, (b.sweep dead).1.count + (b.sweep dead).2.length ≤ b.count
  | .mk _ _ nodes _ => by
    have hswept := Body.countNodes_sweepNodes_le nodes
    have hdrop := countNodes_dropUnused_le (Body.sweepNodes dead nodes).1
    rcases hdropped : dropUnused (Body.sweepNodes dead nodes).1 with ⟨kept, later, cuts⟩
    simp only [hdropped] at hdrop
    simp only [Body.sweep, hdropped, Body.count, List.length_append]
    omega

/-- The count of what a sweep leaves of some statements falls by at least one for each hole. -/
theorem Body.countNodes_sweepNodes_le :
    ∀ nodes : List Node,
      Body.countNodes (Body.sweepNodes dead nodes).1 + (Body.sweepNodes dead nodes).2.length ≤
        Body.countNodes nodes
  | [] => by simp [Body.sweepNodes]
  | n :: rest => by
    have hrest := Body.countNodes_sweepNodes_le rest
    have hn := Node.count_sweep_le n
    have hone := n.one_le_count
    -- What is left of a statement when it is cut still weighs one, for its own hole.
    have hleft := (n.sweep dead).1.one_le_count
    simp only [Body.sweepNodes, Body.countNodes]
    split
    next =>
      simp only [List.length_cons]
      omega
    next =>
      split
      next =>
        simp only [List.length_append, List.length_cons]
        omega
      next =>
        simp only [Body.countNodes, List.length_append]
        omega

theorem Node.count_sweep_le : ∀ n : Node, (n.sweep dead).1.count + (n.sweep dead).2.length ≤ n.count
  | .mk _ _ _ kind => by
    have hkind := NodeKind.count_sweep_le kind
    simp only [Node.sweep, Node.count]
    omega

theorem NodeKind.count_sweep_le :
    ∀ k : NodeKind, (k.sweep dead).1.count + (k.sweep dead).2.length ≤ k.count
  | .leaf => Nat.le_refl 0
  | .binding _ _ => Nat.le_refl 0
  | .block body _ => Body.count_sweep_le body
  | .loop body _ => Body.count_sweep_le body
  | .branch yes no _ => by
    have hyes := Body.count_sweep_le yes
    have hno := Otherwise.count_sweep_le no
    rcases hswept : no.sweep dead with ⟨left, lost, cuts⟩
    simp only [hswept] at hno
    simp only [NodeKind.sweep, hswept, NodeKind.count, List.length_append]
    omega
  | .select arms _ => NodeKind.countArms_sweepArms_le arms

theorem Otherwise.count_sweep_le :
    ∀ o : Otherwise, (o.sweep dead).1.count + (o.sweep dead).2.2.length ≤ o.count
  | .absent => Nat.le_refl 0
  | .block hole body => by
    have hbody := Body.count_sweep_le body
    simp only [Otherwise.sweep]
    -- An `else` block goes with all that is left in it; otherwise its statements account for what
    -- they lose.
    split
    next =>
      simp only [Otherwise.count, List.length_append, List.length_singleton]
      omega
    next =>
      simp only [Otherwise.count]
      omega
  | .chain hole n => by
    have hn := Node.count_sweep_le n
    simp only [Otherwise.sweep]
    split
    next =>
      simp only [Otherwise.count, List.length_singleton]
      omega
    next =>
      split
      next =>
        simp only [Otherwise.count, List.length_append, List.length_singleton]
        omega
      next =>
        simp only [Otherwise.count]
        omega

theorem NodeKind.countArms_sweepArms_le :
    ∀ arms :
      List Arm, NodeKind.countArms
      (NodeKind.sweepArms dead arms).1 + (NodeKind.sweepArms dead arms).2.length ≤
      NodeKind.countArms arms
  | [] => by simp [NodeKind.sweepArms]
  | m :: rest => by
    have hrest := NodeKind.countArms_sweepArms_le rest
    have hm := Arm.count_sweep_le m
    have hone := m.one_le_count
    rcases hswept : m.sweep dead with ⟨left, emptied, cuts⟩
    simp only [hswept] at hm
    have hleft := left.one_le_count
    simp only [NodeKind.sweepArms, hswept, NodeKind.countArms]
    split
    next =>
      simp only [List.length_cons]
      omega
    next =>
      split
      next =>
        simp only [List.length_append, List.length_cons]
        omega
      next =>
        simp only [NodeKind.countArms, List.length_append]
        omega

theorem Arm.count_sweep_le : ∀ m : Arm, (m.sweep dead).1.count + (m.sweep dead).2.2.length ≤ m.count
  | .flat _ _ _ => Nat.le_refl 1
  | .block _ _ _ body => by
    have hbody := Body.count_sweep_le body
    simp only [Arm.sweep, Arm.count]
    omega

end

/-- A sweep makes no more holes in a file than it takes from its count. -/
theorem SourceTree.count_sweepBodies_le (bodies : List Body) :
    total ((sweepBodies dead bodies).1.map Body.count) + (sweepBodies dead bodies).2.length ≤
      total (bodies.map Body.count) := by
  induction bodies with
  | nil => exact Nat.le_refl 0
  | cons b rest ih =>
    have hb := Body.count_sweep_le dead b
    simp only [sweepBodies, List.map_cons, total, List.length_append]
    omega

end Count

/-- A file keeps all its bodies. -/
theorem SourceTree.length_sweepBodies (dead : Position → Bool) (bodies : List Body) :
    (sweepBodies dead bodies).1.length = bodies.length := by
  induction bodies with
  | nil => rfl
  | cons b rest ih => exact congrArg (· + 1) ih

/-! ## Passes -/

namespace SourceTree

/-- Whether a tree `next` is what is left of a tree when some number of pieces have been removed. -/
structure Loses (t next : SourceTree) (removed : Nat) : Prop where
  path : next.path = t.path
  source : next.source = t.source
  /-- Function bodies are never removed. -/
  bodies : next.bodies.length = t.bodies.length
  /-- The holes so far stay, and each removed piece adds its own. What is left and what is removed
  are pieces that the tree had, none of them twice. -/
  holes : ∃ cuts : List Hole, next.holes = t.holes ++ cuts ∧ cuts.length = removed ∧
    (next.places ++ cuts).Subperm t.places
  count : next.count + removed ≤ t.count
  /-- Without removals nothing changes, no mark and no hole. -/
  same : removed = 0 → next = t

namespace Loses

variable {t u v : SourceTree} {k l : Nat}

/-- Nothing is lost when nothing is done. -/
theorem refl (t : SourceTree) : t.Loses t 0 where
  path := rfl
  source := rfl
  bodies := rfl
  holes := ⟨[], (List.append_nil _).symm, rfl, by rw [List.append_nil]⟩
  count := Nat.le_refl _
  same := fun _ => rfl

/-- What is lost in two steps adds up. -/
theorem trans (h₁ : t.Loses u k) (h₂ : u.Loses v l) : t.Loses v (k + l) where
  path := h₂.path.trans h₁.path
  source := h₂.source.trans h₁.source
  bodies := h₂.bodies.trans h₁.bodies
  holes := by
    obtain ⟨cuts₁, hholes₁, hlength₁, hplaces₁⟩ := h₁.holes
    obtain ⟨cuts₂, hholes₂, hlength₂, hplaces₂⟩ := h₂.holes
    refine ⟨cuts₁ ++ cuts₂, ?_, ?_, ?_⟩
    · rw [hholes₂, hholes₁, List.append_assoc]
    · rw [List.length_append, hlength₁, hlength₂]
    · -- The pieces that the second run cuts are among those that the first one left.
      have hboth : (v.places ++ cuts₂ ++ cuts₁).Subperm (u.places ++ cuts₁) :=
        (List.subperm_append_right cuts₁).mpr hplaces₂
      have horder : (v.places ++ (cuts₁ ++ cuts₂)).Perm (v.places ++ cuts₂ ++ cuts₁) := by
        rw [List.append_assoc]
        exact List.perm_append_comm.append_left _
      exact horder.subperm.trans (hboth.trans hplaces₁)
  count := by
    have hcount₁ := h₁.count
    have hcount₂ := h₂.count
    omega
  same := by
    intro hzero
    rw [h₂.same (by omega), h₁.same (by omega)]

/-- As many holes have been added as pieces have been removed. -/
theorem isPristine_iff (h : t.Loses u k) (pristine : t.holes = []) : u.isPristine ↔ k = 0 := by
  obtain ⟨cuts, hholes, hlength, _⟩ := h.holes
  rw [isPristine, hholes, pristine, List.nil_append, List.isEmpty_iff, ← hlength,
    List.length_eq_zero_iff]

end Loses

/-- A pass removes as many pieces as it reports. -/
theorem pass_loses (t : SourceTree) (m : MergedCoverage) : t.Loses (t.pass m).1 (t.pass m).2 := by
  cases hfile : m.file? t.path with
  | none =>
    rw [pass_of_no_file hfile]
    exact .refl t
  | some file =>
    rw [pass_of_file (Option.isSome_of_eq_some hfile)]
    refine ⟨rfl, rfl, length_sweepBodies _ _, ⟨_, rfl, rfl, ?_⟩, count_sweepBodies_le _ _, ?_⟩
    · have hplaces := (sweepBodies_shrinks (m.isDead t.path) t.bodies).labels_add_cuts_le
      rwa [Multiset.coe_add, Multiset.coe_le] at hplaces
    · intro hzero
      have hcuts : (sweepBodies (m.isDead t.path) t.bodies).2 = [] :=
        List.length_eq_zero_iff.mp hzero
      have hswept : sweepBodies (m.isDead t.path) t.bodies = (t.bodies, []) :=
        Prod.ext (eq_of_sweepBodies hcuts) hcuts
      rw [swept_eq_self hswept]

/-- The number of pieces that one pass for each of some coverages removes. -/
def removedBy (t : SourceTree) : List MergedCoverage → Nat
  | [] => 0
  | m :: rest => (t.pass m).2 + (t.pass m).1.removedBy rest

/-- Passes lose what they count as removed. -/
theorem passes_loses (t : SourceTree) (runs : List MergedCoverage) :
    t.Loses (t.passes runs) (t.removedBy runs) := by
  induction runs generalizing t with
  | nil => exact .refl t
  | cons m rest ih => exact (t.pass_loses m).trans (ih (t.pass m).1)

/-- Passes up to a fixpoint lose what they add to the count. -/
theorem pruneFrom_loses {m : MergedCoverage} {stats stats' : PruneStats} {left : Nat}
    {t next : SourceTree} (h : pruneFrom m stats left t = some (next, stats')) :
    ∃ k, t.Loses next k ∧ stats'.removed = stats.removed + k := by
  induction left generalizing t stats with
  | zero => cases h
  | succ left ih =>
    have hpass := t.pass_loses m
    simp only [pruneFrom] at h
    split at h
    next =>
      injection h with h
      injection h with hnext hstats
      subst hnext hstats
      exact ⟨_, hpass, rfl⟩
    next =>
      obtain ⟨k, hloses, hremoved⟩ := ih h
      exact ⟨_, hpass.trans hloses, by rw [hremoved, Nat.add_assoc]⟩

/-- Pruning loses what it counts as removed. -/
theorem prune?_loses {t next : SourceTree} {m : MergedCoverage} {maxPasses : Nat}
    {stats : PruneStats} (h : t.prune? m maxPasses = .ok (next, stats)) :
    t.Loses next stats.removed := by
  rw [prune?] at h
  split at h
  next done hdone =>
    injection h with h
    subst h
    obtain ⟨k, hloses, hremoved⟩ := pruneFrom_loses hdone
    rw [hremoved, Nat.zero_add]
    exact hloses
  next => cases h

/-- **The number of removed pieces is true.** A pass over any tree, whatever is marked in it, adds a
hole for each piece that it reports as removed, each that of a piece of the tree, and takes at least
that many pieces off the count; if it reports none, it has changed nothing. So do passes one after
the other and pruning, for the sum of what they report. A tree that was lowered from a text is
pristine after some passes exactly if they removed nothing. -/
theorem passes_account :
    (∀ (t : SourceTree) (m : MergedCoverage), t.Loses (t.pass m).1 (t.pass m).2) ∧
    (∀ (t : SourceTree) (runs : List MergedCoverage), t.Loses (t.passes runs) (t.removedBy runs)) ∧
    (∀ (t next : SourceTree) (m : MergedCoverage) (maxPasses : Nat) (stats : PruneStats),
      t.prune? m maxPasses = .ok (next, stats) → t.Loses next stats.removed) ∧
    (∀ (path source : String) (t : SourceTree), parse? path source = .ok t →
      ∀ runs : List MergedCoverage, (t.passes runs).isPristine ↔ t.removedBy runs = 0) := by
  refine ⟨pass_loses, passes_loses, fun t next m maxPasses stats h => prune?_loses h,
    fun path source t parsed runs => ?_⟩
  obtain ⟨blocks, _, ht⟩ := exists_lowered_of_parse? parsed
  exact (t.passes_loses runs).isPristine_iff (by rw [ht]; rfl)

/-- The text of `cascade` loses its three statements in a pass, the call as a piece of its own
before the `if` around it. -/
theorem passes_account_cascade :
    ∃ t next stats, parse? "f.rs" cascade.source = .ok t ∧
      t.prune? (.ofProfiles [cascadeRun 0]) 2 = .ok (next, stats) ∧ stats.removed = 3 ∧
      t.Loses next 3 ∧ (t.passes [.ofProfiles [cascadeRun 0]]).isPristine = false := by
  have hrun : ((parse? "f.rs" cascade.source).toOption.bind fun t =>
      (t.prune? (.ofProfiles [cascadeRun 0]) 2).toOption.bind fun r =>
        some (r.2.removed, t.removedBy [.ofProfiles [cascadeRun 0]])) = some (3, 3) := by
    decide +kernel
  obtain ⟨t, hparse, hrun⟩ := exists_of_toOption_bind hrun
  obtain ⟨⟨next, stats⟩, hprune, hrun⟩ := exists_of_toOption_bind hrun
  simp only [Option.some.injEq, Prod.mk.injEq] at hrun
  obtain ⟨hremoved, hby⟩ := hrun
  obtain ⟨_, _, hpruned, hpristine⟩ := passes_account
  refine ⟨t, next, stats, hparse, hprune, hremoved, ?_, Bool.eq_false_iff.mpr fun h => ?_⟩
  · rw [← hremoved]
    exact hpruned t next _ 2 stats hprune
  · have hzero := (hpristine "f.rs" cascade.source t hparse _).mp h
    omega

end SourceTree

end CoverageReplay
