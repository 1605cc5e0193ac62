import CoverageReplay.Pruning
import CoverageReplay.Tree.Lowering

/-!
# Fresh trees

A tree is fresh if nothing in it is marked as removed and each `let` that is marked as used is
mentioned later in its body. Lowering gives fresh trees, `isFresh_of_parse?`.

The mark is what tells a `let` that was never used, and stays, from one that pruning left without
use.
-/

namespace CoverageReplay

open Rust

/-- Whether a `let` that is marked as used is mentioned in the statements after it. -/
def Node.markHolds (n : Node) (rest : List Node) : Bool :=
  match n.kind with
  | .binding (some name) true => Body.nodesMention name rest
  | _ => true

mutual

/-- Whether nothing in a body is marked as removed and all marks of use hold. -/
def Body.isFresh : Body → Bool
  | .mk _ _ nodes pruned => !pruned && Body.nodesFresh nodes

/-- The same of some statements. -/
def Body.nodesFresh : List Node → Bool
  | [] => true
  | n :: rest => n.isFresh && n.markHolds rest && Body.nodesFresh rest

/-- The same of a statement. -/
def Node.isFresh : Node → Bool
  | .mk _ _ _ kind => kind.isFresh

/-- The same of what is nested in a statement. -/
def NodeKind.isFresh : NodeKind → Bool
  | .leaf => true
  | .binding _ _ => true
  | .block body _ => body.isFresh
  | .loop body _ => body.isFresh
  | .branch yes no lostElse => !lostElse && yes.isFresh && no.isFresh
  | .select arms pruned => !pruned && NodeKind.armsFresh arms

/-- The same of an `else` branch. -/
def Otherwise.isFresh : Otherwise → Bool
  | .absent => true
  | .block _ body => body.isFresh
  | .chain _ n => n.isFresh

/-- The same of some arms. -/
def NodeKind.armsFresh : List Arm → Bool
  | [] => true
  | m :: rest => m.isFresh && NodeKind.armsFresh rest

/-- The same of an arm. -/
def Arm.isFresh : Arm → Bool
  | .flat _ _ _ => true
  | .block _ _ _ body => body.isFresh

end

/-- Whether nothing in a tree is marked as removed and all marks of use hold. -/
def SourceTree.isFresh (t : SourceTree) : Bool :=
  t.bodies.all Body.isFresh

/-- What a fresh statement holds is worth showing. -/
theorem Node.isVacuous_of_isFresh {n : Node} (h : n.isFresh) : n.isVacuous = false := by
  obtain ⟨start, hole, idents, kind⟩ := n
  cases kind with
  | leaf => rfl
  | binding name used => rfl
  | block body removable =>
    obtain ⟨opening, closeEnd, nodes, pruned⟩ := body
    simp_all [isFresh, NodeKind.isFresh, Body.isFresh, isVacuous, Node.kind, Body.isEmptied,
      Body.pruned]
  | loop body removable =>
    obtain ⟨opening, closeEnd, nodes, pruned⟩ := body
    simp_all [isFresh, NodeKind.isFresh, Body.isFresh, isVacuous, Node.kind, Body.isEmptied,
      Body.pruned]
  | branch yes no lostElse =>
    obtain ⟨opening, closeEnd, nodes, pruned⟩ := yes
    cases no with
    | absent =>
      simp_all [isFresh, NodeKind.isFresh, Body.isFresh, isVacuous, Node.kind, Body.pruned]
    | block =>
      simp_all [isFresh, NodeKind.isFresh, Body.isFresh, isVacuous, Node.kind]
    | chain =>
      simp_all [isFresh, NodeKind.isFresh, Body.isFresh, isVacuous, Node.kind]
  | select arms pruned => simp_all [isFresh, NodeKind.isFresh, isVacuous, Node.kind]

theorem Body.isEmptied_of_isFresh {b : Body} (h : b.isFresh) : b.isEmptied = false := by
  obtain ⟨opening, closeEnd, nodes, pruned⟩ := b
  simp_all [isFresh, isEmptied, Body.pruned]

/-! ## Mentions and identifiers -/

mutual

theorem Body.mentions_iff (name : String) : ∀ b : Body, b.mentions name ↔ name ∈ b.identifiers
  | .mk _ _ nodes _ => Body.nodesMention_iff name nodes

/-- Looking for a name finds it exactly if it is listed. -/
theorem Body.nodesMention_iff (name : String) :
    ∀ nodes : List Node, Body.nodesMention name nodes ↔ name ∈ Body.nodesIdentifiers nodes
  | [] => by simp [Body.nodesMention, Body.nodesIdentifiers]
  | n :: rest => by
    rw [Body.nodesMention, Body.nodesIdentifiers, Bool.or_eq_true, List.mem_append,
      Node.mentions_iff name n, Body.nodesMention_iff name rest]

/-- A statement mentions its own identifiers and those of what it is made of. -/
theorem Node.mentions_iff (name : String) : ∀ n : Node, n.mentions name ↔ name ∈ n.identifiers
  | .mk _ _ idents kind => by
    rw [Node.mentions, Node.identifiers, Bool.or_eq_true, List.mem_append, List.contains_iff_mem,
      NodeKind.mentions_iff name kind]

theorem NodeKind.mentions_iff (name : String) :
    ∀ k : NodeKind, k.mentions name ↔ name ∈ k.identifiers
  | .leaf => by simp [NodeKind.mentions, NodeKind.identifiers]
  | .binding _ _ => by simp [NodeKind.mentions, NodeKind.identifiers]
  | .block body _ => Body.mentions_iff name body
  | .loop body _ => Body.mentions_iff name body
  | .branch yes no _ => by
    rw [NodeKind.mentions, NodeKind.identifiers, Bool.or_eq_true, List.mem_append,
      Body.mentions_iff name yes, Otherwise.mentions_iff name no]
  | .select arms _ => NodeKind.armsMention_iff name arms

/-- An `else` branch mentions the identifiers in it. -/
theorem Otherwise.mentions_iff (name : String) :
    ∀ o : Otherwise, o.mentions name ↔ name ∈ o.identifiers
  | .absent => by simp [Otherwise.mentions, Otherwise.identifiers]
  | .block _ body => Body.mentions_iff name body
  | .chain _ n => Node.mentions_iff name n

/-- Arms mention the identifiers in them. -/
theorem NodeKind.armsMention_iff (name : String) :
    ∀ arms : List Arm, NodeKind.armsMention name arms ↔ name ∈ NodeKind.armsIdentifiers arms
  | [] => by simp [NodeKind.armsMention, NodeKind.armsIdentifiers]
  | m :: rest => by
    rw [NodeKind.armsMention, NodeKind.armsIdentifiers, Bool.or_eq_true, List.mem_append,
      Arm.mentions_iff name m, NodeKind.armsMention_iff name rest]

/-- An arm mentions the identifiers in it. -/
theorem Arm.mentions_iff (name : String) : ∀ m : Arm, m.mentions name ↔ name ∈ m.identifiers
  | .flat _ _ idents => by rw [Arm.mentions, Arm.identifiers, List.contains_iff_mem]
  | .block _ _ idents body => by
    rw [Arm.mentions, Arm.identifiers, Bool.or_eq_true, List.mem_append, List.contains_iff_mem,
      Body.mentions_iff name body]

end

/-! ## Lowering gives fresh trees -/

/-- Marking changes what is known of a `let`, not what is mentioned. -/
theorem nodesMention_markUsed (name : String) (nodes : List Node) :
    Body.nodesMention name (markUsed nodes) = Body.nodesMention name nodes := by
  fun_induction markUsed nodes with
  | case1 => rfl
  | case2 start hole idents binder used rest ih =>
    simp only [Body.nodesMention, ih, Node.mentions, NodeKind.mentions]
  | case3 n rest _ ih => simp only [Body.nodesMention, ih]

/-- Marking bindings as used keeps statements fresh. -/
theorem nodesFresh_markUsed {nodes : List Node} (h : nodes.all Node.isFresh) :
    Body.nodesFresh (markUsed nodes) := by
  -- A mark says what the statements after the binding mention, which marking them does not change.
  fun_induction markUsed nodes with
  | case1 => rfl
  | case2 start hole idents binder used rest ih =>
    rw [List.all_cons, Bool.and_eq_true] at h
    simp only [Body.nodesFresh, Bool.and_eq_true]
    refine ⟨⟨h.1, ?_⟩, ih h.2⟩
    simp only [Node.markHolds, Node.kind]
    split
    next heq =>
      injection heq with hname hused
      injection hname with hname
      rw [nodesMention_markUsed, ← hname, hused]
    next => rfl
  | case3 n rest hn ih =>
    rw [List.all_cons, Bool.and_eq_true] at h
    simp only [Body.nodesFresh, Bool.and_eq_true]
    refine ⟨⟨h.1, ?_⟩, ih h.2⟩
    obtain ⟨start, hole, idents, kind⟩ := n
    simp only [Node.markHolds, Node.kind]
    split
    next binder => exact absurd rfl (hn start hole idents binder true)
    next => rfl

mutual

/-- A block is lowered to a fresh body. -/
theorem isFresh_lowerBlock (l : Layout) : ∀ b : CodeBlock, (lowerBlock l b).isFresh
  | .mk _ _ statements => by
    rw [lowerBlock, Body.isFresh]
    exact nodesFresh_markUsed (isFresh_lowerStatements l statements)

/-- Statements are lowered to fresh ones. -/
theorem isFresh_lowerStatements (l : Layout) :
    ∀ statements : List Statement, (lowerStatements l statements).all Node.isFresh
  | [] => rfl
  | s :: rest => by
    rw [lowerStatements, List.all_cons, isFresh_lowerStatement l s,
      isFresh_lowerStatements l rest]
    rfl

theorem isFresh_lowerStatement (l : Layout) : ∀ s : Statement, (lowerStatement l s).isFresh
  | .binding _ _ _ _ => rfl
  | .expression tokens form => isFresh_lowerForm l tokens form
  | .other _ => rfl

/-- What lowering makes of an expression is fresh. -/
theorem isFresh_lowerForm (l : Layout) (own : List TokenTree) :
    ∀ form : Form, (lowerForm l own form).2.isFresh
  | .ifThen _ yes none => by
    simp only [lowerForm, NodeKind.isFresh, Otherwise.isFresh, isFresh_lowerBlock l yes]
    rfl
  | .ifThen _ yes (some no) => by
    simp only [lowerForm, NodeKind.isFresh, isFresh_lowerBlock l yes, isFresh_lowerElse l _ no]
    rfl
  | .forLoop _ body => isFresh_lowerBlock l body
  | .whileLoop _ body => isFresh_lowerBlock l body
  | .loop body => isFresh_lowerBlock l body
  | .block _ body => isFresh_lowerBlock l body
  | .unsafeBlock body => isFresh_lowerBlock l body
  | .matchOn _ arms => by
    simp only [lowerForm, NodeKind.isFresh, isFresh_lowerArms l arms]
    rfl
  | .flat _ => rfl

/-- What follows an `else` is lowered to a fresh branch. -/
theorem isFresh_lowerElse (l : Layout) (start : Nat) :
    ∀ e : Expression, (lowerElse l start e).isFresh
  | .mk tokens form => by
    cases form with
    | block labelled body => exact isFresh_lowerBlock l body
    | ifThen condition yes no => exact isFresh_lowerForm l tokens (.ifThen condition yes no)
    | forLoop head body => exact isFresh_lowerBlock l body
    | whileLoop condition body => exact isFresh_lowerBlock l body
    | loop body => exact isFresh_lowerBlock l body
    | unsafeBlock body => exact isFresh_lowerBlock l body
    | matchOn scrutinee arms => exact isFresh_lowerForm l tokens (.matchOn scrutinee arms)
    | flat kind => rfl

/-- Arms are lowered to fresh ones. -/
theorem isFresh_lowerArms (l : Layout) :
    ∀ arms : List MatchArm, NodeKind.armsFresh (lowerArms l arms)
  | [] => rfl
  | m :: rest => by
    simp only [lowerArms, NodeKind.armsFresh, isFresh_lowerArm l m, isFresh_lowerArms l rest]
    rfl

/-- An arm is lowered to a fresh one. -/
theorem isFresh_lowerArm (l : Layout) : ∀ m : MatchArm, (lowerArm l m).isFresh
  | .mk _ _ (.mk own form) => by
    cases form with
    | block labelled body =>
      cases labelled with
      | false => exact isFresh_lowerBlock l body
      | true => rfl
    | ifThen condition yes no => rfl
    | forLoop head body => rfl
    | whileLoop condition body => rfl
    | loop body => rfl
    | unsafeBlock body => rfl
    | matchOn scrutinee arms => rfl
    | flat kind => rfl

end

/-- **Lowering gives fresh trees.** -/
theorem SourceTree.isFresh_of_parse? {path source : String} {t : SourceTree}
    (h : SourceTree.parse? path source = .ok t) : t.isFresh := by
  unfold SourceTree.parse? at h
  dsimp only at h
  split at h
  next => cases h
  next blocks _ =>
    injection h with h
    subst h
    simp only [isFresh, List.all_map, List.all_eq_true, Function.comp_apply]
    intro b _
    exact isFresh_lowerBlock _ b

end CoverageReplay
