import CoverageReplay.Proofs.Pruning.LeastRemoval
import Mathlib.Data.Set.Finite.Powerset
import Mathlib.Order.Preorder.Finite

/-!
# Removing in any order

`prune?_eq_erase_least` says what pruning removes from a fresh tree, whatever the coverage: the
pieces of the least set that is closed under the rules of removing.

A sweep goes through the tree in one order. Removing by the rules can go in any other: it takes a
piece that the rules ask for, with all that is in it, then asks the rules again (`Removal`). All
these ways end with the same set, since what the rules ask for once they ask for later too
(`Demanded.mono`), and the tree is finite.
-/

namespace CoverageReplay

/-- The sets of addresses that removing one piece after another goes through. -/
inductive Removal (dead : Position → Bool) (look : Address → Option Piece) :
    Set Address → Prop where
  | nothing : Removal dead look ∅
  /-- A piece that the rules ask for goes, with all that is nested in it. -/
  | remove {R : Set Address} {a : Address} (before : Removal dead look R)
    (demanded : Demanded dead look R a) :
    Removal dead look (R ∪ {x | a <+: x ∧ (look x).isSome})

namespace Removal

variable {dead : Position → Bool} {look : Address → Option Piece} {R S : Set Address}

/-- Removing never takes more than it has to. -/
theorem subset_of_closed (h : Removal dead look R) (closed : Closed dead look S) : R ⊆ S := by
  induction h with
  | nothing => exact Set.empty_subset S
  | remove before demanded ih =>
    refine Set.union_subset ih fun x hx => ?_
    obtain ⟨⟨c, rfl⟩, hpiece⟩ := hx
    -- What is asked for once `R` is gone is asked for once more is gone, so it is in `S`.
    have ha := closed.demanded _ (demanded.mono (fun _ hq => hq) ih)
    exact closed.nested _ c ha demanded.isSome hpiece

/-- What is removed is removed with all that is in it. -/
theorem nested (h : Removal dead look R) : Nested look R := by
  induction h with
  | nothing => exact fun a c ha => absurd ha (Set.notMem_empty a)
  | remove before demanded ih =>
    intro x c hx hpiece hc
    rcases hx with hx | ⟨hpre, hx⟩
    · exact Or.inl (ih x c hx hpiece hc)
    · exact Or.inr ⟨hpre.trans (List.prefix_append x c), hc⟩

/-- However pieces are removed, once the rules ask for no more the least set is gone. -/
theorem eq_of_demanded {gone : Address → Bool} (h : Removal dead look R)
    (least : LeastRemoval dead look gone) (done : ∀ a, Demanded dead look R a → a ∈ R) :
    R = {a | gone a} :=
  Set.Subset.antisymm (h.subset_of_closed least.1) (least.2 ⟨h.nested, done⟩)

/-- A largest of finitely many sets that removing goes through leaves nothing to ask for. -/
theorem of_least {gone : Address → Bool} (finite : {a | (look a).isSome}.Finite)
    (least : LeastRemoval dead look gone) : Removal dead look {a | gone a} := by
  have hfinite : {R | Removal dead look R}.Finite :=
    finite.finite_subsets.subset fun R hR =>
      (hR.subset_of_closed least.1).trans fun a ha => least.piece ha
  obtain ⟨R, hR, hmax⟩ := hfinite.exists_maximal ⟨∅, .nothing⟩
  -- A piece that is still asked for can be removed, and the set is no larger after that.
  have hdone : ∀ a, Demanded dead look R a → a ∈ R := fun a ha =>
    hmax (hR.remove ha) Set.subset_union_left (Or.inr ⟨List.prefix_rfl, ha.isSome⟩)
  rw [← hR.eq_of_demanded least hdone]
  exact hR

end Removal

/-! ## A tree has finitely many pieces -/

section Finite

variable {look head tail inner : Address → Option Piece}

/-- A list has finitely many pieces if its first element and the rest have. -/
theorem finite_of_conses {s : Step} (c : Conses look s head tail)
    (h₁ : {a | (head a).isSome}.Finite) (h₂ : {a | (tail a).isSome}.Finite) :
    {a | (look a).isSome}.Finite := by
  refine ((h₁.image (s :: ·)).union (h₂.image Address.next)).subset fun a ha => ?_
  rw [Set.mem_ofPred_eq] at ha
  cases a with
  | nil =>
    rw [c.nil] at ha
    cases ha
  | cons t a =>
    rcases c.cover t a ha with rfl | ⟨u, rfl⟩
    · rw [c.head] at ha
      exact Or.inl ⟨a, ha, rfl⟩
    · rw [c.tail] at ha
      exact Or.inr ⟨u :: a, ha, rfl⟩

/-- A piece has finitely many pieces in it if what it is made of has. -/
theorem finite_of_inner (same : ∀ s a, look (s :: a) = inner (s :: a))
    (h : {a | (inner a).isSome}.Finite) : {a | (look a).isSome}.Finite := by
  refine (h.insert []).subset fun a ha => ?_
  rw [Set.mem_ofPred_eq] at ha
  cases a with
  | nil => exact Or.inl rfl
  | cons s a =>
    rw [same] at ha
    exact Or.inr ha

/-- Where there are no pieces there are finitely many. -/
theorem finite_of_none (h : ∀ a, look a = none) : {a | (look a).isSome}.Finite := by
  refine Set.finite_empty.subset fun a (ha : (look a).isSome) => ?_
  rw [h a] at ha
  cases ha

end Finite

mutual

theorem Body.finite_pieces : ∀ b : Body, {a | (b.piece? a).isSome}.Finite
  | .mk _ _ nodes _ => Body.finite_nodesPieces nodes

theorem Body.finite_nodesPieces :
    ∀ nodes : List Node, {a | (Body.nodesPiece? nodes a).isSome}.Finite
  | [] => finite_of_none fun _ => rfl
  | n :: rest =>
    finite_of_conses (.statements n rest)
      (finite_of_inner n.piece?_cons (Node.finite_pieces n)) (Body.finite_nodesPieces rest)

theorem Node.finite_pieces : ∀ n : Node, {a | (n.kind.piece? a).isSome}.Finite
  | .mk _ _ _ kind => NodeKind.finite_pieces kind

/-- What a statement is made of has finitely many pieces. -/
theorem NodeKind.finite_pieces : ∀ k : NodeKind, {a | (k.piece? a).isSome}.Finite
  | .leaf => finite_of_none fun _ => rfl
  | .binding _ _ => finite_of_none fun _ => rfl
  | .block body _ => Body.finite_pieces body
  | .loop body _ => Body.finite_pieces body
  | .branch yes no _ => by
    have hno := finite_of_inner no.piece?_cons (Otherwise.finite_pieces no)
    refine (((Body.finite_pieces yes).image (.yes :: ·)).union
      (hno.image (.otherwise :: ·))).subset fun a ha => ?_
    cases a with
    | nil => cases ha
    | cons t a =>
      cases t with
      | yes => exact Or.inl ⟨a, ha, rfl⟩
      | otherwise => exact Or.inr ⟨a, ha, rfl⟩
      | body i => cases ha
      | statement i => cases ha
      | arm i => cases ha
  | .select arms _ => NodeKind.finite_armsPieces arms

/-- An `else` branch has finitely many pieces. -/
theorem Otherwise.finite_pieces : ∀ o : Otherwise, {a | (o.inside a).isSome}.Finite
  | .absent => finite_of_none fun _ => rfl
  | .block _ body => Body.finite_pieces body
  | .chain _ n => Node.finite_pieces n

/-- Some arms have finitely many pieces. -/
theorem NodeKind.finite_armsPieces :
    ∀ arms : List Arm, {a | (NodeKind.armsPiece? arms a).isSome}.Finite
  | [] => finite_of_none fun _ => rfl
  | m :: rest =>
    finite_of_conses (.arms m rest)
      (finite_of_inner m.piece?_cons (Arm.finite_pieces m)) (NodeKind.finite_armsPieces rest)

theorem Arm.finite_pieces : ∀ m : Arm, {a | (m.inside a).isSome}.Finite
  | .flat _ _ _ => finite_of_none fun _ => rfl
  | .block _ _ _ body => Body.finite_pieces body

end

namespace SourceTree

/-- A file has finitely many pieces. -/
theorem finite_bodiesPieces (bodies : List Body) :
    {a | (bodiesPiece? bodies a).isSome}.Finite := by
  induction bodies with
  | nil => exact finite_of_none fun _ => rfl
  | cons b rest ih => exact finite_of_conses (.bodies b rest) b.finite_pieces ih

/-- A sweep of fresh bodies removes the least set. -/
theorem sweepBodies_eq_erase (dead : Position → Bool) {bodies : List Body}
    (fresh : bodies.all Body.isFresh) :
    ∃ gone, LeastRemoval dead (bodiesPiece? bodies) gone ∧
      (sweepBodies dead bodies).1 = eraseBodies gone bodies := by
  induction bodies with
  | nil => exact ⟨_, LeastRemoval.empty fun _ => rfl, rfl⟩
  | cons b rest ih =>
    rw [List.all_cons, Bool.and_eq_true] at fresh
    obtain ⟨g₁, hbody, hb⟩ := Body.sweep_eq_erase dead b fresh.1
    obtain ⟨g₂, htail, hrest⟩ := ih fresh.2
    obtain ⟨gone, hleast, _, hkept, hnext⟩ :=
      LeastRemoval.cons (.bodies b rest) Step.body_zero_ne_next
        (fun _ _ => rfl) b.piece?_nil hbody htail false
        (fun R _ _ => iff_of_false Bool.false_ne_true fun h => by simpa using h.isSome)
    refine ⟨gone, hleast, ?_⟩
    simp only [sweepBodies, eraseBodies, hb, hrest, hkept rfl, hnext]

/-- A pass over a fresh tree sweeps it, even if coverage knows nothing of the file. -/
theorem pass_of_fresh {t : SourceTree} (fresh : t.isFresh) (m : MergedCoverage) :
    t.pass m = t.swept (m.isDead t.path) := by
  cases hfile : m.file? t.path with
  | some file => exact pass_of_file (Option.isSome_of_eq_some hfile)
  | none =>
    rw [pass_of_no_file hfile,
      swept_eq_self (sweepBodies_of_alive fresh fun p _ => isDead_of_no_file hfile p)]

/-- **Pruning removes the least closed set.** Whatever the coverage, pruning a fresh tree with a
ceiling of at least two succeeds, and what it gives is the tree without the pieces of a set that is
closed under the rules of removing and lies in every set that is. Removing by the rules in any order
goes through subsets of it, can reach it, and ends nowhere else. -/
theorem prune?_eq_erase_least (t : SourceTree) (fresh : t.isFresh) (m : MergedCoverage)
    (maxPasses : Nat) (two : 2 ≤ maxPasses) :
    ∃ next stats gone, t.prune? m maxPasses = .ok (next, stats) ∧
      next.path = t.path ∧ next.source = t.source ∧ next.bodies = eraseBodies gone t.bodies ∧
      IsLeast {R | Closed (m.isDead t.path) t.piece? R} {a | gone a} ∧
      Removal (m.isDead t.path) t.piece? {a | gone a} ∧
      ∀ R, Removal (m.isDead t.path) t.piece? R →
        R ⊆ {a | gone a} ∧
          ((∀ a, Demanded (m.isDead t.path) t.piece? R a → a ∈ R) → R = {a | gone a}) := by
  obtain ⟨gone, hleast, hswept⟩ := sweepBodies_eq_erase (m.isDead t.path) fresh
  refine ⟨_, _, gone, prune?_eq t m two, ?_⟩
  rw [pass_of_fresh fresh m]
  exact ⟨rfl, rfl, hswept, hleast, .of_least (finite_bodiesPieces t.bodies) hleast,
    fun R hR => ⟨hR.subset_of_closed hleast.1, hR.eq_of_demanded hleast⟩⟩

/-- Of `cascade` no piece is left: the call is dead, which empties the `if`, the only
statement to mention what the `let` binds. -/
theorem prune?_cascade :
    cascade.isFresh ∧
      ∃ next stats gone, cascade.prune? (.ofProfiles [cascadeRun 0]) 2 = .ok (next, stats) ∧
        next.count = 0 ∧ next.bodies = eraseBodies gone cascade.bodies ∧
        IsLeast
          {R | Closed ((MergedCoverage.ofProfiles [cascadeRun 0]).isDead "f.rs") cascade.piece? R}
          {a | gone a} := by
  have hfresh : cascade.isFresh := by decide
  obtain ⟨next, stats, gone, hprune, _, _, hbodies, hleast, _⟩ :=
    prune?_eq_erase_least cascade hfresh (.ofProfiles [cascadeRun 0]) 2 (Nat.le_refl 2)
  have hnext : (cascade.pass (.ofProfiles [cascadeRun 0])).1 = next := by
    rw [prune?_eq _ _ (Nat.le_refl 2)] at hprune
    injection hprune with hpair
    exact congrArg Prod.fst hpair
  have hempty : next.count = 0 := by
    rw [← hnext]
    decide +kernel
  exact ⟨hfresh, next, stats, gone, hprune, hempty, hbodies, hleast⟩

end SourceTree

end CoverageReplay
