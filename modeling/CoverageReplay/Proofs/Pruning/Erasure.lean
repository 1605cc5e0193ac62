import CoverageReplay.Proofs.Pruning.Fresh
import CoverageReplay.Proofs.Pruning.Rules

/-!
# What an erasure leaves

Two things about a tree decide what else has to go: which of its structures are emptied, and which
names it still mentions. Both are read off the addresses that are gone: an erased structure is
vacuous exactly if the rules call it emptied (`Node.isVacuous_erase`), and what is left mentions a
name exactly if some piece that is not gone does (`Body.mem_nodesIdentifiers_erase`).
-/

namespace CoverageReplay

/-! ## Emptied structures -/

section Emptied

variable {gone : Address → Bool}

/-- No statement is left exactly if all are erased. -/
theorem Body.eraseNodes_eq_nil {nodes : List Node} :
    eraseNodes gone nodes = [] ↔ ∀ i < nodes.length, gone [.statement i] := by
  induction nodes generalizing gone with
  | nil => simp [eraseNodes]
  | cons n rest ih =>
    simp only [eraseNodes, List.length_cons, Nat.forall_lt_succ_left]
    by_cases hgone : gone [.statement 0]
    · rw [if_pos hgone, ih]
      exact (and_iff_right hgone).symm
    · rw [if_neg hgone]
      exact iff_of_false (List.cons_ne_nil _ _) fun h => hgone h.1

/-- No arm is left exactly if all are erased. -/
theorem NodeKind.eraseArms_eq_nil {arms : List Arm} :
    eraseArms gone arms = [] ↔ ∀ i < arms.length, gone [.arm i] := by
  induction arms generalizing gone with
  | nil => simp [eraseArms]
  | cons m rest ih =>
    simp only [eraseArms, List.length_cons, Nat.forall_lt_succ_left]
    by_cases hgone : gone [.arm 0]
    · rw [if_pos hgone, ih]
      exact (and_iff_right hgone).symm
    · rw [if_neg hgone]
      exact iff_of_false (List.cons_ne_nil _ _) fun h => hgone h.1

/-- A list that kept nothing became shorter exactly if it had something. -/
theorem lost_all_iff {α : Type} {kept all : List α} :
    kept.length < all.length ∧ kept = [] ↔ all ≠ [] ∧ kept = [] := by
  refine and_congr_left fun hnil => ?_
  rw [hnil, List.length_nil, List.length_pos_iff]

/-- An erased fresh body is emptied exactly if it had statements and lost them all. -/
theorem Body.isEmptied_erase {b : Body} (fresh : b.isFresh) :
    (b.erase gone).isEmptied ↔ b.LostAll {a | gone a} := by
  obtain ⟨opening, closeEnd, nodes, pruned⟩ := b
  simp only [isFresh, Bool.and_eq_true, Bool.not_eq_true'] at fresh
  simp only [erase, isEmptied, Body.pruned, Body.nodes, LostAll, fresh.1, Bool.false_or,
    Bool.and_eq_true, decide_eq_true_eq, List.isEmpty_iff, Set.mem_ofPred_eq]
  rw [← eraseNodes_eq_nil, lost_all_iff]

/-- An erased `if` without an `else` is vacuous exactly if its block is empty and it lost a
statement of the block or the `else`. -/
theorem isVacuous_branch_absent {yes : Body} (fresh : yes.isFresh) (gone : Address → Bool)
    (start : Position) (hole : Hole) (idents : List String) (lost : Bool) :
    (Node.mk start hole idents (.branch (yes.erase gone) .absent lost)).isVacuous ↔
      (∀ i < yes.nodes.length, gone [.statement i]) ∧ (yes.nodes ≠ [] ∨ lost) := by
  obtain ⟨opening, closeEnd, nodes, pruned⟩ := yes
  simp only [Body.isFresh, Bool.and_eq_true, Bool.not_eq_true'] at fresh
  simp only [Node.isVacuous, Node.kind, Body.erase, Body.nodes, Body.pruned, fresh.1, Bool.false_or,
    Bool.and_eq_true, Bool.or_eq_true, decide_eq_true_eq, List.isEmpty_iff]
  rw [← Body.eraseNodes_eq_nil]
  refine and_congr_right fun hnil => or_congr_left ?_
  rw [hnil, List.length_nil, List.length_pos_iff]

/-- An erased fresh statement is vacuous exactly if the rules call it emptied. -/
theorem Node.isVacuous_erase {n : Node} (fresh : n.isFresh) :
    (n.erase gone).isVacuous ↔ n.kind.Emptied {a | gone a} := by
  obtain ⟨start, hole, idents, kind⟩ := n
  cases kind with
  | leaf => simp [erase, NodeKind.erase, isVacuous, Node.kind, NodeKind.Emptied]
  | binding name used => simp [erase, NodeKind.erase, isVacuous, Node.kind, NodeKind.Emptied]
  | block body removable =>
    have hbody : body.isFresh := fresh
    simp only [erase, NodeKind.erase, isVacuous, Node.kind, NodeKind.Emptied, Bool.and_eq_true,
      Body.isEmptied_erase hbody]
  | loop body removable =>
    have hbody : body.isFresh := fresh
    simp only [erase, NodeKind.erase, isVacuous, Node.kind, NodeKind.Emptied, Bool.and_eq_true,
      Body.isEmptied_erase hbody]
  | branch yes no lostElse =>
    simp only [isFresh, NodeKind.isFresh, Bool.and_eq_true, Bool.not_eq_true'] at fresh
    -- A fresh `if` has not lost its `else` branch yet; only erasing it can set the flag.
    obtain ⟨⟨hlost, hyes⟩, _⟩ := fresh
    have habsent := isVacuous_branch_absent hyes (fun a => gone (.yes :: a)) start hole idents
    simp only [erase, NodeKind.erase, NodeKind.Emptied, hlost, Bool.false_or, Set.mem_ofPred_eq]
    cases no with
    | absent => simp [Otherwise.erase, Otherwise.isPresent, habsent, Node.kind]
    | block hole body =>
      by_cases hgone : gone [.otherwise]
      · simp [Otherwise.erase, Otherwise.isPresent, hgone, habsent, Node.kind]
      · simp [Otherwise.erase, Otherwise.isPresent, hgone, isVacuous, Node.kind]
    | chain hole n =>
      by_cases hgone : gone [.otherwise]
      · simp [Otherwise.erase, Otherwise.isPresent, hgone, habsent, Node.kind]
      · simp [Otherwise.erase, Otherwise.isPresent, hgone, isVacuous, Node.kind]
  | select arms pruned =>
    simp only [isFresh, NodeKind.isFresh, Bool.and_eq_true, Bool.not_eq_true'] at fresh
    simp only [erase, NodeKind.erase, isVacuous, Node.kind, NodeKind.Emptied, fresh.1,
      Bool.false_or, Bool.and_eq_true, decide_eq_true_eq, List.isEmpty_iff, Set.mem_ofPred_eq]
    rw [← NodeKind.eraseArms_eq_nil, lost_all_iff]

end Emptied

/-! ## Names that survive -/

/-- Whether a piece that is not gone mentions a name. -/
def Survives (look : Address → Option Piece) (gone : Address → Bool) (name : String) : Prop :=
  ∃ a p, look a = some p ∧ name ∈ p.names ∧ gone a = false

section Survives

variable {look head tail : Address → Option Piece} {gone : Address → Bool} {name : String}

/-- What survives of a list survives of its first element or of the others. -/
theorem survives_cons {s : Step} (c : Conses look s head tail) :
    Survives look gone name ↔
      Survives head (fun a => gone (s :: a)) name ∨
        Survives tail (fun a => gone (Address.next a)) name := by
  constructor
  · intro h
    obtain ⟨a, p, hp, hname, ha⟩ := h
    cases a with
    | nil =>
      rw [c.nil] at hp
      cases hp
    | cons t a =>
      rcases c.cover t a (Option.isSome_of_eq_some hp) with rfl | ⟨u, rfl⟩
      · exact Or.inl ⟨a, p, c.head a ▸ hp, hname, ha⟩
      · exact Or.inr ⟨u :: a, p, c.tail u a ▸ hp, hname, ha⟩
  · intro h
    rcases h with ⟨a, p, hp, hname, ha⟩ | ⟨a, p, hp, hname, ha⟩
    · exact ⟨s :: a, p, (c.head a).trans hp, hname, ha⟩
    · cases a with
      | nil =>
        rw [c.tail_nil] at hp
        cases hp
      | cons t a => exact ⟨t.next :: a, p, (c.tail t a).trans hp, hname, ha⟩

/-- What survives of a piece is what it mentions itself and what survives of the pieces in it. -/
theorem survives_piece {inner : Address → Option Piece} {p : Piece} (top : look [] = some p)
    (same : ∀ s a, look (s :: a) = inner (s :: a)) (hollow : inner [] = none)
    (kept : gone [] = false) :
    Survives look gone name ↔ name ∈ p.names ∨ Survives inner gone name := by
  constructor
  · intro h
    obtain ⟨a, q, hq, hname, ha⟩ := h
    cases a with
    | nil =>
      rw [top] at hq
      injection hq with hq
      exact Or.inl (hq ▸ hname)
    | cons s a => exact Or.inr ⟨s :: a, q, (same s a) ▸ hq, hname, ha⟩
  · intro h
    rcases h with hname | ⟨a, q, hq, hname, ha⟩
    · exact ⟨[], p, top, hname, kept⟩
    · cases a with
      | nil =>
        rw [hollow] at hq
        cases hq
      | cons s a => exact ⟨s :: a, q, (same s a).trans hq, hname, ha⟩

/-- Nothing survives where there are no pieces. -/
theorem not_survives_of_none (h : ∀ a, look a = none) : ¬ Survives look gone name := by
  intro hsurvives
  obtain ⟨a, p, hp, _⟩ := hsurvives
  rw [h a] at hp
  cases hp

/-- Nothing survives of a piece that is gone. -/
theorem not_survives (top : (look []).isSome) (nested : Nested look {a | gone a})
    (lost : gone [] = true) : ¬ Survives look gone name := by
  intro h
  obtain ⟨a, p, hp, _, ha⟩ := h
  have hgone : gone ([] ++ a) := nested [] a lost top (Option.isSome_of_eq_some hp)
  rw [List.nil_append, ha] at hgone
  cases hgone

/-- What survives of an `if` survives of one of its branches. -/
theorem survives_branch {yes : Body} {no : Otherwise} {lost : Bool} :
    Survives (NodeKind.branch yes no lost).piece? gone name ↔
      Survives yes.piece? (fun a => gone (.yes :: a)) name ∨
        Survives no.piece? (fun a => gone (.otherwise :: a)) name := by
  constructor
  · intro h
    obtain ⟨a, p, hp, hname, ha⟩ := h
    cases a with
    | nil => cases hp
    | cons s a =>
      cases s with
      | yes => exact Or.inl ⟨a, p, hp, hname, ha⟩
      | otherwise => exact Or.inr ⟨a, p, hp, hname, ha⟩
      | body i => cases hp
      | statement i => cases hp
      | arm i => cases hp
  · intro h
    rcases h with ⟨a, p, hp, hname, ha⟩ | ⟨a, p, hp, hname, ha⟩
    · exact ⟨.yes :: a, p, hp, hname, ha⟩
    · exact ⟨.otherwise :: a, p, hp, hname, ha⟩

end Survives

mutual

/-- A body mentions after erasing what a piece that stays in it names. -/
theorem Body.mem_identifiers_erase (name : String) :
    ∀ (b : Body) (gone : Address → Bool), Nested b.piece? {a | gone a} →
      (name ∈ (b.erase gone).identifiers ↔ Survives b.piece? gone name)
  | .mk _ _ nodes _, gone, nested => Body.mem_nodesIdentifiers_erase name nodes gone nested

/-- What is left of some statements mentions a name exactly if a piece that is not gone does. -/
theorem Body.mem_nodesIdentifiers_erase (name : String) :
    ∀ (nodes : List Node) (gone : Address → Bool),
      Nested (Body.nodesPiece? nodes) {a | gone a} →
      (name ∈ Body.nodesIdentifiers (Body.eraseNodes gone nodes) ↔
        Survives (Body.nodesPiece? nodes) gone name)
  | [], gone, _ => iff_of_false List.not_mem_nil (not_survives_of_none fun _ => rfl)
  | n :: rest, gone, nested => by
    have hcons := Conses.statements n rest
    have hrest := Body.mem_nodesIdentifiers_erase name rest (fun a => gone (Address.next a))
      (hcons.nested_tail nested)
    have hhead := hcons.nested_head nested
    rw [survives_cons hcons, ← hrest, Body.eraseNodes]
    -- If the first statement is gone, all in it is gone too, so only the others count.
    by_cases hgone : gone [.statement 0]
    · rw [if_pos hgone]
      exact (or_iff_right (not_survives (by simp) hhead hgone)).symm
    · rw [if_neg hgone, Body.nodesIdentifiers, List.mem_append,
        survives_piece (Node.piece?_nil n) (Node.piece?_cons n) (NodeKind.piece?_nil _)
          (Bool.eq_false_iff.mpr hgone),
        Node.mem_identifiers_erase name n
          _ (hhead.inner (Node.piece?_cons n) (NodeKind.piece?_nil _))]
      rfl

/-- A statement mentions after erasing what it names itself and what a piece that stays in it names.
-/
theorem Node.mem_identifiers_erase (name : String) :
    ∀ (n : Node) (gone : Address → Bool), Nested n.kind.piece? {a | gone a} →
      (name ∈ (n.erase gone).identifiers ↔ name ∈ n.idents ∨ Survives n.kind.piece? gone name)
  | .mk _ _ idents kind, gone, nested => by
    rw [Node.erase, Node.identifiers, List.mem_append,
      NodeKind.mem_identifiers_erase name kind gone nested]
    rfl

theorem NodeKind.mem_identifiers_erase (name : String) :
    ∀ (k : NodeKind) (gone : Address → Bool), Nested k.piece? {a | gone a} →
      (name ∈ (k.erase gone).identifiers ↔ Survives k.piece? gone name)
  | .leaf, gone, _ => iff_of_false List.not_mem_nil (not_survives_of_none fun _ => rfl)
  | .binding _ _, gone, _ => iff_of_false List.not_mem_nil (not_survives_of_none fun _ => rfl)
  | .block body _, gone, nested => Body.mem_identifiers_erase name body gone nested
  | .loop body _, gone, nested => Body.mem_identifiers_erase name body gone nested
  | .branch yes no lostElse, gone, nested => by
    have hyes : Nested yes.piece? {a | gone (.yes :: a)} := fun a c => nested (.yes :: a) c
    have hno : Nested no.piece? {a | gone (.otherwise :: a)} :=
      fun a c => nested (.otherwise :: a) c
    rw [survives_branch, NodeKind.erase, NodeKind.identifiers, List.mem_append,
      Body.mem_identifiers_erase name yes _ hyes, Otherwise.mem_identifiers_erase name no _ hno]
  | .select arms _, gone, nested => NodeKind.mem_armsIdentifiers_erase name arms gone nested

/-- An `else` branch mentions after erasing what a piece that stays in it names. -/
theorem Otherwise.mem_identifiers_erase (name : String) :
    ∀ (o : Otherwise) (gone : Address → Bool), Nested o.piece? {a | gone a} →
      (name ∈ (o.erase gone).identifiers ↔ Survives o.piece? gone name)
  | .absent, gone, _ => iff_of_false List.not_mem_nil (not_survives_of_none fun _ => rfl)
  | .block hole body, gone, nested => by
    rw [Otherwise.erase]
    by_cases hgone : gone []
    · rw [if_pos hgone]
      exact iff_of_false List.not_mem_nil (not_survives rfl nested hgone)
    · have hsame := Otherwise.piece?_block hole body
      have hbody := nested.inner hsame (Body.piece?_nil body)
      rw [if_neg hgone, survives_piece rfl hsame (Body.piece?_nil body)
        (Bool.eq_false_iff.mpr hgone)]
      simp [Otherwise.identifiers, Body.mem_identifiers_erase name body gone hbody, Piece.names]
  | .chain hole n, gone, nested => by
    rw [Otherwise.erase]
    by_cases hgone : gone []
    · rw [if_pos hgone]
      exact iff_of_false List.not_mem_nil (not_survives rfl nested hgone)
    · have hsame := Otherwise.piece?_chain hole n
      have hnode := nested.inner hsame (NodeKind.piece?_nil _)
      rw [if_neg hgone, survives_piece rfl hsame (NodeKind.piece?_nil _)
        (Bool.eq_false_iff.mpr hgone)]
      exact Node.mem_identifiers_erase name n gone hnode

/-- Arms mention after erasing what a piece that stays in them names. -/
theorem NodeKind.mem_armsIdentifiers_erase (name : String) :
    ∀ (arms : List Arm) (gone : Address → Bool),
      Nested (NodeKind.armsPiece? arms) {a | gone a} →
      (name ∈ NodeKind.armsIdentifiers (NodeKind.eraseArms gone arms) ↔
        Survives (NodeKind.armsPiece? arms) gone name)
  | [], gone, _ => iff_of_false List.not_mem_nil (not_survives_of_none fun _ => rfl)
  | m :: rest, gone, nested => by
    have hcons := Conses.arms m rest
    have hrest := NodeKind.mem_armsIdentifiers_erase name rest (fun a => gone (Address.next a))
      (hcons.nested_tail nested)
    have hhead := hcons.nested_head nested
    rw [survives_cons hcons, ← hrest, NodeKind.eraseArms]
    by_cases hgone : gone [.arm 0]
    · rw [if_pos hgone]
      exact (or_iff_right (not_survives (by simp) hhead hgone)).symm
    · rw [if_neg hgone, NodeKind.armsIdentifiers, List.mem_append,
        Arm.mem_identifiers_erase name m _ hhead (Bool.eq_false_iff.mpr hgone)]

/-- An arm that stays mentions after erasing what a piece that stays in it names. -/
theorem Arm.mem_identifiers_erase (name : String) :
    ∀ (m : Arm) (gone : Address → Bool), Nested m.piece? {a | gone a} → gone [] = false →
      (name ∈ (m.erase gone).identifiers ↔ Survives m.piece? gone name)
  | .flat start hole idents, gone, _, kept => by
    rw [survives_piece rfl (Arm.piece?_flat start hole idents) rfl kept]
    exact (or_iff_left (not_survives_of_none fun _ => rfl)).symm
  | .block start hole idents body, gone, nested, kept => by
    have hsame := Arm.piece?_block start hole idents body
    have hbody := nested.inner hsame (Body.piece?_nil body)
    rw [survives_piece rfl hsame (Body.piece?_nil body) kept,
      Arm.erase, Arm.identifiers, List.mem_append, Body.mem_identifiers_erase name body gone hbody]
    rfl

end

end CoverageReplay
