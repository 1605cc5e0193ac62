import CoverageReplay.Proofs.Except
import CoverageReplay.Proofs.Pruning.Growth
import CoverageReplay.Proofs.Splicing.Places
import Mathlib.Data.Nat.Count

/-!
# Bodies in which all is alive

Much of what pruning removes is not dead itself: loops, branches and bindings go because of what
went before them. `SourceTree.alive_bodies_stay` says that this never begins by itself. A body in
which no position is dead, wherever it stands in a tree, is after any number of passes what the
parser made of it, unless a piece around it went; and a file in which no position is dead is left as
it is.

A body is looked up at its address. Earlier siblings may go while it stays, so that afterwards it
stands at the address *renumbered* (`Address.renumber`); there erasing leaves what it leaves of the
body itself (`Body.bodyAt?_erase`). What that is follows from the least set of the whole tree, since
below the body it is the least set of the body (`LeastRemoval.under`), which is empty if all is
alive there.
-/

namespace CoverageReplay

/-! ## Looking bodies up -/

mutual

/-- The body at an address in a body, which itself is at the empty one. -/
def Body.bodyAt? : Body → Address → Option Body
  | .mk opening closeEnd nodes pruned, a =>
    match a with
    | [] => some (.mk opening closeEnd nodes pruned)
    | s :: a => Body.nodesBodyAt? nodes (s :: a)

/-- The body at an address in some statements. -/
def Body.nodesBodyAt? : List Node → Address → Option Body
  | [], _ => none
  | n :: rest, a =>
    match a with
    | .statement 0 :: a => n.bodyAt? a
    | .statement (i + 1) :: a => Body.nodesBodyAt? rest (.statement i :: a)
    | _ => none

/-- The body at an address in a statement. A block or a loop has the address of its body. -/
def Node.bodyAt? : Node → Address → Option Body
  | .mk _ _ _ kind, a => kind.bodyAt? a

/-- The body at an address in a statement of some kind. -/
def NodeKind.bodyAt? : NodeKind → Address → Option Body
  | .leaf, _ => none
  | .binding _ _, _ => none
  | .block body _, a => body.bodyAt? a
  | .loop body _, a => body.bodyAt? a
  | .branch yes no _, a =>
    match a with
    | .yes :: a => yes.bodyAt? a
    | .otherwise :: a => no.bodyAt? a
    | _ => none
  | .select arms _, a => NodeKind.armsBodyAt? arms a

/-- The body at an address in an `else` branch. A block has the address of its body. -/
def Otherwise.bodyAt? : Otherwise → Address → Option Body
  | .absent, _ => none
  | .block _ body, a => body.bodyAt? a
  | .chain _ n, a => n.bodyAt? a

/-- The body at an address in some arms. -/
def NodeKind.armsBodyAt? : List Arm → Address → Option Body
  | [], _ => none
  | m :: rest, a =>
    match a with
    | .arm 0 :: a => m.bodyAt? a
    | .arm (i + 1) :: a => NodeKind.armsBodyAt? rest (.arm i :: a)
    | _ => none

/-- The body at an address in an arm. An arm has the address of its block. -/
def Arm.bodyAt? : Arm → Address → Option Body
  | .flat _ _ _, _ => none
  | .block _ _ _ body, a => body.bodyAt? a

end

/-- The body at an address in some function bodies. -/
def SourceTree.bodiesBodyAt? : List Body → Address → Option Body
  | [], _ => none
  | b :: rest, a =>
    match a with
    | .body 0 :: a => b.bodyAt? a
    | .body (i + 1) :: a => bodiesBodyAt? rest (.body i :: a)
    | _ => none

/-- The body at an address in a tree. -/
def SourceTree.bodyAt? (t : SourceTree) (a : Address) : Option Body :=
  bodiesBodyAt? t.bodies a

/-! ## Where a body can be -/

section Cases

variable {a : Address} {b : Body}

/-- A body is found in a body at the empty address, or it is found in one of the statements. -/
theorem Body.bodyAt?_cases {x : Body} (h : x.bodyAt? a = some b) :
    a = [] ∧ b = x ∨ nodesBodyAt? x.nodes a = some b := by
  obtain ⟨opening, closeEnd, nodes, pruned⟩ := x
  cases a with
  | nil =>
    injection h with h
    exact Or.inl ⟨rfl, h.symm⟩
  | cons s a => exact Or.inr h

/-- A body in some statements is in the first one or in a later one. -/
theorem Body.nodesBodyAt?_cases {n : Node} {rest : List Node}
    (h : nodesBodyAt? (n :: rest) a = some b) :
    (∃ c, a = .statement 0 :: c ∧ n.bodyAt? c = some b) ∨
      ∃ i c, a = .statement (i + 1) :: c ∧ nodesBodyAt? rest (.statement i :: c) = some b := by
  cases a with
  | nil => cases h
  | cons s c =>
    cases s with
    | statement i =>
      cases i with
      | zero => exact Or.inl ⟨c, rfl, h⟩
      | succ i => exact Or.inr ⟨i, c, rfl, h⟩
    | body i => cases h
    | yes => cases h
    | otherwise => cases h
    | arm i => cases h

/-- A body in an `if` is in the branch taken or in the `else` branch. -/
theorem NodeKind.bodyAt?_branch_cases {yes : Body} {no : Otherwise} {lost : Bool}
    (h : (NodeKind.branch yes no lost).bodyAt? a = some b) :
    (∃ c, a = .yes :: c ∧ yes.bodyAt? c = some b) ∨
      ∃ c, a = .otherwise :: c ∧ no.bodyAt? c = some b := by
  cases a with
  | nil => cases h
  | cons s c =>
    cases s with
    | yes => exact Or.inl ⟨c, rfl, h⟩
    | otherwise => exact Or.inr ⟨c, rfl, h⟩
    | body i => cases h
    | statement i => cases h
    | arm i => cases h

/-- A body in some arms is in the first one or in a later one. -/
theorem NodeKind.armsBodyAt?_cases {m : Arm} {rest : List Arm}
    (h : armsBodyAt? (m :: rest) a = some b) :
    (∃ c, a = .arm 0 :: c ∧ m.bodyAt? c = some b) ∨
      ∃ i c, a = .arm (i + 1) :: c ∧ armsBodyAt? rest (.arm i :: c) = some b := by
  cases a with
  | nil => cases h
  | cons s c =>
    cases s with
    | arm i =>
      cases i with
      | zero => exact Or.inl ⟨c, rfl, h⟩
      | succ i => exact Or.inr ⟨i, c, rfl, h⟩
    | body i => cases h
    | statement i => cases h
    | yes => cases h
    | otherwise => cases h

/-- A body in a file is in the first of its bodies or in a later one. -/
theorem SourceTree.bodiesBodyAt?_cases {x : Body} {rest : List Body}
    (h : bodiesBodyAt? (x :: rest) a = some b) :
    (∃ c, a = .body 0 :: c ∧ x.bodyAt? c = some b) ∨
      ∃ i c, a = .body (i + 1) :: c ∧ bodiesBodyAt? rest (.body i :: c) = some b := by
  cases a with
  | nil => cases h
  | cons s c =>
    cases s with
    | body i =>
      cases i with
      | zero => exact Or.inl ⟨c, rfl, h⟩
      | succ i => exact Or.inr ⟨i, c, rfl, h⟩
    | arm i => cases h
    | statement i => cases h
    | yes => cases h
    | otherwise => cases h

end Cases

/-! ## Bodies of a fresh tree are fresh -/

mutual

/-- Every body in a fresh body is fresh. -/
theorem Body.isFresh_of_bodyAt? {b : Body} :
    ∀ (x : Body) {a : Address}, x.isFresh → x.bodyAt? a = some b → b.isFresh
  | .mk _ _ nodes _, _, fresh, h => by
    rcases Body.bodyAt?_cases h with ⟨_, rfl⟩ | h
    · exact fresh
    · simp only [Body.isFresh, Bool.and_eq_true] at fresh
      exact Body.isFresh_of_nodesBodyAt? nodes fresh.2 h

/-- Every body in fresh statements is fresh. -/
theorem Body.isFresh_of_nodesBodyAt? {b : Body} :
    ∀ (nodes : List Node) {a : Address}, Body.nodesFresh nodes →
      Body.nodesBodyAt? nodes a = some b → b.isFresh
  | [], _, _, h => nomatch h
  | n :: rest, _, fresh, h => by
    simp only [Body.nodesFresh, Bool.and_eq_true] at fresh
    rcases Body.nodesBodyAt?_cases h with ⟨_, _, h⟩ | ⟨_, _, _, h⟩
    · exact Node.isFresh_of_bodyAt? n fresh.1.1 h
    · exact Body.isFresh_of_nodesBodyAt? rest fresh.2 h

theorem Node.isFresh_of_bodyAt? {b : Body} :
    ∀ (n : Node) {a : Address}, n.isFresh → n.bodyAt? a = some b → b.isFresh
  | .mk _ _ _ kind, _, fresh, h => NodeKind.isFresh_of_bodyAt? kind fresh h

/-- Whatever a fresh statement is made of, the bodies in it are fresh. -/
theorem NodeKind.isFresh_of_bodyAt? {b : Body} :
    ∀ (k : NodeKind) {a : Address}, k.isFresh → k.bodyAt? a = some b → b.isFresh
  | .leaf, _, _, h => nomatch h
  | .binding _ _, _, _, h => nomatch h
  | .block body _, _, fresh, h => Body.isFresh_of_bodyAt? body fresh h
  | .loop body _, _, fresh, h => Body.isFresh_of_bodyAt? body fresh h
  | .branch yes no _, _, fresh, h => by
    simp only [NodeKind.isFresh, Bool.and_eq_true] at fresh
    rcases NodeKind.bodyAt?_branch_cases h with ⟨_, _, h⟩ | ⟨_, _, h⟩
    · exact Body.isFresh_of_bodyAt? yes fresh.1.2 h
    · exact Otherwise.isFresh_of_bodyAt? no fresh.2 h
  | .select arms _, _, fresh, h => by
    simp only [NodeKind.isFresh, Bool.and_eq_true] at fresh
    exact NodeKind.isFresh_of_armsBodyAt? arms fresh.2 h

theorem Otherwise.isFresh_of_bodyAt? {b : Body} :
    ∀ (o : Otherwise) {a : Address}, o.isFresh → o.bodyAt? a = some b → b.isFresh
  | .absent, _, _, h => nomatch h
  | .block _ body, _, fresh, h => Body.isFresh_of_bodyAt? body fresh h
  | .chain _ n, _, fresh, h => Node.isFresh_of_bodyAt? n fresh h

/-- Every body in fresh arms is fresh. -/
theorem NodeKind.isFresh_of_armsBodyAt? {b : Body} :
    ∀ (arms : List Arm) {a : Address}, NodeKind.armsFresh arms →
      NodeKind.armsBodyAt? arms a = some b → b.isFresh
  | [], _, _, h => nomatch h
  | m :: rest, _, fresh, h => by
    simp only [NodeKind.armsFresh, Bool.and_eq_true] at fresh
    rcases NodeKind.armsBodyAt?_cases h with ⟨_, _, h⟩ | ⟨_, _, _, h⟩
    · exact Arm.isFresh_of_bodyAt? m fresh.1 h
    · exact NodeKind.isFresh_of_armsBodyAt? rest fresh.2 h

theorem Arm.isFresh_of_bodyAt? {b : Body} :
    ∀ (m : Arm) {a : Address}, m.isFresh → m.bodyAt? a = some b → b.isFresh
  | .flat _ _ _, _, _, h => nomatch h
  | .block _ _ _ body, _, fresh, h => Body.isFresh_of_bodyAt? body fresh h

end

/-- Every body of a fresh file is fresh, however deep it lies. -/
theorem SourceTree.isFresh_of_bodiesBodyAt? {bodies : List Body} {a : Address} {b : Body}
    (fresh : bodies.all Body.isFresh) (h : bodiesBodyAt? bodies a = some b) : b.isFresh := by
  induction bodies generalizing a with
  | nil => cases h
  | cons x rest ih =>
    rw [List.all_cons, Bool.and_eq_true] at fresh
    rcases bodiesBodyAt?_cases h with ⟨_, _, h⟩ | ⟨_, _, _, h⟩
    · exact Body.isFresh_of_bodyAt? x fresh.1 h
    · exact ih fresh.2 h

/-! ## Pieces of a body are pieces of the tree -/

/-- An address that goes on leads past the statement itself, into what it is made of. -/
theorem Node.piece?_append (n : Node) (a : Address) (s : Step) (c : Address) :
    n.piece? (a ++ s :: c) = n.kind.piece? (a ++ s :: c) := by
  cases a with
  | nil => exact n.piece?_cons _ _
  | cons => exact n.piece?_cons _ _

/-- An address that goes on leads past the `else` branch itself. -/
theorem Otherwise.piece?_append (o : Otherwise) (a : Address) (s : Step) (c : Address) :
    o.piece? (a ++ s :: c) = o.inside (a ++ s :: c) := by
  cases a with
  | nil => exact o.piece?_cons _ _
  | cons => exact o.piece?_cons _ _

/-- An address that goes on leads past the arm itself. -/
theorem Arm.piece?_append (m : Arm) (a : Address) (s : Step) (c : Address) :
    m.piece? (a ++ s :: c) = m.inside (a ++ s :: c) := by
  cases a with
  | nil => exact m.piece?_cons _ _
  | cons => exact m.piece?_cons _ _

section Pieces

variable {b : Body} (s : Step) (c : Address)

mutual

/-- Behind the address of a body its pieces have the addresses they have in it. -/
theorem Body.piece?_of_bodyAt? :
    ∀ (x : Body) {a : Address}, x.bodyAt? a = some b → x.piece? (a ++ s :: c) = b.piece? (s :: c)
  | .mk _ _ nodes _, _, h => by
    rcases Body.bodyAt?_cases h with ⟨rfl, rfl⟩ | h
    · rfl
    · exact Body.nodesPiece?_of_bodyAt? nodes h

theorem Body.nodesPiece?_of_bodyAt? :
    ∀ (nodes : List Node) {a : Address}, Body.nodesBodyAt? nodes a = some b →
      Body.nodesPiece? nodes (a ++ s :: c) = b.piece? (s :: c)
  | [], _, h => nomatch h
  | n :: rest, _, h => by
    rcases Body.nodesBodyAt?_cases h with ⟨a, rfl, h⟩ | ⟨i, a, rfl, h⟩
    · exact (n.piece?_append a s c).trans (Node.piece?_of_bodyAt? n h)
    · exact Body.nodesPiece?_of_bodyAt? rest h

theorem Node.piece?_of_bodyAt? :
    ∀ (n : Node) {a : Address}, n.bodyAt? a = some b →
      n.kind.piece? (a ++ s :: c) = b.piece? (s :: c)
  | .mk _ _ _ kind, _, h => NodeKind.piece?_of_bodyAt? kind h

theorem NodeKind.piece?_of_bodyAt? :
    ∀ (k : NodeKind) {a : Address}, k.bodyAt? a = some b →
      k.piece? (a ++ s :: c) = b.piece? (s :: c)
  | .leaf, _, h => nomatch h
  | .binding _ _, _, h => nomatch h
  | .block body _, _, h => Body.piece?_of_bodyAt? body h
  | .loop body _, _, h => Body.piece?_of_bodyAt? body h
  | .branch yes no _, _, h => by
    rcases NodeKind.bodyAt?_branch_cases h with ⟨a, rfl, h⟩ | ⟨a, rfl, h⟩
    · exact Body.piece?_of_bodyAt? yes h
    · exact (no.piece?_append a s c).trans (Otherwise.piece?_of_bodyAt? no h)
  | .select arms _, _, h => NodeKind.armsPiece?_of_bodyAt? arms h

theorem Otherwise.piece?_of_bodyAt? :
    ∀ (o : Otherwise) {a : Address}, o.bodyAt? a = some b →
      o.inside (a ++ s :: c) = b.piece? (s :: c)
  | .absent, _, h => nomatch h
  | .block _ body, _, h => Body.piece?_of_bodyAt? body h
  | .chain _ n, _, h => Node.piece?_of_bodyAt? n h

theorem NodeKind.armsPiece?_of_bodyAt? :
    ∀ (arms : List Arm) {a : Address}, NodeKind.armsBodyAt? arms a = some b →
      NodeKind.armsPiece? arms (a ++ s :: c) = b.piece? (s :: c)
  | [], _, h => nomatch h
  | m :: rest, _, h => by
    rcases NodeKind.armsBodyAt?_cases h with ⟨a, rfl, h⟩ | ⟨i, a, rfl, h⟩
    · exact (m.piece?_append a s c).trans (Arm.piece?_of_bodyAt? m h)
    · exact NodeKind.armsPiece?_of_bodyAt? rest h

theorem Arm.piece?_of_bodyAt? :
    ∀ (m : Arm) {a : Address}, m.bodyAt? a = some b → m.inside (a ++ s :: c) = b.piece? (s :: c)
  | .flat _ _ _, _, h => nomatch h
  | .block _ _ _ body, _, h => Body.piece?_of_bodyAt? body h

end

theorem SourceTree.bodiesPiece?_of_bodyAt? {bodies : List Body} {a : Address}
    (h : bodiesBodyAt? bodies a = some b) :
    bodiesPiece? bodies (a ++ s :: c) = b.piece? (s :: c) := by
  induction bodies generalizing a with
  | nil => cases h
  | cons x rest ih =>
    rcases bodiesBodyAt?_cases h with ⟨a, rfl, h⟩ | ⟨i, a, rfl, h⟩
    · exact Body.piece?_of_bodyAt? s c x h
    · exact ih h

end Pieces

/-! ## Renumbered addresses -/

/-- A step once the pieces at some addresses are gone: siblings that are gone are no longer
counted. -/
def Step.renumber (gone : Address → Bool) : Step → Step
  | .statement i => .statement (Nat.count (fun j => gone [.statement j] = false) i)
  | .arm i => .arm (Nat.count (fun j => gone [.arm j] = false) i)
  | s => s

/-- The address of what stays once the pieces at some addresses are gone. -/
def Address.renumber (gone : Address → Bool) : Address → Address
  | [] => []
  | s :: a => s.renumber gone :: renumber (fun x => gone (s :: x)) a

section Renumber

variable {gone : Address → Bool}

/-- How a later statement is renumbered depends on whether the first one goes. -/
theorem Address.renumber_next_statement (i : Nat) (a : Address) :
    renumber gone (.statement (i + 1) :: a) =
      if gone [.statement 0] then renumber (fun x => gone (next x)) (.statement i :: a)
      else next (renumber (fun x => gone (next x)) (.statement i :: a)) := by
  simp only [renumber, Step.renumber, Nat.count_succ']
  cases gone [.statement 0] with
  | false => rfl
  | true => rfl

/-- How a later arm is renumbered depends on whether the first one goes. -/
theorem Address.renumber_next_arm (i : Nat) (a : Address) :
    renumber gone (.arm (i + 1) :: a) =
      if gone [.arm 0] then renumber (fun x => gone (next x)) (.arm i :: a)
      else next (renumber (fun x => gone (next x)) (.arm i :: a)) := by
  simp only [renumber, Step.renumber, Nat.count_succ']
  cases gone [.arm 0] with
  | false => rfl
  | true => rfl

/-- Whether no piece at one of the addresses above and at an address is gone. -/
def Address.Kept (gone : Address → Bool) (a : Address) : Prop :=
  ∀ p, p <+: a → gone p = false

theorem Address.Kept.of_cons {s : Step} {a : Address} (h : Kept gone (s :: a)) :
    Kept (fun x => gone (s :: x)) a :=
  fun p hp => h (s :: p) (List.prefix_cons_inj s |>.mpr hp)

/-- Where no piece on a later address goes, none goes there counted from the second element on. -/
theorem Address.Kept.of_next {s : Step} {a : Address} (h : Kept gone (s.next :: a)) :
    Kept (fun x => gone (next x)) (s :: a) := by
  intro p hp
  cases p with
  | nil => exact h [] List.nil_prefix
  | cons t p =>
    obtain ⟨rfl, hbelow⟩ := List.cons_prefix_cons.mp hp
    exact h (t.next :: p) (List.cons_prefix_cons.mpr ⟨rfl, hbelow⟩)

end Renumber

mutual

/-- What erasing leaves at the renumbered address of a body is what it leaves of the body. -/
theorem Body.bodyAt?_erase {b : Body} :
    ∀ (x : Body) {a : Address} {gone : Address → Bool}, x.bodyAt? a = some b → a.Kept gone →
      (x.erase gone).bodyAt? (a.renumber gone) = some (b.erase fun c => gone (a ++ c))
  | .mk _ _ nodes _, a, gone, h, kept => by
    rcases Body.bodyAt?_cases h with ⟨rfl, rfl⟩ | h
    · rfl
    · have hnodes := Body.nodesBodyAt?_eraseNodes nodes h kept
      cases a with
      | nil =>
        cases nodes with
        | nil => cases h
        | cons => cases h
      | cons s a => exact hnodes

/-- A body in some statements whose way is kept stands at the renumbered address after erasing, with
what erasing leaves of it. -/
theorem Body.nodesBodyAt?_eraseNodes {b : Body} :
    ∀ (nodes : List Node) {a : Address} {gone : Address → Bool},
      Body.nodesBodyAt? nodes a = some b → a.Kept gone →
        Body.nodesBodyAt? (Body.eraseNodes gone nodes) (a.renumber gone) =
          some (b.erase fun c => gone (a ++ c))
  | [], _, _, h, _ => nomatch h
  | n :: rest, _, gone, h, kept => by
    rcases Body.nodesBodyAt?_cases h with ⟨a, rfl, h⟩ | ⟨i, a, rfl, h⟩
    · have hstays : gone [.statement 0] = false := kept _ ⟨a, rfl⟩
      rw [Body.eraseNodes, if_neg (Bool.eq_false_iff.mp hstays)]
      exact Node.bodyAt?_erase n h kept.of_cons
    · have hrest :=
        Body.nodesBodyAt?_eraseNodes rest h (Address.Kept.of_next (s := .statement i) kept)
      rw [Body.eraseNodes, Address.renumber_next_statement]
      -- If the first statement goes, all addresses of the others move up by one.
      split
      next => exact hrest
      next => exact hrest

theorem Node.bodyAt?_erase {b : Body} :
    ∀ (n : Node) {a : Address} {gone : Address → Bool}, n.bodyAt? a = some b → a.Kept gone →
      (n.erase gone).bodyAt? (a.renumber gone) = some (b.erase fun c => gone (a ++ c))
  | .mk _ _ _ kind, _, _, h, kept => NodeKind.bodyAt?_erase kind h kept

theorem NodeKind.bodyAt?_erase {b : Body} :
    ∀ (k : NodeKind) {a : Address} {gone : Address → Bool}, k.bodyAt? a = some b → a.Kept gone →
      (k.erase gone).bodyAt? (a.renumber gone) = some (b.erase fun c => gone (a ++ c))
  | .leaf, _, _, h, _ => nomatch h
  | .binding _ _, _, _, h, _ => nomatch h
  | .block body _, _, _, h, kept => Body.bodyAt?_erase body h kept
  | .loop body _, _, _, h, kept => Body.bodyAt?_erase body h kept
  | .branch yes no _, _, _, h, kept => by
    rcases NodeKind.bodyAt?_branch_cases h with ⟨a, rfl, h⟩ | ⟨a, rfl, h⟩
    · exact Body.bodyAt?_erase yes h kept.of_cons
    · exact Otherwise.bodyAt?_erase no h kept.of_cons
  | .select arms _, _, _, h, kept => NodeKind.armsBodyAt?_eraseArms arms h kept

theorem Otherwise.bodyAt?_erase {b : Body} :
    ∀ (o : Otherwise) {a : Address} {gone : Address → Bool}, o.bodyAt? a = some b → a.Kept gone →
      (o.erase gone).bodyAt? (a.renumber gone) = some (b.erase fun c => gone (a ++ c))
  | .absent, _, _, h, _ => nomatch h
  | .block hole body, _, gone, h, kept => by
    rw [Otherwise.erase, if_neg (Bool.eq_false_iff.mp (kept [] List.nil_prefix))]
    exact Body.bodyAt?_erase body h kept
  | .chain hole n, _, gone, h, kept => by
    rw [Otherwise.erase, if_neg (Bool.eq_false_iff.mp (kept [] List.nil_prefix))]
    exact Node.bodyAt?_erase n h kept

theorem NodeKind.armsBodyAt?_eraseArms {b : Body} :
    ∀ (arms : List Arm) {a : Address} {gone : Address → Bool},
      NodeKind.armsBodyAt? arms a = some b → a.Kept gone →
        NodeKind.armsBodyAt? (NodeKind.eraseArms gone arms) (a.renumber gone) =
          some (b.erase fun c => gone (a ++ c))
  | [], _, _, h, _ => nomatch h
  | m :: rest, _, gone, h, kept => by
    rcases NodeKind.armsBodyAt?_cases h with ⟨a, rfl, h⟩ | ⟨i, a, rfl, h⟩
    · have hstays : gone [.arm 0] = false := kept _ ⟨a, rfl⟩
      rw [NodeKind.eraseArms, if_neg (Bool.eq_false_iff.mp hstays)]
      exact Arm.bodyAt?_erase m h kept.of_cons
    · have hrest := NodeKind.armsBodyAt?_eraseArms rest h (Address.Kept.of_next (s := .arm i) kept)
      rw [NodeKind.eraseArms, Address.renumber_next_arm]
      split
      next => exact hrest
      next => exact hrest

theorem Arm.bodyAt?_erase {b : Body} :
    ∀ (m : Arm) {a : Address} {gone : Address → Bool}, m.bodyAt? a = some b → a.Kept gone →
      (m.erase gone).bodyAt? (a.renumber gone) = some (b.erase fun c => gone (a ++ c))
  | .flat _ _ _, _, _, h, _ => nomatch h
  | .block _ _ _ body, _, _, h, kept => Body.bodyAt?_erase body h kept

end

theorem SourceTree.bodiesBodyAt?_eraseBodies {bodies : List Body} {a : Address} {b : Body}
    {gone : Address → Bool} (h : bodiesBodyAt? bodies a = some b) (kept : a.Kept gone) :
    bodiesBodyAt? (eraseBodies gone bodies) (a.renumber gone) =
      some (b.erase fun c => gone (a ++ c)) := by
  induction bodies generalizing a gone with
  | nil => cases h
  | cons x rest ih =>
    rcases bodiesBodyAt?_cases h with ⟨a, rfl, h⟩ | ⟨i, a, rfl, h⟩
    · exact Body.bodyAt?_erase x h kept.of_cons
    · exact ih h (Address.Kept.of_next (s := .body i) kept)

/-! ## The least set below a body -/

/-- What is nested below an address lies in the whole. -/
theorem Embeds.under {look inner : Address → Option Piece} (a : Address)
    (same : ∀ s c, look (a ++ s :: c) = inner (s :: c)) (hollow : inner [] = none) :
    Embeds look inner (a ++ ·) := by
  have hcons : ∀ {c}, (inner c).isSome → ∃ s d, c = s :: d := by
    intro c hc
    cases c with
    | nil =>
      rw [hollow] at hc
      cases hc
    | cons s d => exact ⟨s, d, rfl⟩
  refine ⟨?_, fun c d _ => (List.append_assoc a c d).symm, ?_, ?_, ?_⟩
  · intro c hc
    obtain ⟨s, d, rfl⟩ := hcons hc
    exact same s d
  · intro c d hc hd
    obtain ⟨s, c, rfl⟩ := hcons hc
    rwa [List.append_assoc, List.cons_append, same] at hd
  · intro c x _ _ h
    obtain ⟨f, i, j, d, rfl, hij, rfl⟩ := h
    exact ⟨a ++ f, i, j, d, (List.append_assoc a f _).symm, hij, (List.append_assoc a f _).symm⟩
  · intro c x hc hx h
    obtain ⟨f, i, j, d, hf, hij, rfl⟩ := h
    obtain ⟨s, c, rfl⟩ := hcons hc
    -- The last step of the address belongs to the part, since the part is not empty there.
    obtain ⟨init, last, hlast⟩ :=
      List.eq_nil_or_concat (s :: c) |>.resolve_left (List.cons_ne_nil s c)
    rw [hlast, List.concat_eq_append] at hf ⊢
    rw [← List.append_assoc] at hf
    obtain ⟨rfl, hstep⟩ := List.append_inj' hf rfl
    injection hstep with hstep
    subst hstep
    refine ⟨init ++ .statement j :: d, List.append_assoc a init _, ?_, init, i, j, d, rfl, hij, rfl⟩
    rw [List.append_assoc] at hx
    cases init with
    | nil => rwa [List.nil_append, same] at hx
    | cons t init => rwa [List.cons_append, same] at hx

/-- Below an address above and at which all stays, the least set of the whole is that of the
part. -/
theorem LeastRemoval.under {dead : Position → Bool} {look inner : Address → Option Piece}
    {gone : Address → Bool} (h : LeastRemoval dead look gone) {a : Address}
    (same : ∀ s c, look (a ++ s :: c) = inner (s :: c)) (hollow : inner [] = none)
    (kept : a.Kept gone) : LeastRemoval dead inner fun c => gone (a ++ c) := by
  have e := Embeds.under a same hollow
  refine ⟨e.closed h.1, fun S closed c hc => ?_⟩
  -- Without what `S` does not ask for below the address, the set of the whole is still closed.
  have hclosed : Closed dead look {x | gone x ∧ ∀ c, x = a ++ c → c ∈ S} := by
    constructor
    · rintro x d ⟨hx, hS⟩ hpiece hd
      refine ⟨h.1.nested x d hx hpiece hd, fun c hc => ?_⟩
      rcases List.append_eq_append_iff.mp hc with ⟨f, rfl, rfl⟩ | ⟨f, rfl, rfl⟩
      · exact absurd hx (Bool.eq_false_iff.mp (kept x ⟨f, rfl⟩))
      · cases f with
        | nil => exact absurd hx (Bool.eq_false_iff.mp (kept _ (by simp)))
        | cons s f =>
          rw [same] at hpiece
          rw [List.append_assoc, List.cons_append, same] at hd
          exact closed.nested (s :: f) d (hS _ rfl) hpiece hd
    · intro x hx
      refine ⟨h.1.demanded x (hx.mono (fun _ hq => hq) fun _ hy => hy.1), ?_⟩
      rintro c rfl
      cases c with
      | nil =>
        have hgone := h.1.demanded _ (hx.mono (fun _ hq => hq) fun _ hy => hy.1)
        exact absurd hgone (Bool.eq_false_iff.mp (kept _ (by simp)))
      | cons s c =>
        have hsome : (inner (s :: c)).isSome := by
          rw [← same]
          exact hx.isSome
        have hinner := (e.demanded_iff hsome).mp hx
        exact closed.demanded _ (hinner.mono (fun _ hq => hq) fun d hd => hd.2 d rfl)
  exact (h.2 hclosed hc).2 c rfl

/-- There is only one least set of pieces to remove. -/
theorem LeastRemoval.unique {dead : Position → Bool} {look : Address → Option Piece}
    {gone gone' : Address → Bool} (h : LeastRemoval dead look gone)
    (h' : LeastRemoval dead look gone') :
    gone = gone' := by
  funext a
  exact Bool.eq_iff_iff.mpr (Set.ext_iff.mp (IsLeast.unique h h') a)

/-- Of a fresh body in which all is alive the least set takes nothing. -/
theorem Body.erase_of_alive {dead : Position → Bool} {b : Body} {gone : Address → Bool}
    (fresh : b.isFresh) (alive : AllAlive dead b.starts) (h : LeastRemoval dead b.piece? gone) :
    b.erase gone = b := by
  obtain ⟨gone', hleast, hswept⟩ := Body.sweep_eq_erase dead b fresh
  rw [h.unique hleast, ← hswept, Body.sweep_of_alive b fresh alive]

/-! ## Passes over a parsed tree -/

namespace SourceTree

variable {t : SourceTree} {m : MergedCoverage}

/-- Any number of passes under one coverage come to the same tree as the first of them. -/
theorem passes_replicate (t : SourceTree) (m : MergedCoverage) (n : Nat) :
    t.passes (List.replicate (n + 1) m) = (t.pass m).1 := by
  induction n with
  | zero => rfl
  | succ n ih =>
    -- The first pass of the longer run is followed by passes that find the tree settled.
    have hlast : t.passes (List.replicate (n + 1 + 1) m) =
        ((t.passes (List.replicate (n + 1) m)).pass m).1 := by
      rw [List.replicate_succ', passes, List.foldl_append]
      rfl
    rw [hlast, ih, pass_pass_self]

/-- Where pruning keeps all that is around a body in which all is alive, it keeps the body. -/
theorem PrunesTo.bodyAt?_of_alive {next : SourceTree} {gone : Address → Bool} (fresh : t.isFresh)
    (h : t.PrunesTo m next gone) {a : Address} {b : Body} (hbody : t.bodyAt? a = some b)
    (alive : AllAlive (m.isDead t.path) b.starts) (kept : a.Kept gone) :
    next.bodyAt? (a.renumber gone) = some b := by
  have hleast := h.least.under (fun s c => bodiesPiece?_of_bodyAt? s c hbody) b.piece?_nil kept
  have herase := Body.erase_of_alive (isFresh_of_bodiesBodyAt? fresh hbody) alive hleast
  rw [bodyAt?, h.bodies, bodiesBodyAt?_eraseBodies hbody kept, herase]

/-- A pass leaves a fresh tree as it is if no position in it is dead. -/
theorem pass_of_alive (fresh : t.isFresh) (alive : AllAlive (m.isDead t.path) t.starts) :
    t.pass m = (t, 0) := by
  rw [pass_of_fresh fresh]
  exact swept_eq_self (sweepBodies_of_alive fresh alive)

theorem render?_of_pristine (verify : Bool) (h : t.holes = []) :
    t.render? verify = .ok t.source := by
  have hpristine : t.isPristine := by rw [isPristine, h]; rfl
  simp [render?, splice?_of_pristine h, hpristine]

/-- **Where nothing is dead nothing goes.** Let any number of passes go over a parsed tree, all with
the same coverage. A body in which no position is dead at which coverage is looked up, at whatever
depth, is afterwards exactly what it was, unless a piece is gone that was around it. (The pieces
that are gone are the least set that the rules of removing allow. The body is found where it stands
without its lost siblings.) If no such position of the file is dead, pruning removes nothing, and
the text is the source. -/
theorem alive_bodies_stay (path source : String) (t : SourceTree)
    (parsed : parse? path source = .ok t) (m : MergedCoverage) :
    (∀ n, ∃ gone, t.PrunesTo m (t.passes (List.replicate (n + 1) m)) gone ∧
      ∀ a b, t.bodyAt? a = some b → AllAlive (m.isDead path) b.starts →
        (∃ p, p <+: a ∧ (t.piece? p).isSome ∧ gone p) ∨
          (t.passes (List.replicate (n + 1) m)).bodyAt? (a.renumber gone) = some b) ∧
    (AllAlive (m.isDead path) t.starts →
      (∀ maxPasses, 0 < maxPasses → t.prune? m maxPasses = .ok (t, ⟨1, 0⟩)) ∧ t.isPristine ∧
        t.splice? = .ok source ∧ ∀ verify, t.render? verify = .ok source) := by
  have hfresh := isFresh_of_parse? parsed
  obtain ⟨blocks, _, rfl⟩ := exists_lowered_of_parse? parsed
  refine ⟨fun n => ?_, fun alive => ?_⟩
  · rw [passes_replicate]
    obtain ⟨gone, hprunes⟩ := exists_prunesTo hfresh m
    refine ⟨gone, hprunes, fun a b hbody alive => or_iff_not_imp_left.mpr fun hkept => ?_⟩
    refine hprunes.bodyAt?_of_alive hfresh hbody alive fun p hp =>
      Bool.eq_false_iff.mpr fun hgone => ?_
    exact hkept ⟨p, hp, hprunes.least.piece hgone, hgone⟩
  · refine ⟨fun maxPasses hpos => ?_, rfl, splice?_of_pristine rfl, fun verify =>
      render?_of_pristine verify rfl⟩
    obtain ⟨left, rfl⟩ : ∃ left, maxPasses = left + 1 := ⟨maxPasses - 1, by omega⟩
    simp [prune?, pruneFrom, pass_of_alive hfresh alive]

/-- A function with one call, and one whose loop is empty as written. -/
def callAndLoop : String :=
  "fn f() \x7b\n    a();\n\x7d\n\nfn g() \x7b\n    let n = 1;\n    for _ in 0..n \x7b\x7d\n\x7d\n"

/-- Coverage of `callAndLoop` in which the call ran some number of times. -/
def callRun (count : UInt32) : MergedCoverage :=
  .ofProfiles [.ofBlocks .set
    [⟨"f.rs", ⟨⟨2, 1⟩, ⟨3, 1⟩⟩, 1, count⟩, ⟨"f.rs", ⟨⟨5, 1⟩, ⟨8, 2⟩⟩, 2, 1⟩]]

/-- Without the call, `callAndLoop` loses it and keeps its second function with the `let` and the
empty loop. If the call has run, it keeps all. -/
theorem alive_bodies_stay_callAndLoop :
    ∃ t b, parse? "f.rs" callAndLoop = .ok t ∧ t.bodyAt? [.body 1] = some b ∧ b.count = 2 ∧
      AllAlive ((callRun 0).isDead "f.rs") b.starts ∧ (t.pass (callRun 0)).2 = 1 ∧
      (t.passes [callRun 0, callRun 0]).bodyAt? [.body 1] = some b ∧
      AllAlive ((callRun 1).isDead "f.rs") t.starts ∧ t.render? true = .ok callAndLoop := by
  have hrun : ((parse? "f.rs" callAndLoop).toOption.bind fun t =>
      (t.bodyAt? [.body 1]).map fun b =>
        (b.count, decide (AllAlive ((callRun 0).isDead "f.rs") b.starts), (t.pass (callRun 0)).2,
          (t.piece? [.body 1]).isSome, decide (AllAlive ((callRun 1).isDead "f.rs") t.starts))) =
      some (2, true, 1, false, true) := by decide +kernel
  obtain ⟨t, hparse, hrun⟩ := exists_of_toOption_bind hrun
  obtain ⟨b, hbody, hrun⟩ := Option.map_eq_some_iff.mp hrun
  simp only [Prod.mk.injEq, decide_eq_true_eq] at hrun
  obtain ⟨hcount, halive, hpass, hpiece, hall⟩ := hrun
  obtain ⟨gone, _, hstays⟩ := (alive_bodies_stay "f.rs" callAndLoop t hparse (callRun 0)).1 1
  refine ⟨t, b, hparse, hbody, hcount, halive, hpass, ?_, hall, ?_⟩
  · -- Nothing that can be removed is around the body of a function.
    refine (hstays [.body 1] b hbody halive).resolve_left ?_
    rintro ⟨p, hp, hsome, _⟩
    rcases List.prefix_cons_iff.mp hp with rfl | ⟨q, rfl, hq⟩
    · simp [piece?] at hsome
    · rw [List.prefix_nil.mp hq, hpiece] at hsome
      cases hsome
  · exact ((alive_bodies_stay "f.rs" callAndLoop t hparse (callRun 1)).2 hall).2.2.2 true

end SourceTree

end CoverageReplay
