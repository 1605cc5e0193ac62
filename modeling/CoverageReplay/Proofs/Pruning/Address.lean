import CoverageReplay.Pruning
import Mathlib.Data.Set.Basic
import Mathlib.Order.Bounds.Basic

/-!
# Addresses of removable pieces

A removable piece is reached from the root of a tree by a list of steps, its `Address`: into a body,
to a statement of it, to the `else` branch or an arm of that statement, to a statement nested there,
and so on. `piece?` looks a piece up at its address, and `erase` takes the pieces at some addresses
away. The address of a piece is its place in the tree *before* anything is removed, so a set of
addresses says which pieces a removal takes, without saying in which order.
-/

namespace CoverageReplay

/-- A step from a piece of code to a piece directly inside it. -/
inductive Step where
  /-- To a function body of a tree. -/
  | body (i : Nat)
  /-- To a statement of a block. -/
  | statement (i : Nat)
  /-- To the block that an `if` runs when its condition holds. -/
  | yes
  /-- To the `else` branch of an `if`. -/
  | otherwise
  /-- To an arm of a `match`. -/
  | arm (i : Nat)
  deriving DecidableEq, Repr

/-- The way from the root to a piece. -/
abbrev Address := List Step

/-- Whether an `if` has an `else` branch. -/
def Otherwise.isPresent : Otherwise → Bool
  | .absent => false
  | _ => true

/-- A piece of code that can be removed. -/
inductive Piece where
  | statement (n : Node)
  | otherwise (o : Otherwise)
  | arm (a : Arm)

namespace Step

/-- The step to the next sibling. -/
def next : Step → Step
  | .body i => .body (i + 1)
  | .statement i => .statement (i + 1)
  | .yes => .yes
  | .otherwise => .otherwise
  | .arm i => .arm (i + 1)

/-- A later element is not the first one. -/
theorem body_zero_ne_next (t : Step) : body 0 ≠ t.next := by
  cases t with
  | body i => simp [next]
  | statement | yes | otherwise | arm => nofun

/-- A later statement is not the first one. -/
theorem statement_zero_ne_next (t : Step) : statement 0 ≠ t.next := by
  cases t with
  | statement i => simp [next]
  | body | yes | otherwise | arm => nofun

/-- A later arm is not the first one. -/
theorem arm_zero_ne_next (t : Step) : arm 0 ≠ t.next := by
  cases t with
  | arm i => simp [next]
  | body | statement | yes | otherwise => nofun

/-- The steps to the next elements lead to different ones. -/
theorem next_injective : Function.Injective next := by
  intro s t h
  cases s with
  | body i =>
    cases t with
    | body j => simpa [next] using h
    | statement | yes | otherwise | arm => cases h
  | statement i =>
    cases t with
    | statement j => simpa [next] using h
    | body | yes | otherwise | arm => cases h
  | yes =>
    cases t with
    | yes => rfl
    | body | statement | otherwise | arm => cases h
  | otherwise =>
    cases t with
    | otherwise => rfl
    | body | statement | yes | arm => cases h
  | arm i =>
    cases t with
    | arm j => simpa [next] using h
    | body | statement | yes | otherwise => cases h

end Step

namespace Address

/-- The address in a list with one more element at its front. -/
def next : Address → Address
  | [] => []
  | s :: a => s.next :: a

@[simp] theorem next_cons (s : Step) (a : Address) : next (s :: a) = s.next :: a := rfl

end Address

namespace Piece

/-- The names that a piece mentions outside the pieces nested in it. -/
def names : Piece → List String
  | .statement n => n.idents
  | .otherwise (.chain _ n) => n.idents
  | .otherwise _ => []
  | .arm (.flat _ _ idents) => idents
  | .arm (.block _ _ idents _) => idents

end Piece

/-! ## Looking pieces up -/

mutual

/-- The piece at an address in a body. -/
def Body.piece? : Body → Address → Option Piece
  | .mk _ _ nodes _, a => Body.nodesPiece? nodes a

/-- The piece at an address in some statements. -/
def Body.nodesPiece? : List Node → Address → Option Piece
  | [], _ => none
  | n :: rest, a =>
    match a with
    | .statement 0 :: a => n.piece? a
    | .statement (i + 1) :: a => Body.nodesPiece? rest (.statement i :: a)
    | _ => none

/-- The piece at an address in a statement, which itself is at the empty one. -/
def Node.piece? : Node → Address → Option Piece
  | .mk start hole idents kind, a =>
    match a with
    | [] => some (.statement (.mk start hole idents kind))
    | s :: a => kind.piece? (s :: a)

/-- The piece at an address in what is nested in a statement. -/
def NodeKind.piece? : NodeKind → Address → Option Piece
  | .leaf, _ => none
  | .binding _ _, _ => none
  | .block body _, a => body.piece? a
  | .loop body _, a => body.piece? a
  | .branch yes no _, a =>
    match a with
    | .yes :: a => yes.piece? a
    | .otherwise :: a => no.piece? a
    | _ => none
  | .select arms _, a => NodeKind.armsPiece? arms a

/-- The piece at an address in an `else` branch, which itself is at the empty one. -/
def Otherwise.piece? : Otherwise → Address → Option Piece
  | .absent, _ => none
  | .block hole body, a =>
    match a with
    | [] => some (.otherwise (.block hole body))
    | s :: a => body.piece? (s :: a)
  | .chain hole n, a =>
    match a with
    | [] => some (.otherwise (.chain hole n))
    | s :: a => n.piece? (s :: a)

/-- The piece at an address in some arms. -/
def NodeKind.armsPiece? : List Arm → Address → Option Piece
  | [], _ => none
  | m :: rest, a =>
    match a with
    | .arm 0 :: a => m.piece? a
    | .arm (i + 1) :: a => NodeKind.armsPiece? rest (.arm i :: a)
    | _ => none

/-- The piece at an address in an arm, which itself is at the empty one. -/
def Arm.piece? : Arm → Address → Option Piece
  | .flat start hole idents, a =>
    match a with
    | [] => some (.arm (.flat start hole idents))
    | _ :: _ => none
  | .block start hole idents body, a =>
    match a with
    | [] => some (.arm (.block start hole idents body))
    | s :: a => body.piece? (s :: a)

end

/-- The piece at an address in some function bodies. -/
def SourceTree.bodiesPiece? : List Body → Address → Option Piece
  | [], _ => none
  | b :: rest, a =>
    match a with
    | .body 0 :: a => b.piece? a
    | .body (i + 1) :: a => bodiesPiece? rest (.body i :: a)
    | _ => none

/-- The piece at an address in a tree. -/
def SourceTree.piece? (t : SourceTree) (a : Address) : Option Piece :=
  bodiesPiece? t.bodies a

/-! ## Erasing pieces -/

mutual

/-- A body without the pieces at some addresses. -/
def Body.erase (gone : Address → Bool) : Body → Body
  | .mk opening closeEnd nodes pruned =>
    let kept := Body.eraseNodes gone nodes
    .mk opening closeEnd kept (pruned || kept.length < nodes.length)

/-- Some statements without the pieces at some addresses. -/
def Body.eraseNodes (gone : Address → Bool) : List Node → List Node
  | [] => []
  | n :: rest =>
    let kept := Body.eraseNodes (fun a => gone (Address.next a)) rest
    if gone [.statement 0] then kept else n.erase (fun a => gone (.statement 0 :: a)) :: kept

/-- A statement without the pieces in it at some addresses. -/
def Node.erase (gone : Address → Bool) : Node → Node
  | .mk start hole idents kind => .mk start hole idents (kind.erase gone)

/-- What is nested in a statement, without the pieces at some addresses. -/
def NodeKind.erase (gone : Address → Bool) : NodeKind → NodeKind
  | .leaf => .leaf
  | .binding name used => .binding name used
  | .block body removable => .block (body.erase gone) removable
  | .loop body removable => .loop (body.erase gone) removable
  | .branch yes no lostElse =>
    .branch (yes.erase fun a => gone (.yes :: a)) (no.erase fun a => gone (.otherwise :: a))
      (lostElse || no.isPresent && gone [.otherwise])
  | .select arms pruned =>
    let kept := NodeKind.eraseArms gone arms
    .select kept (pruned || kept.length < arms.length)

/-- An `else` branch without the pieces at some addresses. -/
def Otherwise.erase (gone : Address → Bool) : Otherwise → Otherwise
  | .absent => .absent
  | .block hole body => if gone [] then .absent else .block hole (body.erase gone)
  | .chain hole n => if gone [] then .absent else .chain hole (n.erase gone)

/-- Some arms without the pieces at some addresses. -/
def NodeKind.eraseArms (gone : Address → Bool) : List Arm → List Arm
  | [] => []
  | m :: rest =>
    let kept := NodeKind.eraseArms (fun a => gone (Address.next a)) rest
    if gone [.arm 0] then kept else m.erase (fun a => gone (.arm 0 :: a)) :: kept

/-- An arm without the pieces in it at some addresses. -/
def Arm.erase (gone : Address → Bool) : Arm → Arm
  | .flat start hole idents => .flat start hole idents
  | .block start hole idents body => .block start hole idents (body.erase gone)

end

/-- Some function bodies without the pieces at some addresses. -/
def SourceTree.eraseBodies (gone : Address → Bool) : List Body → List Body
  | [] => []
  | b :: rest =>
    b.erase (fun a => gone (.body 0 :: a)) :: eraseBodies (fun a => gone (Address.next a)) rest

/-! ## Lookups by the first step -/

section Lookup

@[simp] theorem Node.piece?_nil (n : Node) : n.piece? [] = some (.statement n) := by
  cases n
  rfl

/-- Any other address in a statement leads on into what it is made of. -/
@[simp] theorem Node.piece?_cons (n : Node) (s : Step) (a : Address) :
    n.piece? (s :: a) = n.kind.piece? (s :: a) := by
  cases n
  rfl

/-- The empty address names no statement of a list. -/
@[simp] theorem Body.nodesPiece?_nil (nodes : List Node) : nodesPiece? nodes [] = none := by
  cases nodes with
  | nil => rfl
  | cons => rfl

@[simp] theorem Body.nodesPiece?_zero (n : Node) (rest : List Node) (a : Address) :
    nodesPiece? (n :: rest) (.statement 0 :: a) = n.piece? a := rfl

/-- In a list each address of the later statements is one further. -/
@[simp] theorem Body.nodesPiece?_next (n : Node) (rest : List Node) (s : Step) (a : Address) :
    nodesPiece? (n :: rest) (s.next :: a) = nodesPiece? rest (s :: a) := by
  cases rest with
  | nil =>
    cases s with
    | body | statement | yes | otherwise | arm => rfl
  | cons =>
    cases s with
    | body | statement | yes | otherwise | arm => rfl

@[simp] theorem Body.piece?_nil (b : Body) : b.piece? [] = none := by
  cases b
  exact nodesPiece?_nil _

/-- The empty address names no arm of a list. -/
@[simp] theorem NodeKind.armsPiece?_nil (arms : List Arm) : armsPiece? arms [] = none := by
  cases arms with
  | nil => rfl
  | cons => rfl

@[simp] theorem NodeKind.armsPiece?_zero (m : Arm) (rest : List Arm) (a : Address) :
    armsPiece? (m :: rest) (.arm 0 :: a) = m.piece? a := rfl

/-- In a list each address of the later arms is one further. -/
@[simp] theorem NodeKind.armsPiece?_next (m : Arm) (rest : List Arm) (s : Step) (a : Address) :
    armsPiece? (m :: rest) (s.next :: a) = armsPiece? rest (s :: a) := by
  cases rest with
  | nil =>
    cases s with
    | body | statement | yes | otherwise | arm => rfl
  | cons =>
    cases s with
    | body | statement | yes | otherwise | arm => rfl

/-- What a statement is made of has no piece at the empty address. -/
@[simp] theorem NodeKind.piece?_nil (k : NodeKind) : k.piece? [] = none := by
  cases k with
  | leaf => rfl
  | binding name used => rfl
  | block body removable => exact Body.piece?_nil body
  | loop body removable => exact Body.piece?_nil body
  | branch yes no lostElse => rfl
  | select arms pruned => exact armsPiece?_nil arms

theorem Otherwise.piece?_block (hole : Hole) (body : Body) (s : Step) (a : Address) :
    (block hole body).piece? (s :: a) = body.piece? (s :: a) := rfl

theorem Otherwise.piece?_chain (hole : Hole) (n : Node) (s : Step) (a : Address) :
    (chain hole n).piece? (s :: a) = n.kind.piece? (s :: a) :=
  Node.piece?_cons n s a

/-- An arm without a block holds as little as a statement without parts. -/
theorem Arm.piece?_flat (start : Position) (hole : Hole) (idents : List String) (s : Step)
    (a : Address) : (flat start hole idents).piece? (s :: a) = NodeKind.leaf.piece? (s :: a) := rfl

theorem Arm.piece?_block (start : Position) (hole : Hole) (idents : List String) (body : Body)
    (s : Step) (a : Address) :
    (block start hole idents body).piece? (s :: a) = body.piece? (s :: a) := rfl

/-- An arm is found at the empty address. -/
@[simp] theorem Arm.piece?_nil (m : Arm) : m.piece? [] = some (.arm m) := by
  cases m with
  | flat => rfl
  | block => rfl

/-- The empty address names no body of a file. -/
@[simp] theorem SourceTree.bodiesPiece?_nil (bodies : List Body) :
    bodiesPiece? bodies [] = none := by
  cases bodies with
  | nil => rfl
  | cons => rfl

@[simp] theorem SourceTree.bodiesPiece?_zero (b : Body) (rest : List Body) (a : Address) :
    bodiesPiece? (b :: rest) (.body 0 :: a) = b.piece? a := rfl

/-- In a file each address of the later bodies is one further. -/
@[simp] theorem SourceTree.bodiesPiece?_next (b : Body) (rest : List Body) (s : Step)
    (a : Address) : bodiesPiece? (b :: rest) (s.next :: a) = bodiesPiece? rest (s :: a) := by
  cases rest with
  | nil =>
    cases s with
    | body | statement | yes | otherwise | arm => rfl
  | cons =>
    cases s with
    | body | statement | yes | otherwise | arm => rfl

end Lookup

end CoverageReplay
