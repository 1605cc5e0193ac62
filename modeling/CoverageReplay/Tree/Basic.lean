import CoverageReplay.Coverage.Position
import CoverageReplay.Total

/-!
# Trees of removable code

A `SourceTree` keeps a source text and, for every function body in it, the statements that may be
removed. A removed piece leaves a hole, the stretch of bytes that it takes in the text; rendering
copies the text around the holes, so what stays keeps its layout and comments.

Three kinds of pieces can be removed: statements (`Node`), `else` branches (`Otherwise`) and match
arms (`Arm`).
-/

namespace CoverageReplay

/-- A stretch of bytes of a source text, its end excluded. -/
structure Hole where
  start : Nat
  stop : Nat
  deriving DecidableEq, Repr, Inhabited

mutual

/-- A list of statements in braces. -/
inductive Body where
  /-- Where the opening brace stands, the byte after the closing one, the statements, and whether
  one of them has been removed. -/
  | mk (opening : Position) (closeEnd : Nat) (nodes : List Node) (pruned : Bool)

/-- A statement. -/
inductive Node where
  /-- Where coverage is looked up, the bytes it takes, the identifiers outside nested bodies. -/
  | mk (start : Position) (hole : Hole) (idents : List String) (kind : NodeKind)

/-- What a statement is, as far as removing goes. -/
inductive NodeKind where
  /-- A statement without removable parts. -/
  | leaf
  /-- A `let`: the name when its pattern is a single identifier, and whether a later statement of
  the body as written mentions that name. -/
  | binding (name : Option String) (used : Bool)
  /-- A block. -/
  | block (body : Body) (removable : Bool)
  /-- A loop. -/
  | loop (body : Body) (removable : Bool)
  /-- An `if`, and whether it has lost an `else` branch. -/
  | branch (yes : Body) (no : Otherwise) (lostElse : Bool)
  /-- A `match`, and whether it has lost an arm. -/
  | select (arms : List Arm) (pruned : Bool)

/-- The `else` branch of an `if`. Its hole begins after the closing brace before it. -/
inductive Otherwise where
  | absent
  | block (hole : Hole) (body : Body)
  | chain (hole : Hole) (node : Node)

/-- A match arm: where its body starts, the bytes it takes, the identifiers outside a block body. -/
inductive Arm where
  | flat (start : Position) (hole : Hole) (idents : List String)
  | block (start : Position) (hole : Hole) (idents : List String) (body : Body)

end

instance : Inhabited NodeKind := ⟨.leaf⟩

instance : Inhabited Node := ⟨.mk default default [] .leaf⟩

instance : Inhabited Body := ⟨.mk default 0 [] false⟩

namespace Body

def opening : Body → Position
  | .mk opening _ _ _ => opening

def closeEnd : Body → Nat
  | .mk _ closeEnd _ _ => closeEnd

def nodes : Body → List Node
  | .mk _ _ nodes _ => nodes

/-- Whether a statement has been removed. -/
def pruned : Body → Bool
  | .mk _ _ _ pruned => pruned

/-- Whether removing has left no statement. -/
def isEmptied (b : Body) : Bool :=
  b.pruned && b.nodes.isEmpty

end Body

namespace Node

def start : Node → Position
  | .mk start _ _ _ => start

def hole : Node → Hole
  | .mk _ hole _ _ => hole

/-- The identifiers outside nested bodies. -/
def idents : Node → List String
  | .mk _ _ idents _ => idents

def kind : Node → NodeKind
  | .mk _ _ _ kind => kind

/-- Whether removing has left nothing of the statement that is worth showing. -/
def isVacuous (n : Node) : Bool :=
  match n.kind with
  | .block body removable => removable && body.isEmptied
  | .loop body removable => removable && body.isEmptied
  | .branch yes .absent lostElse => yes.nodes.isEmpty && (yes.pruned || lostElse)
  | .select arms pruned => pruned && arms.isEmpty
  | _ => false

end Node

namespace Arm

/-- Where the body of the arm starts. -/
def start : Arm → Position
  | .flat start _ _ => start
  | .block start _ _ _ => start

def hole : Arm → Hole
  | .flat _ hole _ => hole
  | .block _ hole _ _ => hole

/-- The block that is the body of the arm. -/
def body? : Arm → Option Body
  | .flat _ _ _ => none
  | .block _ _ _ body => some body

end Arm

/-! ## Counting -/

mutual

/-- The removable pieces of a body. -/
def Body.count : Body → Nat
  | .mk _ _ nodes _ => Body.countNodes nodes

/-- The removable pieces of some statements. -/
def Body.countNodes : List Node → Nat
  | [] => 0
  | n :: rest => n.count + Body.countNodes rest

/-- A statement and the removable pieces in it. -/
def Node.count : Node → Nat
  | .mk _ _ _ kind => 1 + kind.count

/-- The removable pieces in a statement. -/
def NodeKind.count : NodeKind → Nat
  | .leaf => 0
  | .binding _ _ => 0
  | .block body _ => body.count
  | .loop body _ => body.count
  | .branch yes no _ => yes.count + no.count
  | .select arms _ => NodeKind.countArms arms

/-- An `else` branch and the removable pieces in it. -/
def Otherwise.count : Otherwise → Nat
  | .absent => 0
  | .block _ body => 1 + body.count
  | .chain _ node => 1 + node.count

/-- Some arms and the removable pieces in them. -/
def NodeKind.countArms : List Arm → Nat
  | [] => 0
  | a :: rest => a.count + NodeKind.countArms rest

/-- An arm and the removable pieces in it. -/
def Arm.count : Arm → Nat
  | .flat _ _ _ => 1
  | .block _ _ _ body => 1 + body.count

end

/-- A source text with its removable code and the holes left so far. -/
structure SourceTree where
  path : String
  source : String
  /-- The function bodies in the order of the text. -/
  bodies : List Body
  /-- What has been removed, in the order of removing. -/
  holes : List Hole
  deriving Inhabited

namespace SourceTree

/-- The removable pieces left in the tree. -/
def count (t : SourceTree) : Nat :=
  total (t.bodies.map Body.count)

/-- Whether nothing has been removed. -/
def isPristine (t : SourceTree) : Bool :=
  t.holes.isEmpty

end SourceTree

end CoverageReplay
