import CoverageReplay.Yaml.Token

/-!
# Nodes

The content of a YAML document. An alias stands for a node with an anchor, by the number of that
anchor. A node may hold an alias of itself.
-/

namespace CoverageReplay.Yaml

/-- A scalar with the address of its tag, if it has one. -/
structure Scalar where
  text : String
  style : ScalarStyle
  tag : Option String
  deriving DecidableEq, Repr, Inhabited

/-- A part of a document. -/
inductive Node where
  | scalar (s : Scalar)
  | sequence (items : List Node)
  | mapping (pairs : List (Node × Node))
  | alias (anchor : Nat)
  deriving Repr, Inhabited

namespace Node

/-- What stands where nothing is written. -/
def nothing (tag : Option String) : Node := .scalar ⟨"", .plain, tag⟩

end Node

/-- An anchored node. -/
structure Anchored where
  /-- The number that aliases use. -/
  number : Nat
  /-- The number of anchors that begin before it. -/
  order : Nat
  node : Node
  deriving Repr, Inhabited

/-- A document. -/
structure Document where
  root : Node
  anchored : List Anchored
  deriving Repr, Inhabited

namespace Document

/-- The node that an alias stands for: of the anchored nodes with its number the one that begins
last. -/
def anchored? (d : Document) (number : Nat) : Option Node :=
  let last := fun (best : Option Anchored) (a : Anchored) =>
    if a.number = number && best.all (·.order < a.order) then some a else best
  (d.anchored.foldl last none).map (·.node)

/-- A node, or the node that it is an alias of. -/
def resolve (d : Document) : Node → Option Node
  | .alias number => d.anchored? number
  | n => some n

end Document

end CoverageReplay.Yaml
