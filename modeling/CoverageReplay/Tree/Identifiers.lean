import CoverageReplay.Tree.Basic

/-!
# Identifiers mentioned in a tree

`mentions` asks for one name and stops at the first find; `identifiers` lists all names. Both look
at a piece and at everything nested in it.
-/

namespace CoverageReplay

mutual

/-- Whether a name is mentioned in a body. -/
def Body.mentions (name : String) : Body → Bool
  | .mk _ _ nodes _ => Body.nodesMention name nodes

/-- Whether a name is mentioned in some statements. -/
def Body.nodesMention (name : String) : List Node → Bool
  | [] => false
  | n :: rest => n.mentions name || Body.nodesMention name rest

/-- Whether a name is mentioned in a statement. -/
def Node.mentions (name : String) : Node → Bool
  | .mk _ _ idents kind => idents.contains name || kind.mentions name

/-- Whether a name is mentioned in what is nested in a statement. -/
def NodeKind.mentions (name : String) : NodeKind → Bool
  | .leaf => false
  | .binding _ _ => false
  | .block body _ => body.mentions name
  | .loop body _ => body.mentions name
  | .branch yes no _ => yes.mentions name || no.mentions name
  | .select arms _ => NodeKind.armsMention name arms

/-- Whether a name is mentioned in an `else` branch. -/
def Otherwise.mentions (name : String) : Otherwise → Bool
  | .absent => false
  | .block _ body => body.mentions name
  | .chain _ node => node.mentions name

/-- Whether a name is mentioned in some arms. -/
def NodeKind.armsMention (name : String) : List Arm → Bool
  | [] => false
  | a :: rest => a.mentions name || NodeKind.armsMention name rest

/-- Whether a name is mentioned in an arm. -/
def Arm.mentions (name : String) : Arm → Bool
  | .flat _ _ idents => idents.contains name
  | .block _ _ idents body => idents.contains name || body.mentions name

end

mutual

/-- The names mentioned in a body. -/
def Body.identifiers : Body → List String
  | .mk _ _ nodes _ => Body.nodesIdentifiers nodes

/-- The names mentioned in some statements. -/
def Body.nodesIdentifiers : List Node → List String
  | [] => []
  | n :: rest => n.identifiers ++ Body.nodesIdentifiers rest

/-- The names mentioned in a statement. -/
def Node.identifiers : Node → List String
  | .mk _ _ idents kind => idents ++ kind.identifiers

/-- The names mentioned in what is nested in a statement. -/
def NodeKind.identifiers : NodeKind → List String
  | .leaf => []
  | .binding _ _ => []
  | .block body _ => body.identifiers
  | .loop body _ => body.identifiers
  | .branch yes no _ => yes.identifiers ++ no.identifiers
  | .select arms _ => NodeKind.armsIdentifiers arms

/-- The names mentioned in an `else` branch. -/
def Otherwise.identifiers : Otherwise → List String
  | .absent => []
  | .block _ body => body.identifiers
  | .chain _ node => node.identifiers

/-- The names mentioned in some arms. -/
def NodeKind.armsIdentifiers : List Arm → List String
  | [] => []
  | a :: rest => a.identifiers ++ NodeKind.armsIdentifiers rest

/-- The names mentioned in an arm. -/
def Arm.identifiers : Arm → List String
  | .flat _ _ idents => idents
  | .block _ _ idents body => idents ++ body.identifiers

end

end CoverageReplay
