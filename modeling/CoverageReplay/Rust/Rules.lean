import CoverageReplay.Rust.Rule

/-!
# The rules that refer to each other

The grammar is recursive through the rules of `Rules`. A module of the grammar takes the record as
an argument wherever a construct may hold another one of these kinds; the record itself is built
once, level by level, for a depth that no text exceeds.
-/

namespace CoverageReplay.Rust

/-- What the grammar has to know of a path. -/
structure PathShape where
  /-- Whether a type in angle brackets, and not a name, comes first. -/
  qualified : Bool
  /-- Whether it begins with `::`. -/
  rooted : Bool
  segments : Nat
  /-- Whether no segment has arguments. -/
  plain : Bool
  /-- Whether the last segment has no arguments. -/
  lastBare : Bool
  /-- Whether the last segment has arguments in parentheses. -/
  lastCalled : Bool

/-- What the grammar has to know of a type. -/
inductive TypeShape where
  /-- A path without a qualified type; `single` when it is one segment that may take a binding. -/
  | path (single : Bool)
  /-- One bare trait bound. -/
  | bound
  /-- A type in parentheses. -/
  | paren
  | other
  deriving DecidableEq

/-- What the grammar has to know of a pattern. -/
structure PatternShape where
  /-- The name, when the pattern is a single identifier. -/
  name : Option String
  /-- Whether it is a range with one end open. -/
  isOpenRange : Bool

/-- The rules that the grammar is recursive through. -/
structure Rules where
  /-- An expression; a brace after a path belongs to it only if `structs` is set. -/
  expression : (structs : Bool) → Rule Form
  /-- An expression in the place of a statement or as the body of a match arm. -/
  early : Rule Form
  /-- An operand with its prefix operators and what is attached to its end. -/
  operand : (structs : Bool) → Rule Form
  /-- The operators of at least some strength that follow an operand. -/
  operators : (structs : Bool) → (strength : Nat) → Form → Rule Form
  /-- A type; a `+` after it belongs to it only if `plus` is set. -/
  type : (plus : Bool) → Rule TypeShape
  /-- A bound on a type; captured parameters (`use<..>`) and `const` only where allowed. -/
  bound : (captures consts : Bool) → Rule Unit
  /-- A pattern without alternatives. -/
  pattern : Rule PatternShape
  /-- The statements up to the end of the group. -/
  statements : Rule (List Statement)
  /-- An item, with the function bodies in it. -/
  item : Rule (List CodeBlock)
  /-- What follows `use`; a tree in braces may begin with `::` only if `rooted` is set. -/
  useTree : (rooted : Bool) → Rule Unit

/-- The rules that read nothing. -/
def Rules.failing : Rules where
  expression _ := Rule.fail
  early := Rule.fail
  operand _ := Rule.fail
  operators _ _ _ := Rule.fail
  type _ := Rule.fail
  bound _ _ := Rule.fail
  pattern := Rule.fail
  statements := Rule.fail
  item := Rule.fail
  useTree _ := Rule.fail

end CoverageReplay.Rust
