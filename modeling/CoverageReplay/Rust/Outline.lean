import CoverageReplay.Rust.Token

/-!
# The outline of a function body

What is kept of a parsed body: which statements it has, where they stand, and, for the control
structures among them, the bodies nested inside. All other code is kept as its tokens.

An expression is opened only where a statement, an `else` branch or a match arm may hold one; a
block inside a call, a closure or a `let` is part of the tokens around it.
-/

namespace CoverageReplay.Rust

/-- What the grammar has to know of an expression without an outline. -/
inductive FlatKind where
  | plain
  /-- A range, after which no operator may follow. -/
  | range
  /-- A comparison, which cannot be compared again. -/
  | comparison
  /-- A macro call, in braces or not. -/
  | macroCall (braced : Bool)
  /-- A `const` or `try` block. -/
  | flatBlock
  deriving DecidableEq, Repr, Inhabited

mutual

/-- Statements between braces. -/
inductive CodeBlock where
  | mk (opening closing : Span) (statements : List Statement)

/-- A statement with all its tokens, attributes and the final semicolon included. -/
inductive Statement where
  /-- A `let`: where the keyword stands, the name it binds when its pattern is a single identifier,
  the tokens of the value and of the `else` block. -/
  | binding (tokens : List TokenTree) (keyword : Place) (name : Option String)
    (value : List TokenTree)
  | expression (tokens : List TokenTree) (form : Form)
  /-- An item or a macro call. -/
  | other (tokens : List TokenTree)

/-- What an expression is, as far as its outline goes. -/
inductive Form where
  | ifThen (condition : List TokenTree) (yes : CodeBlock) (no : Option Expression)
  | forLoop (head : List TokenTree) (body : CodeBlock)
  | whileLoop (condition : List TokenTree) (body : CodeBlock)
  | loop (body : CodeBlock)
  | block (labelled : Bool) (body : CodeBlock)
  | unsafeBlock (body : CodeBlock)
  | matchOn (scrutinee : List TokenTree) (arms : List MatchArm)
  | flat (kind : FlatKind)

/-- An expression with its tokens. -/
inductive Expression where
  | mk (tokens : List TokenTree) (form : Form)

/-- A match arm: all its tokens, those of its pattern and guard, its body. -/
inductive MatchArm where
  | mk (tokens head : List TokenTree) (body : Expression)

end

instance : Inhabited CodeBlock := ⟨⟨default, default, []⟩⟩

instance : Inhabited Form := ⟨.flat .plain⟩

instance : Inhabited Statement := ⟨.other []⟩

instance : Inhabited Expression := ⟨⟨[], default⟩⟩

/-- The stretch of text from the first to the last of some tokens. -/
def spanOf (tokens : List TokenTree) : Span :=
  match tokens with
  | [] => ⟨.origin, .origin⟩
  | first :: rest => ⟨first.start, (rest.getLastD first).stop⟩

namespace Form

/-- Whether the expression is a range. -/
def isRange : Form → Bool
  | flat .range => true
  | _ => false

/-- Whether the expression is a comparison. -/
def isComparison : Form → Bool
  | flat .comparison => true
  | _ => false

/-- Whether the expression ends with a body of its own, so that neither a semicolon nor a comma has
to follow it. -/
def isBlockLike : Form → Bool
  | flat .flatBlock => true
  | flat _ => false
  | _ => true

/-- Whether a semicolon must separate the expression from a statement after it. -/
def needsSemicolon : Form → Bool
  | flat (.macroCall braced) => !braced
  | form => !form.isBlockLike

end Form

end CoverageReplay.Rust
