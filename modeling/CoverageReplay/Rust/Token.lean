/-!
# Tokens of Rust source

A source text is a list of token trees: identifiers, single punctuation characters, literals, and
groups between matching delimiters. Operators of several characters are punctuation characters
marked `joint`, which says that another one follows without a gap. Every token knows where it
stands.
-/

namespace CoverageReplay.Rust

/-- A place between two characters: the line counted from one, the characters before it in the
line. -/
structure Place where
  line : Nat
  column : Nat
  deriving DecidableEq, Repr, Inhabited

namespace Place

/-- The place before the first character. -/
def origin : Place := ⟨1, 0⟩

/-- The place after one more character. -/
def step (p : Place) (c : Char) : Place :=
  if c = '\n' then ⟨p.line + 1, 0⟩ else ⟨p.line, p.column + 1⟩

/-- The place after some more characters. -/
def advance (p : Place) (cs : List Char) : Place :=
  cs.foldl step p

end Place

/-- The stretch of text between two places. -/
structure Span where
  start : Place
  stop : Place
  deriving DecidableEq, Repr, Inhabited

/-- The pairs of delimiters. -/
inductive Delimiter where
  | paren
  | bracket
  | brace
  deriving DecidableEq, Repr, Inhabited

/-- A token, or a group of tokens between delimiters. -/
inductive TokenTree where
  | ident (name : String) (span : Span)
  /-- One punctuation character; `joint` when another one follows without a gap. -/
  | punct (mark : Char) (joint : Bool) (span : Span)
  /-- A literal in its written form. -/
  | literal (text : String) (span : Span)
  | group (delimiter : Delimiter) (opening : Span) (content : List TokenTree) (closing : Span)
  deriving Inhabited

namespace TokenTree

/-- Where a token begins. -/
def start : TokenTree → Place
  | ident _ span => span.start
  | punct _ _ span => span.start
  | literal _ span => span.start
  | group _ opening _ _ => opening.start

/-- Where a token ends. -/
def stop : TokenTree → Place
  | ident _ span => span.stop
  | punct _ _ span => span.stop
  | literal _ span => span.stop
  | group _ _ _ closing => closing.stop

/-- Whether the token is a group in braces. -/
def isBraced : TokenTree → Bool
  | group .brace _ _ _ => true
  | _ => false

end TokenTree

end CoverageReplay.Rust
