import CoverageReplay.Rust.Lexer.Literal
import CoverageReplay.Rust.Lexer.Skipped
import CoverageReplay.Rust.Token
import CoverageReplay.Text.Quoted

/-!
# From source text to token trees

`tokens?` reads a whole text. It fails at the place of the first character that begins no token, of
a closing delimiter that does not match, or at the end of the text when a group is still open.

A documentation comment is read as the attribute it stands for, `#[doc = "text"]`, all of whose
tokens stand where the comment stands.
-/

namespace CoverageReplay.Rust

open Text

/-- The marks that are tokens by themselves. -/
def isMark (c : Char) : Bool :=
  "~!@#$%^&*-=+|;:,<.>/?'".toList.contains c

/-- Whether a text begins with a punctuation mark; a comment is none. -/
def startsWithMark : List Char → Bool
  | '/' :: '/' :: _ => false
  | '/' :: '*' :: _ => false
  | c :: _ => isMark c
  | [] => false

/-- The starts of a text that begin a quoted literal and so no identifier. -/
def quotedStarts : List (List Char) :=
  [['r', '"'], ['r', '#', '"'], ['r', '#', '#'], ['b', '"'], ['b', '\''], ['b', 'r', '"'],
    ['b', 'r', '#'], ['c', '"'], ['c', 'r', '"'], ['c', 'r', '#']]

/-- The names that have no raw form. -/
def neverRaw : List String :=
  ["_", "super", "self", "Self", "crate"]

/-- The length of an identifier, plain or raw. -/
def anyIdentifier? : List Char → Option Nat
  | 'r' :: '#' :: cs =>
    (plainIdentifier? cs).bind fun n =>
      if neverRaw.contains (String.ofList (cs.take n)) then none else some (n + 2)
  | cs => plainIdentifier? cs

/-- The length of an identifier where a quoted literal could stand. -/
def identifier? (cs : List Char) : Option Nat :=
  if quotedStarts.any fun start => (afterStart start cs).isSome then none
  else anyIdentifier? cs

/-- Whether a quote mark begins a lifetime or label: an identifier follows, and no second quote. -/
def startsLifetime (cs : List Char) : Bool :=
  match anyIdentifier? cs with
  | none => false
  | some n =>
    match cs.drop n with
    | '\'' :: _ => false
    | '#' :: _ => (afterStart ['r', '#'] cs).isSome
    | _ => true

/-- The text that stands for a token which could not be written. It is a literal, not a group. -/
def unwritten : List Char :=
  "(/*ERROR*/)".toList

/-- Whether a text begins with this one. -/
def startsUnwritten (cs : List Char) : Bool :=
  (afterStart unwritten cs).isSome

/-- A token that is no group, and the number of its characters. -/
def leaf? (place : Place) (cs : List Char) : Option (TokenTree × Nat) :=
  let spanOf (n : Nat) : Span := ⟨place, place.advance (cs.take n)⟩
  match literal? cs with
  | some n => some (.literal (String.ofList (cs.take n)) (spanOf n), n)
  | none =>
    match cs with
    | [] => none
    | c :: rest =>
      if startsWithMark cs then
        if c = '\'' then
          if startsLifetime rest then some (.punct c true (spanOf 1), 1) else none
        else some (.punct c (startsWithMark rest) (spanOf 1), 1)
      else if startsUnwritten cs then
        some (.literal (String.ofList unwritten) (spanOf unwritten.length), unwritten.length)
      else
        (identifier? cs).map fun n => (.ident (String.ofList (cs.take n)) (spanOf n), n)

/-- The delimiter that a character opens. -/
def opens? : Char → Option Delimiter
  | '(' => some .paren
  | '[' => some .bracket
  | '\x7b' => some .brace
  | _ => none

/-- The delimiter that a character closes. -/
def closes? : Char → Option Delimiter
  | ')' => some .paren
  | ']' => some .bracket
  | '\x7d' => some .brace
  | _ => none

/-- A literal string with the given value. A quote mark stays as it is, and a NUL before an octal
digit is written in full, so that the digit is not read as a part of it. -/
def stringLiteral (cs : List Char) : String :=
  String.ofList ('"' :: go cs ++ ['"'])
where
  /-- The characters between the quotes. -/
  go : List Char → List Char
    | [] => []
    | c :: rest =>
      (if c = '\x00' && rest.head?.any (fun d => '0' ≤ d && d ≤ '7') then "\\x00".toList
        else quoteChar c) ++ go rest

/-- The attribute that a documentation comment stands for. -/
def docTokens (inner : Bool) (text : List Char) (span : Span) : List TokenTree :=
  let meaning := TokenTree.group .bracket span
    [.ident "doc" span, .punct '=' false span, .literal (stringLiteral text) span] span
  if inner then [.punct '#' false span, .punct '!' false span, meaning]
  else [.punct '#' false span, meaning]

/-- Token trees under construction, last ones first: those at the current depth, and the groups that
are still open, innermost first, with what stands before each. -/
structure Nesting where
  current : List TokenTree
  outer : List (Delimiter × Span × List TokenTree)

namespace Nesting

/-- Adds a complete tree. -/
def push (n : Nesting) (t : TokenTree) : Nesting :=
  { n with current := t :: n.current }

/-- Begins a group. -/
def opening (n : Nesting) (d : Delimiter) (span : Span) : Nesting :=
  ⟨[], (d, span, n.current) :: n.outer⟩

/-- Ends the innermost group. -/
def closing? (n : Nesting) (d : Delimiter) (span : Span) : Option Nesting :=
  match n.outer with
  | (open_, start, before) :: outer =>
    if open_ = d then some ⟨.group d start n.current.reverse span :: before, outer⟩ else none
  | [] => none

end Nesting

/-- Reads the tokens from a place on. Each round takes at least one character, so as many rounds as
there are characters, and one more, are enough. -/
def tokensFrom? : Nat → Place → Nesting → List Char → Except Place (List TokenTree × Place)
  | 0, place, _, _ => .error place
  | rounds + 1, place, nesting, cs =>
    match cs with
    | [] => if nesting.outer.isEmpty then .ok (nesting.current.reverse, place) else .error place
    | c :: rest =>
      match skipped? cs with
      | some n => tokensFrom? rounds (place.advance (cs.take n)) nesting (cs.drop n)
      | none =>
        match docComment? cs with
        | some (inner, n, text) =>
          let after := place.advance (cs.take n)
          if noBareReturn text then
            tokensFrom? rounds after
              ((docTokens inner text ⟨place, after⟩).foldl Nesting.push nesting) (cs.drop n)
          else .error place
        | none =>
          match if startsUnwritten cs then none else opens? c with
          | some d =>
            let after := place.step c
            tokensFrom? rounds after (nesting.opening d ⟨place, after⟩) rest
          | none =>
            match closes? c with
            | some d =>
              let after := place.step c
              match nesting.closing? d ⟨place, after⟩ with
              | some nesting => tokensFrom? rounds after nesting rest
              | none => .error place
            | none =>
              match leaf? place cs with
              | some (token, n) =>
                tokensFrom? rounds token.stop (nesting.push token) (cs.drop n)
              | none => .error place

/-- The token trees of a text that begins at a place, and the place where it ends. -/
def tokens? (place : Place) (cs : List Char) : Except Place (List TokenTree × Place) :=
  tokensFrom? (cs.length + 1) place ⟨[], []⟩ cs

end CoverageReplay.Rust
