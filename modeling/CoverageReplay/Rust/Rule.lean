import CoverageReplay.Rust.Lexer.Literal
import CoverageReplay.Rust.Outline

/-!
# Rules over token trees

A `Rule` reads tokens from the front of a list and fails at a place of the source. A group is read
by a rule of its own, which has to use up the content of the group.

Tests of what comes next are functions from the list of tokens ahead to `Bool`; they take nothing.
-/

namespace CoverageReplay.Rust

/-- The tokens ahead within one group, and the place where the group ends. -/
structure Cursor where
  rest : List TokenTree
  edge : Place

/-- Where the next token stands. -/
def Cursor.place (c : Cursor) : Place :=
  match c.rest with
  | [] => c.edge
  | t :: _ => t.start

/-- A reader of tokens. -/
abbrev Rule := StateT Cursor (Except Place)

/-! ## What comes next -/

/-- The tokens after the next one; a lifetime counts as one token. -/
def skip : List TokenTree → List TokenTree
  | .punct '\'' _ _ :: .ident _ _ :: rest => rest
  | _ :: rest => rest
  | [] => []

/-- Whether the given punctuation characters come next, without gaps between them. -/
def marksNext : List Char → List TokenTree → Bool
  | [m], .punct c _ _ :: _ => c = m
  | m :: ms, .punct c joint _ :: rest => c = m && joint && marksNext ms rest
  | _, _ => false

/-- Whether the given operator comes next, or a longer one that begins with it. -/
def markNext (mark : String) (ts : List TokenTree) : Bool :=
  marksNext mark.toList ts

/-- Whether the given word comes next. -/
def wordNext (word : String) : List TokenTree → Bool
  | .ident name _ :: _ => name = word
  | _ => false

/-- Whether any word comes next, keywords included. -/
def anyWordNext : List TokenTree → Bool
  | .ident _ _ :: _ => true
  | _ => false

/-- The words that are no names. -/
def keywords : List String :=
  ["_", "abstract", "as", "async", "await", "become", "box", "break", "const", "continue", "crate",
    "do", "dyn", "else", "enum", "extern", "false", "final", "fn", "for", "if", "impl", "in", "let",
    "loop", "macro", "match", "mod", "move", "mut", "override", "priv", "pub", "ref", "return",
    "Self", "self", "static", "struct", "super", "trait", "true", "try", "type", "typeof", "unsafe",
    "unsized", "use", "virtual", "where", "while", "yield"]

/-- Whether a name comes next. -/
def nameNext : List TokenTree → Bool
  | .ident name _ :: _ => !keywords.contains name
  | _ => false

/-- Whether a lifetime or label comes next. -/
def lifetimeNext : List TokenTree → Bool
  | .punct '\'' _ _ :: .ident _ _ :: _ => true
  | _ => false

/-- Whether a group comes next. -/
def groupNext (d : Delimiter) : List TokenTree → Bool
  | .group e _ _ _ :: _ => e = d
  | _ => false

/-- Whether the text of a literal is a number. -/
def isNumberText (text : String) : Bool :=
  match text.toList with
  | c :: _ => '0' ≤ c && c ≤ '9'
  | [] => false

/-- The base of an integer literal, and the text after the mark of the base. -/
def baseOf : List Char → Nat × List Char
  | '0' :: 'x' :: cs => (16, cs)
  | '0' :: 'o' :: cs => (8, cs)
  | '0' :: 'b' :: cs => (2, cs)
  | cs => (10, cs)

/-- Whether the text of a literal is the index of a field: an integer of 32 bits without a
suffix. -/
def isIndexText (text : String) : Bool :=
  let (base, digits) := baseOf text.toList
  isNumberText text && digits.all (fun c => c = '_' || isDigitOf base c) &&
    (digits.filter (· ≠ '_')).foldl (fun n c => n * base + hexValue c) 0 ≤ 4294967295

/-- The rest of a text after low lines. -/
def afterLowLines : List Char → List Char
  | '_' :: cs => afterLowLines cs
  | cs => cs

/-- Whether the text of a number is a floating-point literal. -/
def isFloatText (text : String) : Bool :=
  go text.toList
where
  /-- Whether the digits lead to a point or to an exponent. -/
  go : List Char → Bool
    | [] => false
    | c :: cs =>
      if c = '_' || isDecimal c then
        if c = '0' && cs.head?.any (fun d => d = 'x' || d = 'o' || d = 'b') then false else go cs
      else if c = '.' then true
      else if c = 'e' || c = 'E' then
        (afterLowLines cs).head?.any fun d => d = '+' || d = '-' || isDecimal d
      else false

/-- Whether the text of a literal is a string. -/
def isStringText (text : String) : Bool :=
  match text.toList with
  | '"' :: _ => true
  | 'r' :: _ => true
  | _ => false

/-- Whether a literal value comes next: a literal, a truth value or a negative number. -/
def literalNext : List TokenTree → Bool
  | .literal _ _ :: _ => true
  | .ident name _ :: _ => name = "true" || name = "false"
  | .punct '-' _ _ :: .literal text _ :: _ => isNumberText text
  | _ => false

/-- Whether a string literal comes next. -/
def stringNext : List TokenTree → Bool
  | .literal text _ :: _ => isStringText text
  | _ => false

/-- Whether a word comes next that may begin a path without being a name. -/
def pathWordNext (ts : List TokenTree) : Bool :=
  wordNext "self" ts || wordNext "super" ts || wordNext "crate" ts

/-! ## Reading -/

namespace Rule

variable {α : Type}

/-- Fails at the next token. -/
def fail : Rule α := fun c => .error c.place

/-- The tokens ahead. -/
def ahead : Rule (List TokenTree) := fun c => .ok (c.rest, c)

/-- Takes some tokens. -/
def take (n : Nat) : Rule Unit := fun c => .ok ((), { c with rest := c.rest.drop n })

/-- Requires a condition on what comes next. -/
def require (condition : Bool) : Rule Unit :=
  if condition then pure () else fail

/-- Reads an operator. -/
def mark (m : String) : Rule Unit := do
  require (markNext m (← ahead))
  take m.length

/-- Reads an operator if it comes next. -/
def mark? (m : String) : Rule Bool := do
  if markNext m (← ahead) then
    take m.length
    return true
  else return false

/-- Reads a word. -/
def word (w : String) : Rule Unit := do
  require (wordNext w (← ahead))
  take 1

/-- Reads a word if it comes next. -/
def word? (w : String) : Rule Bool := do
  if wordNext w (← ahead) then
    take 1
    return true
  else return false

/-- Reads any word, keywords included. -/
def anyWord : Rule String := do
  match ← ahead with
  | .ident name _ :: _ =>
    take 1
    return name
  | _ => fail

/-- Reads a name. -/
def name : Rule String := do
  require (nameNext (← ahead))
  anyWord

/-- Reads a lifetime or label. -/
def lifetime : Rule Unit := do
  require (lifetimeNext (← ahead))
  take 2

/-- Reads a lifetime or label if one comes next. -/
def lifetime? : Rule Bool := do
  if lifetimeNext (← ahead) then
    take 2
    return true
  else return false

/-- Reads a literal value. -/
def literal : Rule Unit := do
  let ts ← ahead
  require (literalNext ts)
  take (if markNext "-" ts then 2 else 1)

/-- Reads a group by a rule for its content. -/
def group (d : Delimiter) (content : Rule α) : Rule (α × Span × Span) := do
  match ← ahead with
  | .group e opening inner closing :: _ =>
    if e = d then
      match content ⟨inner, closing.start⟩ with
      | .error place => throw place
      | .ok (a, left) =>
        if left.rest.isEmpty then
          take 1
          return (a, opening, closing)
        else throw left.place
    else fail
  | _ => fail

/-- Reads a group by a rule for its content, of which only the value matters. -/
def inside (d : Delimiter) (content : Rule α) : Rule α := do
  return (← group d content).1

/-- Reads a group of any kind and content; tells whether it stands in braces. -/
def anyGroup : Rule Bool := do
  match ← ahead with
  | .group d _ _ _ :: _ =>
    take 1
    return d = .brace
  | _ => fail

/-- Whether the group is used up. -/
def atEnd : Rule Bool := return (← ahead).isEmpty

/-- Reads the rest of the group, whatever it is. -/
def anything : Rule Unit := fun c => .ok ((), { c with rest := [] })

/-- Tries a rule; when it fails nothing is taken. -/
def attempt (r : Rule α) : Rule (Option α) := fun c =>
  match r c with
  | .ok (a, c') => .ok (some a, c')
  | .error _ => .ok (none, c)

/-- The value of a rule together with the tokens it takes. -/
def withTokens (r : Rule α) : Rule (α × List TokenTree) := fun c =>
  match r c with
  | .ok (a, c') => .ok ((a, c.rest.take (c.rest.length - c'.rest.length)), c')
  | .error place => .error place

/-- The tokens that a rule takes. -/
def tokensOf (r : Rule α) : Rule (List TokenTree) := do
  return (← withTokens r).2

/-- Reads items until `done` holds of what comes next, in at most `rounds` rounds. -/
def untilDone (done : List TokenTree → Bool) (item : Rule α) : Nat → Rule (List α)
  | 0 => fail
  | rounds + 1 => do
    if done (← ahead) then return []
    else
      let a ← item
      let as ← untilDone done item rounds
      return a :: as

/-- Reads items until `done` holds of what comes next. -/
def many (done : List TokenTree → Bool) (item : Rule α) : Rule (List α) := do
  untilDone done item ((← ahead).length + 1)

/-- Reads items with a mark between them until `done` holds, in at most `rounds` rounds. A mark may
stand at the end. -/
def listRounds (done : List TokenTree → Bool) (separator : String) (item : Rule α) :
    Nat → Rule (List α)
  | 0 => fail
  | rounds + 1 => do
    if done (← ahead) then return []
    else
      let a ← item
      if done (← ahead) then return [a]
      else
        mark separator
        let as ← listRounds done separator item rounds
        return a :: as

/-- Reads items with a mark between them until `done` holds of what comes next. -/
def list (done : List TokenTree → Bool) (separator : String) (item : Rule α) : Rule (List α) := do
  listRounds done separator item ((← ahead).length + 1)

/-- Reads items with commas between them until the group is used up. -/
def commaList (item : Rule α) : Rule (List α) :=
  list List.isEmpty "," item

/-- Reads items as long as a mark follows and `stop` does not hold, in at most `rounds` rounds. -/
def chainRounds (stop : List TokenTree → Bool) (separator : String) (item : Rule α) :
    Nat → Rule (List α)
  | 0 => fail
  | rounds + 1 => do
    if stop (← ahead) then return []
    else
      let a ← item
      if ← mark? separator then
        let as ← chainRounds stop separator item rounds
        return a :: as
      else return [a]

/-- Reads items as long as a mark follows and `stop` does not hold of what comes next. -/
def chain (stop : List TokenTree → Bool) (separator : String) (item : Rule α) : Rule (List α) := do
  chainRounds stop separator item ((← ahead).length + 1)

end Rule

end CoverageReplay.Rust
