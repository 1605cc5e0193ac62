import CoverageReplay.Yaml.Token

/-!
# The tokens of a text

Outside brackets the indentation of lines says where blocks begin and end. A key needs no mark of
its own: where a key may begin, its place is remembered, and when a colon follows on the same line,
within 1024 characters, the mark of the key is put there, and in front of it that of a block if the
key is indented further than the block around it.
-/

namespace CoverageReplay.Yaml

/-- A place where a key may have begun. -/
structure PossibleKey where
  /-- The number of tokens before it. -/
  position : Nat
  place : Cursor
  /-- Whether the indentation leaves nothing but a key. -/
  required : Bool
  deriving Inhabited

/-- How far a text has been read. -/
structure Reading where
  cursor : Cursor
  tokens : Array Token
  /-- The least column for the content of the innermost block; zero outside of all blocks. -/
  margin : Nat
  /-- The margins of the blocks around it. -/
  outerMargins : List Nat
  /-- The possible key within the innermost brackets. -/
  possibleKey : Option PossibleKey
  /-- The possible keys around the brackets. -/
  outerKeys : List (Option PossibleKey)
  /-- Whether a key may begin here. -/
  keyAllowed : Bool
  deriving Inhabited

namespace Reading

/-- The beginning of a text. -/
def start (text : List Char) : Reading :=
  ⟨.start text, #[], 0, [], none, [], true⟩

/-- Whether brackets are open. -/
def inFlow (r : Reading) : Bool := !r.outerKeys.isEmpty

/-! ## Parts of steps -/

/-- The place after a token. -/
def push (r : Reading) (t : Token) (c : Cursor) : Reading :=
  { r with tokens := r.tokens.push t, cursor := c }

/-- The place after a token of one character. -/
def pushMark (r : Reading) (t : Token) : Reading := r.push t (r.cursor.advance 1)

/-- Opens a block whose items begin in a column, unless one is open there; its mark is the token
number `position`. -/
def indent (r : Reading) (column position : Nat) (t : Token) : Reading :=
  if !r.inFlow && r.margin ≤ column then
    { r with
      outerMargins := r.margin :: r.outerMargins
      margin := column + 1
      tokens := r.tokens.insertIdxIfInBounds position t }
  else r

/-- Closes the blocks whose margin is greater than a limit. -/
def dedentFrom (limit : Nat) : (outer : List Nat) → Reading → Reading
  | [], r => r
  | outer :: rest, r =>
    if limit < r.margin then
      dedentFrom limit rest
        { r with margin := outer, outerMargins := rest, tokens := r.tokens.push .blockEnd }
    else r

/-- Closes the blocks whose margin is greater than a limit, outside brackets. -/
def dedent (r : Reading) (limit : Nat) : Reading :=
  if r.inFlow then r else dedentFrom limit r.outerMargins r

/-- Gives up the possible key, which must not be a required one. -/
def dropKey? (r : Reading) : Option Reading :=
  if r.possibleKey.any (·.required) then none else some { r with possibleKey := none }

/-- Remembers a possible key, when one may begin here, and says whether one may begin after it. -/
def saveKey? (r : Reading) (allowedAfter : Bool) : Option Reading :=
  if r.keyAllowed then do
    let required := !r.inFlow && r.margin = r.cursor.column + 1
    let r ← r.dropKey?
    some { r with
      possibleKey := some ⟨r.tokens.size, r.cursor, required⟩
      keyAllowed := allowedAfter }
  else some { r with keyAllowed := allowedAfter }

/-- Whether a possible key may still turn out to be one. -/
def isCurrent (c : Cursor) (k : PossibleKey) : Bool :=
  k.place.line = c.line && c.index ≤ k.place.index + 1024

/-- Gives up the possible keys that are too far behind. -/
def forgetKeys? (r : Reading) : Option Reading :=
  let stale := fun k : PossibleKey => !isCurrent r.cursor k
  let keep := fun k : Option PossibleKey => k.filter (isCurrent r.cursor)
  if (r.possibleKey :: r.outerKeys).any fun k => k.any fun k => stale k && k.required then none
  else some { r with possibleKey := keep r.possibleKey, outerKeys := r.outerKeys.map keep }

/-! ## Steps -/

/-- Skips blanks, comments and line ends in front of a token, `most` lines at most. A tab may not
stand where a key may begin. -/
def skipBlank : (most : Nat) → Reading → Reading
  | 0, r => r
  | most + 1, r =>
    let tabs := r.inFlow || !r.keyAllowed
    let c := r.cursor.skipWhile fun x => x = ' ' || tabs && x = '\t'
    let c := if c.next '#' then c.skipWhile fun x => !isBreak x else c
    match c.lineEnd? with
    | some (_, c) => skipBlank most { r with cursor := c, keyAllowed := r.keyAllowed || !r.inFlow }
    | none => { r with cursor := c }

/-- Begins a document, or ends one. -/
def marker? (r : Reading) (t : Token) : Option Reading := do
  let r ← (r.dedent 0).dropKey?
  some { r.push t (r.cursor.advance 3) with keyAllowed := false }

/-- Reads a directive. -/
def directive? (r : Reading) : Option Reading := do
  let r ← (r.dedent 0).dropKey?
  let (t, c) ← Token.directive? r.cursor
  some { r.push t c with keyAllowed := false }

/-- Opens brackets. -/
def opening? (r : Reading) (t : Token) : Option Reading := do
  let r ← r.saveKey? true
  some { r.pushMark t with possibleKey := none, outerKeys := r.possibleKey :: r.outerKeys }

/-- Closes brackets. -/
def closing? (r : Reading) (t : Token) : Option Reading := do
  let r ← r.dropKey?
  let r := match r.outerKeys with
    | k :: rest => { r with possibleKey := k, outerKeys := rest }
    | [] => r
  some { r.pushMark t with keyAllowed := false }

/-- Reads a comma. -/
def comma? (r : Reading) : Option Reading := do
  let r ← r.dropKey?
  some { r.pushMark .comma with keyAllowed := true }

/-- Opens a block at a mark, outside brackets. -/
def markBlock? (r : Reading) (block : Token) : Option Reading :=
  if r.inFlow then some r
  else if r.keyAllowed then some (r.indent r.cursor.column r.tokens.size block)
  else none

/-- Reads the mark of an item. -/
def item? (r : Reading) : Option Reading := do
  let r ← r.markBlock? .blockSequence
  let r ← r.dropKey?
  some { r.pushMark .item with keyAllowed := true }

/-- Reads the mark of a key. -/
def key? (r : Reading) : Option Reading := do
  let r ← r.markBlock? .blockMapping
  let r ← r.dropKey?
  some { r.pushMark .key with keyAllowed := !r.inFlow }

/-- Reads the mark of a value. -/
def value? (r : Reading) : Option Reading :=
  match r.possibleKey with
  | some k =>
    let r := { r with
      possibleKey := none
      keyAllowed := false
      tokens := r.tokens.insertIdxIfInBounds k.position .key }
    some ((r.indent k.place.column k.position .blockMapping).pushMark .value)
  | none => do
    let r ← r.markBlock? .blockMapping
    some { r.pushMark .value with keyAllowed := !r.inFlow }

/-- Reads an anchor, or an alias. -/
def anchor? (r : Reading) (token : String → Token) : Option Reading := do
  let r ← r.saveKey? false
  let (name, c) ← Token.anchorName? r.cursor
  some (r.push (token name) c)

/-- Reads a tag. -/
def tag? (r : Reading) : Option Reading := do
  let r ← r.saveKey? false
  let (t, c) ← Token.tag? r.inFlow r.cursor
  some (r.push t c)

/-- Reads a scalar in quotes. -/
def quoted? (r : Reading) (quote : Char) (style : ScalarStyle) : Option Reading := do
  let r ← r.saveKey? false
  let (text, c) ← Yaml.quoted? quote r.cursor
  some (r.push (.scalar (String.ofList text) style) c)

/-- Reads a plain scalar. -/
def plain? (r : Reading) : Option Reading := do
  let r ← r.saveKey? false
  let (text, broken, c) ← Yaml.plain? r.inFlow r.margin r.cursor
  some { r.push (.scalar (String.ofList text) .plain) c with keyAllowed := broken }

/-- Reads a block scalar. -/
def block? (r : Reading) (style : ScalarStyle) : Option Reading := do
  let r ← r.dropKey?
  let (text, c) ← Yaml.block? (style = .folded) r.margin r.cursor
  some { r.push (.scalar (String.ofList text) style) c with keyAllowed := true }

/-- The characters that no plain scalar begins with, three of them unless a word goes on after
them. -/
def indicators : List Char :=
  ['-', '?', ':', ',', '[', ']', '\x7b', '\x7d', '#', '&', '*', '!', '|', '>', '\'', '"', '%',
    '@', '\x60']

/-- Whether a plain scalar may begin here. -/
def plainBegins (inFlow : Bool) (x : Char) (rest : List Char) : Bool :=
  !(isBlank x || isBreak x || indicators.contains x) ||
    x = '-' && !rest.head?.any isBlank || !inFlow && (x = '?' || x = ':') && !wordEnds rest

/-- Reads the token that begins with a character. -/
def token? (r : Reading) (x : Char) (rest : List Char) : Option Reading :=
  let markHere := r.inFlow || wordEnds rest
  if r.cursor.column = 0 && x = '%' then r.directive?
  else if r.cursor.atMarker '-' then r.marker? .documentStart
  else if r.cursor.atMarker '.' then r.marker? .documentEnd
  else if x = '[' then r.opening? .openSequence
  else if x = '\x7b' then r.opening? .openMapping
  else if x = ']' then r.closing? .closeSequence
  else if x = '\x7d' then r.closing? .closeMapping
  else if x = ',' then r.comma?
  else if x = '-' && wordEnds rest then r.item?
  else if x = '?' && markHere then r.key?
  else if x = ':' && markHere then r.value?
  else if x = '*' then r.anchor? .alias
  else if x = '&' then r.anchor? .anchor
  else if x = '!' then r.tag?
  else if x = '|' && !r.inFlow then r.block? .literal
  else if x = '>' && !r.inFlow then r.block? .folded
  else if x = '\'' then r.quoted? '\'' .singleQuoted
  else if x = '"' then r.quoted? '"' .doubleQuoted
  else if plainBegins r.inFlow x rest then r.plain?
  else none

/-- Reads all tokens, `most` at most. -/
def readAll? : (most : Nat) → Reading → Option (Array Token)
  | 0, _ => none
  | most + 1, r => do
    let r ← (skipBlank (r.cursor.rest.length + 1) r).forgetKeys?
    match r.cursor.rest with
    | [] => (r.dedent 0).dropKey?.map (·.tokens)
    | x :: rest => do
      let r ← (r.dedent (r.cursor.column + 1)).token? x rest
      readAll? most r

end Reading

/-- The tokens of a text, which may begin with a byte order mark. -/
def tokens? (text : List Char) : Option (List Token) :=
  let text := match text with
    | '\uFEFF' :: rest => rest
    | _ => text
  if text.all isAllowed then
    (Reading.readAll? (text.length + 1) (.start text)).map Array.toList
  else none

end CoverageReplay.Yaml
