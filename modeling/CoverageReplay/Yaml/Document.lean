import CoverageReplay.SortedMap
import CoverageReplay.Yaml.Node
import CoverageReplay.Yaml.Tokens

/-!
# Documents of tokens

A text is one document, perhaps with directives in front of it. `Document.parse?` refuses texts that
are not well formed, texts of more than one document, and aliases without an anchor.

Each function here stands for a rule of the grammar. Its first argument bounds how deep rules are
used within rules; four times the number of tokens is enough, since no more than three rules in a
row take no token.
-/

namespace CoverageReplay.Yaml

/-- How far the tokens have been read. -/
structure Composition where
  rest : List Token
  /-- What the handles of tags stand for. -/
  handles : List (String × String)
  /-- The names of anchors with the numbers that aliases use. -/
  names : SortedMap String Nat
  /-- The number of anchors so far. -/
  begun : Nat
  anchored : List Anchored
  deriving Inhabited

/-- A reader of tokens. -/
abbrev Compose := StateT Composition Option

namespace Compose

/-- The token that comes next. -/
def next : Compose (Option Token) := return (← get).rest.head?

/-- Goes on to the next token. -/
def skip : Compose Unit := modify fun s => { s with rest := s.rest.tail }

/-! ## Properties of nodes -/

/-- The address of a tag. -/
def tagAddress (handle suffix : String) : Compose String := do
  if handle = "" then return suffix
  else
    match (← get).handles.lookup handle with
    | some uri => return uri ++ suffix
    | none => failure

/-- The tag that comes next, if there is one. -/
def tagNext : Compose (Option String) := do
  match ← next with
  | some (.tag handle suffix) =>
    skip
    return some (← tagAddress handle suffix)
  | _ => return none

/-- The anchor that comes next, if there is one. -/
def anchorNext : Compose (Option String) := do
  match ← next with
  | some (.anchor name) =>
    skip
    return some name
  | _ => return none

/-- The anchor and the tag that come next, in either order. -/
def properties : Compose (Option String × Option String) := do
  match ← anchorNext with
  | some name => return (some name, ← tagNext)
  | none =>
    let tag ← tagNext
    return (← if tag.isSome then anchorNext else pure none, tag)

/-- Begins an anchored node. Its number is the number of names in use. -/
def begin (name : String) : Compose (Nat × Nat) := do
  let s ← get
  set { s with names := s.names.insert name s.names.size, begun := s.begun + 1 }
  return (s.names.size, s.begun)

/-- The alias of an anchor. -/
def aliasOf (name : String) : Compose Node := do
  match (← get).names.get? name with
  | some number => return .alias number
  | none => failure

/-! ## Nodes -/

/-- The tokens that end an item of a block sequence without indentation, or a key or value. -/
def blockEnds : List Token := [.key, .value, .blockEnd]

mutual

/-- A node. Only within blocks can it be a block, and only after keys and values can it be a block
sequence without indentation. -/
def node : (depth : Nat) → (inBlock unindented : Bool) → Compose Node
  | 0, _, _ => failure
  | depth + 1, inBlock, unindented => do
    match ← next with
    | some (.alias name) =>
      skip
      aliasOf name
    | _ =>
      let (anchor, tag) ← properties
      match anchor with
      | none => content depth inBlock unindented tag tag.isSome
      | some name =>
        let (number, order) ← begin name
        let n ← content depth inBlock unindented tag true
        modify fun s => { s with anchored := ⟨number, order, n⟩ :: s.anchored }
        return n

/-- A node without its properties; it may be missing when it has some. -/
def content : (depth : Nat) → (inBlock unindented : Bool) → (tag : Option String) →
    (mayMiss : Bool) → Compose Node
  | 0, _, _, _, _ => failure
  | depth + 1, inBlock, unindented, tag, mayMiss => do
    match ← next with
    | some (.scalar text style) =>
      skip
      return .scalar ⟨text, style, tag⟩
    | some .openSequence =>
      skip
      return .sequence (← flowItems depth true)
    | some .openMapping =>
      skip
      return .mapping (← flowPairs depth true)
    | some .item =>
      if unindented then return .sequence (← unindentedItems depth)
      else if mayMiss then return .nothing tag
      else failure
    | some .blockSequence =>
      if inBlock then
        skip
        return .sequence (← blockItems depth)
      else if mayMiss then return .nothing tag
      else failure
    | some .blockMapping =>
      if inBlock then
        skip
        return .mapping (← blockPairs depth)
      else if mayMiss then return .nothing tag
      else failure
    | _ => if mayMiss then return .nothing tag else failure

/-- A node, or nothing in front of one of some tokens. -/
def nodeUnless : (depth : Nat) → (ends : List Token) → (inBlock unindented : Bool) → Compose Node
  | 0, _, _, _ => failure
  | depth + 1, ends, inBlock, unindented => do
    match ← next with
    | some t =>
      if ends.contains t then return .nothing none else node depth inBlock unindented
    | none => failure

/-- The items of a block sequence. -/
def blockItems : (depth : Nat) → Compose (List Node)
  | 0 => failure
  | depth + 1 => do
    match ← next with
    | some .item =>
      skip
      let n ← nodeUnless depth [.item, .blockEnd] true false
      return n :: (← blockItems depth)
    | some .blockEnd =>
      skip
      return []
    | _ => failure

/-- The items of a block sequence without indentation. -/
def unindentedItems : (depth : Nat) → Compose (List Node)
  | 0 => failure
  | depth + 1 => do
    match ← next with
    | some .item =>
      skip
      let n ← nodeUnless depth (.item :: blockEnds) true false
      return n :: (← unindentedItems depth)
    | _ => return []

/-- The value after a key of a block mapping. -/
def blockValue : (depth : Nat) → Compose Node
  | 0 => failure
  | depth + 1 => do
    match ← next with
    | some .value =>
      skip
      nodeUnless depth blockEnds true true
    | _ => return .nothing none

/-- The keys and values of a block mapping. -/
def blockPairs : (depth : Nat) → Compose (List (Node × Node))
  | 0 => failure
  | depth + 1 => do
    match ← next with
    | some .key =>
      skip
      let k ← nodeUnless depth blockEnds true true
      let v ← blockValue depth
      return (k, v) :: (← blockPairs depth)
    | some .blockEnd =>
      skip
      return []
    | _ => failure

/-- The value after a key inside brackets that `close` ends. -/
def flowValue : (depth : Nat) → (close : Token) → Compose Node
  | 0, _ => failure
  | depth + 1, close => do
    match ← next with
    | some .value =>
      skip
      nodeUnless depth [.comma, close] false false
    | _ => return .nothing none

/-- The key and value of a mapping that is an item of a flow sequence. A token that stands in place
of the key is lost. -/
def flowPair : (depth : Nat) → Compose (Node × Node)
  | 0 => failure
  | depth + 1 => do
    match ← next with
    | some .value | some .comma | some .closeSequence =>
      skip
      return (.nothing none, ← flowValue depth .closeSequence)
    | _ =>
      let k ← node depth false false
      return (k, ← flowValue depth .closeSequence)

/-- The items of a flow sequence, with a comma in front of all but the first. -/
def flowItems : (depth : Nat) → (isFirst : Bool) → Compose (List Node)
  | 0, _ => failure
  | depth + 1, isFirst => do
    match isFirst, ← next with
    | _, some .closeSequence =>
      skip
      return []
    | false, some .comma =>
      skip
      flowItem depth
    | false, _ => failure
    | true, _ => flowItem depth

/-- An item of a flow sequence and those after it. -/
def flowItem : (depth : Nat) → Compose (List Node)
  | 0 => failure
  | depth + 1 => do
    match ← next with
    | some .closeSequence =>
      skip
      return []
    | some .key =>
      skip
      let pair ← flowPair depth
      return .mapping [pair] :: (← flowItems depth false)
    | _ =>
      let n ← node depth false false
      return n :: (← flowItems depth false)

/-- The keys and values of a flow mapping, with a comma in front of all but the first. -/
def flowPairs : (depth : Nat) → (isFirst : Bool) → Compose (List (Node × Node))
  | 0, _ => failure
  | depth + 1, isFirst => do
    match isFirst, ← next with
    | _, some .closeMapping =>
      skip
      return []
    | false, some .comma =>
      skip
      flowEntries depth
    | false, _ => failure
    | true, _ => flowEntries depth

/-- A key of a flow mapping with its value, and those after it. A key without a mark has no
value. -/
def flowEntries : (depth : Nat) → Compose (List (Node × Node))
  | 0 => failure
  | depth + 1 => do
    match ← next with
    | some .closeMapping =>
      skip
      return []
    | some .key =>
      skip
      let k ← nodeUnless depth [.value, .comma, .closeMapping] false false
      let v ← flowValue depth .closeMapping
      return (k, v) :: (← flowPairs depth false)
    | _ =>
      let k ← node depth false false
      return (k, .nothing none) :: (← flowPairs depth false)

end

/-! ## Documents -/

/-- Takes the directives in front of a document, `most` at most. No handle may be declared twice,
nor the version, which must be 1.1 or 1.2. -/
def directives : (most : Nat) → (versioned : Bool) → (declared : List (String × String)) →
    Compose (List (String × String))
  | 0, _, declared => return declared
  | most + 1, versioned, declared => do
    match ← next with
    | some (.version major minor) =>
      if versioned || major ≠ 1 || !(minor = 1 || minor = 2) then failure
      else
        skip
        directives most true declared
    | some (.handle name uri) =>
      if (declared.lookup name).isSome then failure
      else
        skip
        directives most versioned ((name, uri) :: declared)
    | _ => return declared

/-- What handles of tags stand for unless a directive says otherwise. -/
def standardHandles : List (String × String) := [("!", "!"), ("!!", "tag:yaml.org,2002:")]

/-- The content of a document after its start. -/
def explicitContent (depth : Nat) : Compose Node := do
  match ← next with
  | none | some (.version ..) | some (.handle ..) | some .documentStart | some .documentEnd =>
    return .nothing none
  | _ => node depth true false

/-- The only document of some tokens. -/
def document (depth : Nat) : Compose Node := do
  let root ← match ← next with
    | none => pure (.nothing none)
    | some (.version ..) | some (.handle ..) | some .documentStart =>
      let declared ← directives depth false []
      modify fun s => { s with handles := declared ++ standardHandles }
      if (← next) = some .documentStart then
        skip
        explicitContent depth
      else failure
    | _ => node depth true false
  if (← get).rest.all (· = .documentEnd) then return root else failure

end Compose

namespace Document

/-- The only document of some tokens. -/
def ofTokens? (ts : List Token) : Option Document :=
  let start : Composition := ⟨ts, Compose.standardHandles, .empty, 0, []⟩
  ((Compose.document (4 * ts.length + 4)).run start).map fun (root, s) => ⟨root, s.anchored⟩

/-- The only document of a text. -/
def parse? (text : String) : Option Document :=
  (tokens? text.toList).bind ofTokens?

end Document

end CoverageReplay.Yaml
