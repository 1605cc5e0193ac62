import CoverageReplay.Yaml.Scalar

/-!
# Tokens

The tokens of a YAML text. Indentation is made explicit: a token stands in front of the first item
of a block and another one after its last. The readers here begin at the first character of a token.
-/

namespace CoverageReplay.Yaml

/-- A token. -/
inductive Token where
  /-- The version of YAML that a document is written in. -/
  | version (major minor : Nat)
  /-- What a handle of tags stands for. -/
  | handle (name uri : String)
  | documentStart
  | documentEnd
  | blockSequence
  | blockMapping
  | blockEnd
  | openSequence
  | closeSequence
  | openMapping
  | closeMapping
  /-- The mark of an item of a block sequence. -/
  | item
  | comma
  | key
  | value
  | alias (name : String)
  | anchor (name : String)
  | tag (handle suffix : String)
  | scalar (text : String) (style : ScalarStyle)
  deriving DecidableEq, Repr, Inhabited

namespace Token

/-! ## Anchors -/

/-- The name after the mark of an anchor or alias. -/
def anchorName? (c : Cursor) : Option (String × Cursor) :=
  let (name, c) := (c.advance 1).takeWhile isNameChar
  let ends := c.wordEnds || c.nextIs fun x => "?:,]%@".toList.contains x || x = '\x7d' || x = '\x60'
  if name.isEmpty || !ends then none else some (String.ofList name, c)

/-! ## Tags -/

/-- Whether a character may stand in the address of a tag; some only between angle brackets. -/
def isAddressChar (bracketed : Bool) (c : Char) : Bool :=
  isNameChar c || ";/?:@&=+$.!~*'()%".toList.contains c || bracketed && ",[]".toList.contains c

/-- The bytes of an address in which a percent sign stands in front of two hexadecimal digits. -/
def addressBytes? : List Char → Option (List UInt8)
  | [] => some []
  | '%' :: a :: b :: rest => do
    let n ← Text.digitsIn? 16 [a, b]
    return UInt8.ofNat n :: (← addressBytes? rest)
  | c :: rest => if c = '%' then none else (addressBytes? rest).map (UInt8.ofNat c.toNat :: ·)

/-- The address that comes next, after the characters of it that stand in `head`. -/
def address? (bracketed : Bool) (head : List Char) (c : Cursor) : Option (String × Cursor) := do
  let (run, c) := c.takeWhile (isAddressChar bracketed)
  let bytes ← addressBytes? run
  let text ← String.fromUTF8? ⟨bytes.toArray⟩
  if head.isEmpty && run.isEmpty then none
  else some (String.ofList (head.drop 1) ++ text, c)

/-- The handle that comes next: an exclamation mark, a name, and a second mark if there is one. -/
def handle? (c : Cursor) : Option (List Char × Cursor) :=
  if c.next '!' then
    let (name, c) := (c.advance 1).takeWhile isNameChar
    if c.next '!' then some ('!' :: name ++ ['!'], c.advance 1)
    else some ('!' :: name, c)
  else none

/-- Whether a handle is more than one mark and ends in a mark. -/
def isNamedHandle (mark : List Char) : Bool :=
  1 < mark.length && mark.getLast? = some '!'

/-- The handle and the address of the tag that comes next. -/
def tagParts? (c : Cursor) : Option (String × String × Cursor) :=
  if c.rest.take 2 = ['!', '<'] then do
    let (uri, c) ← address? true [] (c.advance 2)
    if c.next '>' then some ("", uri, c.advance 1) else none
  else do
    let (mark, c) ← handle? c
    if isNamedHandle mark then
      let (suffix, c) ← address? false [] c
      some (String.ofList mark, suffix, c)
    else
      let (suffix, c) ← address? false mark c
      if suffix = "" then some ("", "!", c) else some ("!", suffix, c)

/-- The tag that comes next. -/
def tag? (inFlow : Bool) (c : Cursor) : Option (Token × Cursor) := do
  let (mark, suffix, c) ← tagParts? c
  if c.wordEnds || inFlow && c.next ',' then some (.tag mark suffix, c) else none

/-! ## Directives -/

/-- A part of a version number. -/
def versionPart? (c : Cursor) : Option (Nat × Cursor) := do
  let (digits, c) := c.takeWhile Char.isDigit
  let n ← Text.digitsIn? 10 digits
  if digits.length ≤ 9 then some (n, c) else none

/-- The directive that comes next, with the rest of its line. -/
def directive? (c : Cursor) : Option (Token × Cursor) := do
  let (name, c) := (c.advance 1).takeWhile isNameChar
  if !c.wordEnds then none
  let c := c.skipWhile isBlank
  let (token, c) ←
    if name = "YAML".toList then do
      let (major, c) ← versionPart? c
      if !c.next '.' then none
      let (minor, c) ← versionPart? (c.advance 1)
      pure (version major minor, c)
    else if name = "TAG".toList then do
      let (name, c) ← handle? c
      if !(name = ['!'] || isNamedHandle name) || !c.nextIs isBlank then none
      let (uri, c) ← address? true [] (c.skipWhile isBlank)
      if !c.wordEnds then none
      pure (handle (String.ofList name) uri, c)
    else none
  let c ← c.finishLine?
  some (token, c)

end Token

end CoverageReplay.Yaml
