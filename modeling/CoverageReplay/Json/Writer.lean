import CoverageReplay.Json.Basic

/-!
# Writing JSON

`Json.write` puts a value on one line without blanks. `Json.writeIndented` gives every item and
field a line of its own, two blanks further in than its parent; empty arrays and objects stay on one
line.

Texts are written as they are, but for the quote, the backslash and control characters: five of
these have letters of their own, the others are written as code points.
-/

namespace CoverageReplay.Json

/-- One character of a text. -/
def writeChar (c : Char) : List Char :=
  if c = '"' then ['\\', '"']
  else if c = '\\' then ['\\', '\\']
  else if c = '\n' then ['\\', 'n']
  else if c = '\r' then ['\\', 'r']
  else if c = '\t' then ['\\', 't']
  else if c = '\x08' then ['\\', 'b']
  else if c = '\x0c' then ['\\', 'f']
  else if c.toNat < 32 then
    ['\\', 'u', '0', '0', Nat.digitChar (c.toNat / 16), Nat.digitChar (c.toNat % 16)]
  else [c]

/-- A text in quotes. -/
def writeText (s : String) : List Char :=
  '"' :: s.toList.flatMap writeChar ++ ['"']

/-- A number. -/
def writeNumber (n : Number) : List Char :=
  (if n.negative then ['-'] else []) ++ n.whole ++
    (if n.fraction.isEmpty then [] else '.' :: n.fraction) ++
    (match n.exponent with
      | none => []
      | some (negative, digits) => 'e' :: (if negative then '-' else '+') :: digits)

mutual

/-- A value on one line. -/
def write : Json → List Char
  | .null => "null".toList
  | .bool true => "true".toList
  | .bool false => "false".toList
  | .number n => writeNumber n
  | .text s => writeText s
  | .array [] => ['[', ']']
  | .array (v :: rest) => '[' :: v.write ++ writeItems rest ++ [']']
  | .object [] => ['\x7b', '\x7d']
  | .object ((key, v) :: rest) =>
    '\x7b' :: writeText key ++ ':' :: v.write ++ writeFields rest ++ ['\x7d']
  | .garbled => "null".toList

/-- Further items of an array. -/
def writeItems : List Json → List Char
  | [] => []
  | v :: rest => ',' :: v.write ++ writeItems rest

/-- Further fields of an object. -/
def writeFields : List (String × Json) → List Char
  | [] => []
  | (key, v) :: rest => ',' :: writeText key ++ ':' :: v.write ++ writeFields rest

end

/-- A new line, `level` steps in. -/
def newLine (level : Nat) : List Char :=
  '\n' :: List.replicate (2 * level) ' '

mutual

/-- A value whose first line is `level` steps in. -/
def writeIndented (level : Nat) : Json → List Char
  | .null => "null".toList
  | .bool true => "true".toList
  | .bool false => "false".toList
  | .number n => writeNumber n
  | .text s => writeText s
  | .array [] => ['[', ']']
  | .array (v :: rest) =>
    '[' :: newLine (level + 1) ++ v.writeIndented (level + 1) ++
      writeIndentedItems (level + 1) rest ++ newLine level ++ [']']
  | .object [] => ['\x7b', '\x7d']
  | .object ((key, v) :: rest) =>
    '\x7b' :: newLine (level + 1) ++ writeText key ++ ": ".toList ++
      v.writeIndented (level + 1) ++ writeIndentedFields (level + 1) rest ++ newLine level ++
      ['\x7d']
  | .garbled => "null".toList

/-- Further items of an array, `level` steps in. -/
def writeIndentedItems (level : Nat) : List Json → List Char
  | [] => []
  | v :: rest =>
    ',' :: newLine level ++ v.writeIndented level ++ writeIndentedItems level rest

/-- Further fields of an object, `level` steps in. -/
def writeIndentedFields (level : Nat) : List (String × Json) → List Char
  | [] => []
  | (key, v) :: rest =>
    ',' :: newLine level ++ writeText key ++ ": ".toList ++ v.writeIndented level ++
      writeIndentedFields level rest

end

/-- The text of a value on one line. -/
def compact (v : Json) : String := String.ofList v.write

/-- The text of a value on several lines. -/
def pretty (v : Json) : String := String.ofList (v.writeIndented 0)

end CoverageReplay.Json
