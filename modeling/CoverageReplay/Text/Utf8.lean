/-!
# What is wrong with bytes that are not UTF-8

`utf8Fault?` finds the first byte sequence that is no character: where it begins, and how many of
its bytes could begin a character, or that the text ends within it.
-/

namespace CoverageReplay.Text

/-- Why bytes are no text. -/
inductive Utf8Fault where
  /-- The bytes from `index` on, `length` of them, begin no character. -/
  | invalid (length index : Nat)
  /-- The text ends within the character that begins at `index`. -/
  | incomplete (index : Nat)
  deriving DecidableEq, Repr, Inhabited

namespace Utf8Fault

/-- The text shown for the fault. -/
def message : Utf8Fault → String
  | invalid length index =>
    "invalid utf-8 sequence of " ++ toString length ++ " bytes from index " ++ toString index
  | incomplete index => "incomplete utf-8 byte sequence from index " ++ toString index

end Utf8Fault

/-- The bounds of each byte that must follow a first byte; `none` when none can. -/
def followers? (first : Nat) : Option (List (Nat × Nat)) :=
  let any := (0x80, 0xBF)
  if first < 0x80 then some []
  else if first < 0xC2 then none
  else if first < 0xE0 then some [any]
  else if first = 0xE0 then some [(0xA0, 0xBF), any]
  else if first = 0xED then some [(0x80, 0x9F), any]
  else if first < 0xF0 then some [any, any]
  else if first = 0xF0 then some [(0x90, 0xBF), any, any]
  else if first < 0xF4 then some [any, any, any]
  else if first = 0xF4 then some [(0x80, 0x8F), any, any]
  else none

/-- How following bytes fit their bounds, `good` bytes having fitted: the bytes after them, or the
number of bytes that fit, or that the text ends. -/
def follow (good : Nat) : List (Nat × Nat) → List UInt8 → Except (Option Nat) (List UInt8)
  | [], bytes => .ok bytes
  | _ :: _, [] => .error none
  | (low, high) :: bounds, b :: bytes =>
    if low ≤ b.toNat && b.toNat ≤ high then follow (good + 1) bounds bytes else .error (some good)

/-- The first fault of some bytes, the first of which has index `index`; at most `most` characters
are looked at. -/
def utf8FaultFrom? : (most index : Nat) → List UInt8 → Option Utf8Fault
  | 0, _, _ => none
  | _, _, [] => none
  | most + 1, index, b :: bytes =>
    match followers? b.toNat with
    | none => some (.invalid 1 index)
    | some bounds =>
      match follow 1 bounds bytes with
      | .ok rest => utf8FaultFrom? most (index + 1 + bounds.length) rest
      | .error (some good) => some (.invalid good index)
      | .error none => some (.incomplete index)

/-- The first fault of some bytes. -/
def utf8Fault? (bytes : ByteArray) : Option Utf8Fault :=
  utf8FaultFrom? bytes.size 0 bytes.data.toList

end CoverageReplay.Text
