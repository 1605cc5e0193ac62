import CoverageReplay.Text.IdentifierChar

/-!
# Literals of Rust source

Each function gives the number of characters that a literal takes at the start of a text, or none
when the text does not start with such a literal. A literal may carry a suffix, which is an
identifier without a gap before it.
-/

namespace CoverageReplay.Rust

open Text

/-- The length of a longest run of characters that may go on an identifier. -/
def identifierRest : List Char → Nat
  | [] => 0
  | c :: cs => if isIdentifierRest c then identifierRest cs + 1 else 0

/-- The length of an identifier without the mark of a raw one. -/
def plainIdentifier? : List Char → Option Nat
  | [] => none
  | c :: cs => if isIdentifierStart c then some (identifierRest cs + 1) else none

/-- The length of a suffix. -/
def suffix (cs : List Char) : Nat :=
  (plainIdentifier? cs).getD 0

/-- Whether a character is a hexadecimal digit. -/
def isHex (c : Char) : Bool :=
  ('0' ≤ c && c ≤ '9') || ('a' ≤ c && c ≤ 'f') || ('A' ≤ c && c ≤ 'F')

/-- The value of a hexadecimal digit. -/
def hexValue (c : Char) : Nat :=
  if c ≤ '9' then c.toNat - '0'.toNat
  else if c ≤ 'F' then c.toNat - 'A'.toNat + 10
  else c.toNat - 'a'.toNat + 10

/-- What a kind of quoted literal accepts between its quotes. -/
structure QuoteRules where
  /-- Whether an unescaped character may stand there. -/
  plain : Char → Bool
  /-- Whether a character may follow the backslash alone. -/
  escape : Char → Bool
  /-- Whether two digits may follow `\x`. -/
  byteEscape : Char → Char → Bool
  /-- Whether `\u` may name the code point. -/
  codePoint : Nat → Bool

/-- The escapes of one letter that every kind of quoted literal has. -/
def commonEscape (c : Char) : Bool :=
  c = 'n' || c = 'r' || c = 't' || c = '\\' || c = '\'' || c = '"'

/-- Whether a number is the code point of a character. -/
def isScalar (n : Nat) : Bool :=
  n < 0xd800 || (0xdfff < n && n < 0x110000)

/-- The rules between the quotes of a string. -/
def textRules : QuoteRules where
  plain _ := true
  escape c := commonEscape c || c = '0'
  byteEscape a b := '0' ≤ a && a ≤ '7' && isHex b
  codePoint := isScalar

/-- The rules between the quotes of a byte string. -/
def byteRules : QuoteRules where
  plain c := c.toNat < 128
  escape c := commonEscape c || c = '0'
  byteEscape a b := isHex a && isHex b
  codePoint _ := false

/-- The rules between the quotes of a string that a NUL ends elsewhere. -/
def cTextRules : QuoteRules where
  plain c := c ≠ '\x00'
  escape := commonEscape
  byteEscape a b := isHex a && isHex b && !(a = '0' && b = '0')
  codePoint n := isScalar n && n ≠ 0

/-- The length of the digits and the closing brace of a `\u` escape, after `count` digits of value
`value`. -/
def codePointRest? (accept : Nat → Bool) (count value : Nat) : List Char → Option Nat
  | [] => none
  | c :: cs =>
    if c = '_' && 0 < count then (codePointRest? accept count value cs).map (· + 1)
    else if c = '\x7d' && 0 < count then if accept value then some 1 else none
    else if isHex c && count < 6 then
      (codePointRest? accept (count + 1) (value * 16 + hexValue c) cs).map (· + 1)
    else none

/-- The length of the rest of a cooked string, its closing quote and suffix included. `skip`
characters are known to belong to it. -/
def cookedRest? (rules : QuoteRules) : Nat → List Char → Option Nat
  | _, [] => none
  | skip + 1, _ :: cs => (cookedRest? rules skip cs).map (· + 1)
  | 0, c :: cs =>
    if c = '"' then some (suffix cs + 1)
    else if c = '\r' then
      match cs with
      | '\n' :: _ => (cookedRest? rules 0 cs).map (· + 1)
      | _ => none
    else if c = '\\' then
      match cs with
      | 'x' :: a :: b :: _ =>
        if rules.byteEscape a b then (cookedRest? rules 3 cs).map (· + 1) else none
      | 'u' :: '\x7b' :: digits =>
        (codePointRest? rules.codePoint 0 0 digits).bind fun n =>
          (cookedRest? rules (n + 2) cs).map (· + 1)
      | '\n' :: _ => (cookedRest? rules 1 cs).map (· + 1)
      | '\r' :: '\n' :: _ => (cookedRest? rules 2 cs).map (· + 1)
      | e :: _ => if rules.escape e then (cookedRest? rules 1 cs).map (· + 1) else none
      | [] => none
    else if rules.plain c then (cookedRest? rules 0 cs).map (· + 1)
    else none

/-- Whether a text begins with `n` hash marks. -/
def startsWithHashes : Nat → List Char → Bool
  | 0, _ => true
  | n + 1, '#' :: cs => startsWithHashes n cs
  | _, _ => false

/-- The length of the rest of a raw string that `hashes` hash marks close. -/
def rawRest? (plain : Char → Bool) (hashes : Nat) : List Char → Option Nat
  | [] => none
  | c :: cs =>
    if c = '"' && startsWithHashes hashes cs then
      some (1 + hashes + suffix (cs.drop hashes))
    else if c = '\r' then
      match cs with
      | '\n' :: _ => (rawRest? plain hashes cs).map (· + 1)
      | _ => none
    else if plain c then (rawRest? plain hashes cs).map (· + 1)
    else none

/-- The length of a raw string from its hash marks on, `hashes` of which were read. -/
def raw? (plain : Char → Bool) (hashes : Nat) : List Char → Option Nat
  | '#' :: cs => (raw? plain (hashes + 1) cs).map (· + 1)
  | '"' :: cs => if hashes ≤ 255 then (rawRest? plain hashes cs).map (· + 1) else none
  | _ => none

/-- The length of the closing quote and suffix of a character literal. -/
def closeQuote? : List Char → Option Nat
  | '\'' :: cs => some (suffix cs + 1)
  | _ => none

/-- The length of the rest of a character literal after its opening quote. -/
def charRest? (rules : QuoteRules) : List Char → Option Nat
  | '\\' :: 'x' :: a :: b :: cs =>
    if rules.byteEscape a b then (closeQuote? cs).map (· + 4) else none
  | '\\' :: 'u' :: '\x7b' :: cs =>
    (codePointRest? rules.codePoint 0 0 cs).bind fun n =>
      (closeQuote? (cs.drop n)).map (· + (n + 3))
  | '\\' :: c :: cs => if rules.escape c then (closeQuote? cs).map (· + 2) else none
  | c :: cs => if rules.plain c then (closeQuote? cs).map (· + 1) else none
  | [] => none

/-- The length of a quoted literal of any kind. -/
def quoted? : List Char → Option Nat
  | '"' :: cs => (cookedRest? textRules 0 cs).map (· + 1)
  | 'r' :: cs => (raw? textRules.plain 0 cs).map (· + 1)
  | 'b' :: '"' :: cs => (cookedRest? byteRules 0 cs).map (· + 2)
  | 'b' :: 'r' :: cs => (raw? byteRules.plain 0 cs).map (· + 2)
  | 'b' :: '\'' :: cs => (charRest? byteRules cs).map (· + 2)
  | 'c' :: '"' :: cs => (cookedRest? cTextRules 0 cs).map (· + 2)
  | 'c' :: 'r' :: cs => (raw? cTextRules.plain 0 cs).map (· + 2)
  | '\'' :: cs => (charRest? textRules cs).map (· + 1)
  | _ => none

/-- Whether a character is a decimal digit. -/
def isDecimal (c : Char) : Bool := '0' ≤ c && c ≤ '9'

/-- The length of a run of decimal digits and low lines. -/
def digitRun : List Char → Nat
  | [] => 0
  | c :: cs => if isDecimal c || c = '_' then digitRun cs + 1 else 0

/-- The length of the sign and the digits of an exponent. The flags tell whether a sign and whether
a digit were read; there must be a digit, and at most one sign before it. -/
def exponent? (signed valued : Bool) : List Char → Option Nat
  | [] => if valued then some 0 else none
  | c :: cs =>
    if c = '+' || c = '-' then
      if valued then some 0 else if signed then none else (exponent? true false cs).map (· + 1)
    else if isDecimal c then (exponent? signed true cs).map (· + 1)
    else if c = '_' then (exponent? signed valued cs).map (· + 1)
    else if valued then some 0
    else none

/-- The length of the digits, point and exponent of a floating-point literal. -/
def floatDigits? (cs : List Char) : Option Nat :=
  match cs with
  | c :: _ =>
    if !isDecimal c then none
    else
      let whole := digitRun cs
      match cs.drop whole with
      | '.' :: after =>
        if after.head?.any fun d => d = '.' || isIdentifierStart d then none
        else
          let fraction := digitRun after
          let plain := whole + 1 + fraction
          match after.drop fraction with
          | e :: tail =>
            if e = 'e' || e = 'E' then
              match exponent? false false tail with
              | some n => some (plain + 1 + n)
              | none => some plain
            else some plain
          | [] => some plain
      | e :: tail =>
        if e = 'e' || e = 'E' then (exponent? false false tail).map (whole + 1 + ·) else none
      | [] => none
  | [] => none

/-- Whether a character is a digit in a base of at most sixteen. -/
def isDigitOf (base : Nat) (c : Char) : Bool :=
  isHex c && hexValue c < base

/-- The length of the digits of an integer in a base, the mark of the base excluded. -/
def integerRun? (base : Nat) (empty : Bool) : List Char → Option Nat
  | [] => if empty then none else some 0
  | c :: cs =>
    if c = '_' then
      if empty && base = 10 then none else (integerRun? base empty cs).map (· + 1)
    else if isDigitOf base c then (integerRun? base false cs).map (· + 1)
    else if isDecimal c then none
    else if empty then none
    else some 0

/-- The length of the digits of an integer literal. -/
def integerDigits? : List Char → Option Nat
  | '0' :: 'x' :: cs => (integerRun? 16 true cs).map (· + 2)
  | '0' :: 'o' :: cs => (integerRun? 8 true cs).map (· + 2)
  | '0' :: 'b' :: cs => (integerRun? 2 true cs).map (· + 2)
  | cs => integerRun? 10 true cs

/-- The length of a number with its suffix, given the length of its digits. -/
def numberWithSuffix? (cs : List Char) (digits : Nat) : Option Nat :=
  let rest := cs.drop digits
  let tail := suffix rest
  match rest.drop tail with
  | c :: _ => if isIdentifierRest c then none else some (digits + tail)
  | [] => some (digits + tail)

/-- The length of a number. -/
def number? (cs : List Char) : Option Nat :=
  match (floatDigits? cs).bind (numberWithSuffix? cs) with
  | some n => some n
  | none => (integerDigits? cs).bind (numberWithSuffix? cs)

/-- The length of a literal of any kind. -/
def literal? (cs : List Char) : Option Nat :=
  match quoted? cs with
  | some n => some n
  | none => number? cs

end CoverageReplay.Rust
