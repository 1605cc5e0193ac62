import CoverageReplay.Text.Printable

/-!
# Quoted text

A text in double quotes, on one line and free of characters that cannot be seen: the quote and the
backslash take a backslash, tab, line feed, carriage return and NUL have letters of their own, and
any other character that is not printable, or that combines with its neighbour, is written as its
code point in hexadecimal.
-/

namespace CoverageReplay.Text

/-- A backslash, the letter `u`, and a code point in hexadecimal between braces. -/
def codePoint (c : Char) : List Char :=
  ['\\', 'u', '\x7b'] ++ Nat.toDigits 16 c.toNat ++ ['\x7d']

/-- One character inside double quotes. -/
def quoteChar (c : Char) : List Char :=
  if c = '\x00' then ['\\', '0']
  else if c = '\t' then ['\\', 't']
  else if c = '\n' then ['\\', 'n']
  else if c = '\r' then ['\\', 'r']
  else if c = '"' then ['\\', '"']
  else if c = '\\' then ['\\', '\\']
  else if isGraphemeExtender c || !isPrintable c then codePoint c
  else [c]

/-- A text in double quotes. -/
def quoteChars (cs : List Char) : List Char :=
  '"' :: cs.flatMap quoteChar ++ ['"']

/-- A text in double quotes. -/
def quote (s : String) : String :=
  String.ofList (quoteChars s.toList)

end CoverageReplay.Text
