import CoverageReplay.Text.Radix
import CoverageReplay.Yaml.Cursor

/-!
# Scalars

A scalar is plain, stands in single or double quotes, or is a block of lines kept as they are or
folded. Between two pieces of a plain or quoted scalar stands a gap. A gap within a line is kept; a
gap with one line end is one blank; of a gap with more line ends the first is dropped.

The readers here begin at the first character of a scalar and give its text and the place after it.
The margin is the least column in which the content of the surrounding block may stand.
-/

namespace CoverageReplay.Yaml

/-- How a scalar is written. -/
inductive ScalarStyle where
  | plain
  | singleQuoted
  | doubleQuoted
  | literal
  | folded
  deriving DecidableEq, Repr, Inhabited

/-! ## Gaps -/

/-- What stands between two pieces of a scalar: blanks, or line ends with blanks around them. -/
structure Gap where
  blanks : List Char
  lineEnds : List Char
  deriving DecidableEq, Repr, Inhabited

namespace Gap

/-- Nothing between two pieces. -/
def empty : Gap := ⟨[], []⟩

/-- Whether a gap goes on to another line. -/
def isBroken (g : Gap) : Bool := !g.lineEnds.isEmpty

/-- What a gap contributes to the text of a scalar. -/
def folded (g : Gap) : List Char :=
  match g.lineEnds with
  | [] => g.blanks
  | ['\n'] => [' ']
  | '\n' :: more => more
  | other => other

end Gap

/-- The line ends that come next, `most` at most, and the place after the blanks that follow them.
No tab may stand in the first `margin` columns. -/
def lineEnds? (margin : Nat) : (most : Nat) → Cursor → Option (List Char × Cursor)
  | 0, c => some ([], c)
  | most + 1, c =>
    match c.lineEnd? with
    | none => some ([], c)
    | some (x, c) =>
      let (blanks, c) := c.takeWhile isBlank
      if (blanks.take margin).contains '\t' then none
      else (lineEnds? margin most c).map fun (xs, c) => (x :: xs, c)

/-- The gap that comes next. -/
def gap? (margin : Nat) (c : Cursor) : Option (Gap × Cursor) :=
  let (blanks, c) := c.takeWhile isBlank
  (lineEnds? margin c.rest.length c).map fun (ends, c) => (⟨blanks, ends⟩, c)

/-! ## Plain scalars -/

/-- The indicators that end a plain scalar inside brackets. -/
def flowIndicators : List Char := [',', '[', ']', '\x7b', '\x7d']

/-- The characters of a plain scalar up to a gap or to an indicator that ends the scalar. Inside
brackets a colon must not stand right before another indicator. -/
def plainRun? (inFlow : Bool) : List Char → Option (List Char)
  | [] => some []
  | c :: rest =>
    if isBlank c || isBreak c then some []
    else if inFlow && c = ':' && rest.head?.any fun d =>
      d = '?' || flowIndicators.contains d then none
    else if c = ':' && wordEnds rest || inFlow && flowIndicators.contains c then some []
    else (plainRun? inFlow rest).map (c :: ·)

/-- A plain scalar that goes on after a gap, in `most` pieces at most: its text, whether the gap at
its end goes on to another line, and the place after that gap. -/
def plainFrom? (inFlow : Bool) (margin : Nat) :
    (most : Nat) → Gap → Cursor → Option (List Char × Bool × Cursor)
  | 0, _, _ => none
  | most + 1, gap, c =>
    if c.atAnyMarker || c.next '#' then some ([], gap.isBroken, c)
    else do
      let run ← plainRun? inFlow c.rest
      let c := c.advance run.length
      let text := if run.isEmpty then [] else gap.folded ++ run
      if c.nextIs fun x => isBlank x || isBreak x then
        let (gap, c) ← gap? margin c
        if !inFlow && c.column < margin then some (text, gap.isBroken, c)
        else
          let (more, broken, c) ← plainFrom? inFlow margin most gap c
          some (text ++ more, broken, c)
      else some (text, run.isEmpty && gap.isBroken, c)

/-- A plain scalar, and whether the gap after it goes on to another line. -/
def plain? (inFlow : Bool) (margin : Nat) (c : Cursor) : Option (List Char × Bool × Cursor) :=
  plainFrom? inFlow margin (c.rest.length + 1) .empty c

/-! ## Quoted scalars -/

/-- A character written as its code point in hexadecimal. -/
def codePoint? (length : Nat) (digits : List Char) : Option Char := do
  let n ← Text.digitsIn? 16 (digits.take length)
  if digits.length < length || !n.isValidChar then none
  else some (Char.ofNat n)

/-- The character that an escape stands for, and the length of the escape after its backslash. -/
def escape? : List Char → Option (Char × Nat)
  | [] => none
  | c :: rest =>
    match c with
    | '0' => some ('\x00', 1)
    | 'a' => some ('\x07', 1)
    | 'b' => some ('\x08', 1)
    | 't' | '\t' => some ('\t', 1)
    | 'n' => some ('\n', 1)
    | 'v' => some ('\x0b', 1)
    | 'f' => some ('\x0c', 1)
    | 'r' => some ('\r', 1)
    | 'e' => some ('\x1b', 1)
    | ' ' | '"' | '/' | '\\' => some (c, 1)
    | 'N' => some ('\u0085', 1)
    | '_' => some ('\u00a0', 1)
    | 'L' => some ('\u2028', 1)
    | 'P' => some ('\u2029', 1)
    | 'x' => (codePoint? 2 rest).map (·, 3)
    | 'u' => (codePoint? 4 rest).map (·, 5)
    | 'U' => (codePoint? 8 rest).map (·, 9)
    | _ => none

/-- The rest of a quoted scalar, in `most` steps at most. A line end after a backslash and the
blanks around it are dropped. -/
def quotedFrom? (quote : Char) : (most : Nat) → Cursor → Option (List Char × Cursor)
  | 0, _ => none
  | most + 1, c =>
    let goOn := fun (text : List Char) (c : Cursor) =>
      (quotedFrom? quote most c).map fun (more, c) => (text ++ more, c)
    if c.atAnyMarker then none
    else
      match c.rest with
      | [] => none
      | x :: rest =>
        if x = quote then
          if quote = '\'' && rest.head? = some quote then goOn [quote] (c.advance 2)
          else some ([], c.advance 1)
        else if x = '\\' && quote = '"' then
          match (c.advance 1).lineEnd? with
          | some (_, next) => do
            let (ends, c) ← lineEnds? 0 next.rest.length (next.skipWhile isBlank)
            goOn ends c
          | none => do
            let (char, length) ← escape? rest
            goOn [char] (c.advance (1 + length))
        else if isBlank x || isBreak x then do
          let (gap, c) ← gap? 0 c
          goOn gap.folded c
        else goOn [x] (c.advance 1)

/-- A scalar in quotes. -/
def quoted? (quote : Char) (c : Cursor) : Option (List Char × Cursor) :=
  quotedFrom? quote (c.rest.length + 1) (c.advance 1)

/-! ## Blocks -/

/-- What becomes of the line ends at the end of a block. -/
inductive Chomping where
  /-- All are dropped. -/
  | strip
  /-- The last line keeps its end. -/
  | clip
  /-- All are kept. -/
  | keep
  deriving DecidableEq, Repr, Inhabited

/-- The signs after the mark of a block: an indentation and what becomes of line ends, in either
order. -/
def blockHeader? (c : Cursor) : Option (Option Nat × Chomping × Cursor) :=
  let chomping := fun c : Cursor =>
    if c.next '+' then (Chomping.keep, c.advance 1)
    else if c.next '-' then (Chomping.strip, c.advance 1)
    else (Chomping.clip, c)
  let indentation := fun c : Cursor =>
    match c.rest.head?.bind (Text.digitIn? 10) with
    | none => some (none, c)
    | some 0 => none
    | some n => some (some n, c.advance 1)
  if c.nextIs Char.isDigit then do
    let (n, c) ← indentation c
    let (kept, c) := chomping c
    some (n, kept, c)
  else do
    let (kept, c) := chomping c
    let (n, c) ← indentation c
    some (n, kept, c)

/-- The line ends in front of a line of a block, the widest indentation among them, and the place
after the indentation of that line. A tab may not stand in place of indentation. -/
def blockGap? (indentation : Option Nat) :
    (most widest : Nat) → Cursor → Option (List Char × Nat × Cursor)
  | 0, _, _ => none
  | most + 1, widest, c =>
    let deeper := fun x => x = ' '
    let spaces := (c.rest.takeWhile deeper).length
    let c := c.advance (match indentation with
      | some n => min spaces (n - c.column)
      | none => spaces)
    let widest := max widest c.column
    if c.next '\t' && indentation.all (c.column < ·) then none
    else
      match c.lineEnd? with
      | some (x, c) =>
        (blockGap? indentation most widest c).map fun (ends, widest, c) => (x :: ends, widest, c)
      | none => some ([], widest, c)

/-- The lines of a block from one of them on, `most` at most: `lineEnd` ends the line before, `ends`
are the empty lines between, and `indented` says whether the line before begins with a blank. Gives
the text, the last line end and the empty lines at the end. -/
def blockLines? (folded : Bool) (indentation : Nat) :
    (most : Nat) → (lineEnd ends : List Char) → (indented : Bool) → Cursor →
      Option (List Char × List Char × List Char × Cursor)
  | 0, _, _, _, _ => none
  | most + 1, lineEnd, ends, indented, c =>
    if c.column = indentation && !c.rest.isEmpty then do
      let blank := c.nextIs isBlank
      let joint :=
        if folded && lineEnd = ['\n'] && !indented && !blank then
          if ends.isEmpty then [' '] else ends
        else lineEnd ++ ends
      let (line, c) := c.takeWhile fun x => !isBreak x
      let (lineEnd, c) := match c.lineEnd? with
        | some (x, c) => ([x], c)
        | none => ([], c)
      let (ends, _, c) ← blockGap? (some indentation) (c.rest.length + 1) 0 c
      let (more, lineEnd, ends, c) ← blockLines? folded indentation most lineEnd ends blank c
      some (joint ++ line ++ more, lineEnd, ends, c)
    else some ([], lineEnd, ends, c)

/-- A block scalar. Without an indentation of its own it has that of its first line, or the widest
of the empty lines before it, but at least the margin. -/
def block? (folded : Bool) (margin : Nat) (c : Cursor) : Option (List Char × Cursor) := do
  let (increment, chomping, c) ← blockHeader? (c.advance 1)
  let c ← c.finishLine?
  let fixed := increment.map fun n => margin - 1 + n
  let (ends, widest, c) ← blockGap? fixed (c.rest.length + 1) 0 c
  let indentation := fixed.getD (max (max widest margin) 1)
  let (text, lineEnd, ends, c) ← blockLines? folded indentation (c.rest.length + 1) [] ends false c
  let tail := match chomping with
    | .strip => []
    | .clip => lineEnd
    | .keep => lineEnd ++ ends
  some (text ++ tail, c)

end CoverageReplay.Yaml
