import CoverageReplay.Text.Blank
import CoverageReplay.Tree.Lowering

/-!
# Names in format strings

The text of a format string is a `Template`: characters, doubled braces, and placeholders, each of
which may name what it shows, and in its specification a width and a precision. `Template.captured`
lists all these names.

Lowering does not read templates; it takes what follows any opening brace of a literal for a name.
This finds what the placeholders show, as far as it is named in ASCII (`Template.mem_captures`), but
no width and no precision.
-/

namespace CoverageReplay

/-! ## Templates -/

/-- What a placeholder refers to: an argument by its number or by its name. -/
inductive FormatArgument where
  | position (n : Nat)
  | named (name : String)

/-- A width or a precision: a number, or the value of an argument. -/
inductive FormatCount where
  | number (n : Nat)
  | parameter (a : FormatArgument)

/-- A precision; `next` is that of the next argument. -/
inductive FormatPrecision where
  | count (c : FormatCount)
  | next

inductive FormatAlign where
  | left
  | center
  | right

inductive FormatSign where
  | plus
  | minus

/-- What follows the colon of a placeholder, part by part in their order. -/
structure FormatSpec where
  /-- The side to which the value goes, and the character that fills the rest. -/
  align : Option (Option Char × FormatAlign) := none
  sign : Option FormatSign := none
  alternate : Bool := false
  zero : Bool := false
  width : Option FormatCount := none
  precision : Option FormatPrecision := none
  /-- Nothing, `?`, `x?`, `X?`, or the letter of a formatting trait. -/
  trait : String := ""

/-- What stands between two braces of a template. White space may follow. -/
structure Placeholder where
  argument : Option FormatArgument
  spec : Option FormatSpec
  blanks : { cs : List Char // cs.all Text.isBlank }

/-- A part of a template. A brace that is to show is written twice. -/
inductive TemplatePart where
  | char (c : Char) (plain : c ≠ '\x7b' ∧ c ≠ '\x7d')
  | openingBrace
  | closingBrace
  | placeholder (p : Placeholder)

/-- What a format string says. -/
abbrev Template := List TemplatePart

/-! ## How they are written -/

def FormatArgument.print : FormatArgument → List Char
  | .position n => (toString n).toList
  | .named name => name.toList

def FormatCount.print : FormatCount → List Char
  | .number n => (toString n).toList
  | .parameter a => a.print ++ ['$']

def FormatPrecision.print : FormatPrecision → List Char
  | .count c => c.print
  | .next => ['*']

def FormatAlign.print : FormatAlign → Char
  | .left => '<'
  | .center => '^'
  | .right => '>'

def FormatSign.print : FormatSign → Char
  | .plus => '+'
  | .minus => '-'

def FormatSpec.print (s : FormatSpec) : List Char :=
  (match s.align with
    | none => []
    | some (fill, align) => fill.toList ++ [align.print]) ++
  (s.sign.map FormatSign.print).toList ++ (if s.alternate then ['#'] else []) ++
  (if s.zero then ['0'] else []) ++ (s.width.map FormatCount.print).getD [] ++
  (match s.precision with
    | none => []
    | some p => '.' :: p.print) ++
  s.trait.toList

namespace Placeholder

/-- What follows the argument of a placeholder, the closing brace included. -/
def printRest (p : Placeholder) : List Char :=
  (match p.spec with
    | none => []
    | some s => ':' :: s.print) ++ p.blanks.val ++ ['\x7d']

def print (p : Placeholder) : List Char :=
  '\x7b' :: ((p.argument.map FormatArgument.print).getD [] ++ p.printRest)

end Placeholder

def TemplatePart.print : TemplatePart → List Char
  | .char c _ => [c]
  | .openingBrace => ['\x7b', '\x7b']
  | .closingBrace => ['\x7d', '\x7d']
  | .placeholder p => p.print

def Template.print (t : Template) : List Char :=
  t.flatMap TemplatePart.print

/-! ## The names in them -/

def FormatArgument.names : FormatArgument → List String
  | .position _ => []
  | .named name => [name]

def FormatCount.names : FormatCount → List String
  | .number _ => []
  | .parameter a => a.names

def FormatPrecision.names : FormatPrecision → List String
  | .count c => c.names
  | .next => []

namespace Placeholder

/-- The name of what is shown. -/
def shown (p : Placeholder) : List String :=
  (p.argument.map FormatArgument.names).getD []

/-- The names of the width and of the precision. -/
def sizes (p : Placeholder) : List String :=
  match p.spec with
  | none => []
  | some s =>
    (s.width.map FormatCount.names).getD [] ++ (s.precision.map FormatPrecision.names).getD []

end Placeholder

def TemplatePart.placeholder? : TemplatePart → Option Placeholder
  | .placeholder p => some p
  | _ => none

namespace Template

def placeholders (t : Template) : List Placeholder :=
  t.filterMap TemplatePart.placeholder?

/-- The names of all that a template shows. -/
def shown (t : Template) : List String :=
  t.placeholders.flatMap Placeholder.shown

/-- All names that a template captures. -/
def captured (t : Template) : List String :=
  t.placeholders.flatMap fun p => p.shown ++ p.sizes

end Template

/-! ## What lowering finds -/

/-- Whether a character goes on with a captured name. -/
def continuesCapture (c : Char) : Bool :=
  c.isAlphanum || c = '_'

/-- Whether a name consists of ASCII characters. -/
def isAsciiName (name : String) : Bool :=
  name.toList.head?.any startsCapture && name.toList.all continuesCapture

/-- A name is all that is taken if what follows does not go on with it. -/
theorem takeWhile_name {name rest : List Char} (hname : name.all continuesCapture)
    (hrest : rest.head?.any continuesCapture = false) :
    (name ++ rest).takeWhile continuesCapture = name := by
  have hnone : rest.takeWhile continuesCapture = [] := by
    cases rest with
    | nil => rfl
    | cons c cs => exact List.takeWhile_cons_of_neg (by simpa using hrest)
  rw [List.takeWhile_append_of_pos (List.all_eq_true.mp hname), hnone, List.append_nil]

/-- Lowering finds an ASCII name after an opening brace, wherever in a literal this stands. -/
theorem mem_captures_of_name {name : String} {rest : List Char} (front : List Char)
    (ascii : isAsciiName name) (hrest : rest.head?.any continuesCapture = false) :
    name ∈ captures (front ++ '\x7b' :: (name.toList ++ rest)) := by
  rw [isAsciiName, Bool.and_eq_true] at ascii
  induction front with
  | nil =>
    have htaken : (name.toList ++ rest).takeWhile (fun d => d.isAlphanum || d = '_') =
        name.toList :=
      takeWhile_name ascii.2 hrest
    simp [captures, htaken, ascii.1]
  | cons c cs ih =>
    simp only [List.cons_append, captures]
    split
    next => exact List.mem_cons_of_mem _ ih
    next => exact ih

/-- No name goes on with a blank. -/
theorem continuesCapture_of_isBlank {c : Char} (h : Text.isBlank c) :
    continuesCapture c = false := by
  have hlow : c ≠ '_' := by
    rintro rfl
    exact absurd h (by decide)
  rw [continuesCapture, Bool.or_eq_false_iff]
  refine ⟨Bool.eq_false_iff.mpr fun halnum => ?_, decide_eq_false hlow⟩
  change ((decide (c.val ≥ 65 ∧ c.val ≤ 90) || decide (c.val ≥ 97) && decide (c.val ≤ 122)) ||
    decide (c.val ≥ 48) && decide (c.val ≤ 57)) = true at halnum
  simp only [Bool.or_eq_true, Bool.and_eq_true, decide_eq_true_eq, ge_iff_le,
    UInt32.le_iff_toNat_le] at halnum
  change (65 ≤ c.toNat ∧ c.toNat ≤ 90 ∨ 97 ≤ c.toNat ∧ c.toNat ≤ 122) ∨ 48 ≤ c.toNat ∧
    c.toNat ≤ 57 at halnum
  simp only [Text.isBlank, Bool.or_eq_true, Bool.and_eq_true, decide_eq_true_eq, beq_iff_eq] at h
  omega

namespace Placeholder

variable {p : Placeholder} {name : String}

/-- After the argument of a placeholder comes a colon, a blank or a brace. -/
theorem head_printRest (p : Placeholder) (back : List Char) :
    (p.printRest ++ back).head?.any continuesCapture = false := by
  obtain ⟨argument, spec, ⟨blanks, hblanks⟩⟩ := p
  cases spec with
  | some s => rfl
  | none =>
    cases blanks with
    | nil => rfl
    | cons c cs =>
      rw [List.all_cons, Bool.and_eq_true] at hblanks
      exact continuesCapture_of_isBlank hblanks.1

/-- A name is shown by a part whose argument it is. -/
theorem argument_of_mem_shown (h : name ∈ p.shown) : p.argument = some (.named name) := by
  rw [shown] at h
  rcases hargument : p.argument with _ | (n | given)
  · simp [hargument] at h
  · simp [hargument, FormatArgument.names] at h
  · rw [hargument] at h
    rw [List.mem_singleton.mp h]

/-- A part that shows a name is written with the name right behind the brace. -/
theorem print_of_mem_shown (h : name ∈ p.shown) :
    p.print = '\x7b' :: (name.toList ++ p.printRest) := by
  rw [print, argument_of_mem_shown h]
  rfl

end Placeholder

namespace Template

/-- A template is written part by part. -/
theorem print_append_cons (before after : Template) (part : TemplatePart) :
    (before ++ part :: after).print = before.print ++ (part.print ++ after.print) := by
  rw [print, List.flatMap_append, List.flatMap_cons]
  rfl

/-- In a literal that holds a template, lowering finds what its placeholders show, if this has an
ASCII name. -/
theorem mem_captures {t : Template} {name : String} (ascii : isAsciiName name) (h : name ∈ t.shown)
    (front back : List Char) : name ∈ captures (front ++ t.print ++ back) := by
  obtain ⟨p, hp, hname⟩ := List.mem_flatMap.mp h
  obtain ⟨part, hpart, hplaceholder⟩ := List.mem_filterMap.mp hp
  obtain ⟨before, after, rfl⟩ := List.append_of_mem hpart
  have hprint : part.print = '\x7b' :: (name.toList ++ p.printRest) := by
    cases part with
    | char c plain => cases hplaceholder
    | openingBrace => cases hplaceholder
    | closingBrace => cases hplaceholder
    | placeholder q =>
      injection hplaceholder with hplaceholder
      rw [hplaceholder]
      exact Placeholder.print_of_mem_shown hname
  -- What is printed before the placeholder is only more in front of its brace.
  have htext : front ++ Template.print (before ++ part :: after) ++ back =
      (front ++ print before) ++
        '\x7b' :: (name.toList ++ (p.printRest ++ (print after ++ back))) := by
    rw [print_append_cons, hprint]
    simp
  rw [htext]
  exact mem_captures_of_name _ ascii (p.head_printRest _)

end Template

end CoverageReplay
