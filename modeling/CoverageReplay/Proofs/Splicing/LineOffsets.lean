import CoverageReplay.Proofs.Splicing.Places
import CoverageReplay.Proofs.Splicing.Slices

/-!
# The line index on all lines and columns

The byte that a line index answers is where a first part of the text ends: the lines before, and of
the line itself as many characters as the column says, or all of them (`LineIndex.textBefore`,
`offset_eq_byteSize`). A greater line or column gives a longer part, so the answers never decrease,
and they never leave the text. On the lines and columns that the text has, the index takes every
boundary of characters back to itself (`LineIndex.offset_exact`).
-/

namespace CoverageReplay

open Rust

/-! ## First parts of a text -/

/-- A first part of a text has no more bytes than the text. -/
theorem byteSize_le_of_isPrefix {front cs : List Char} (h : front <+: cs) :
    byteSize front ≤ byteSize cs := by
  obtain ⟨back, rfl⟩ := h
  rw [byteSize_append]
  exact Nat.le_add_right _ _

theorem isBoundary_of_isPrefix {front cs : List Char} (h : front <+: cs) :
    isBoundary cs (byteSize front) := by
  obtain ⟨back, rfl⟩ := h
  exact isBoundary_byteSize front back

/-- The characters of a text behind its last line feed. -/
def lastLine (cs : List Char) : List Char :=
  (cs.reverse.takeWhile (· ≠ '\n')).reverse

/-- The place behind some characters: a line for each line feed, and the characters behind the last
one. -/
theorem Rust.Place.advance_origin (front : List Char) :
    Place.origin.advance front = ⟨1 + front.count '\n', (lastLine front).length⟩ := by
  -- By induction on the characters from the last one on, each of which is one step.
  have hback (back : List Char) :
      Place.origin.advance back.reverse =
        ⟨1 + back.count '\n', (back.takeWhile (· ≠ '\n')).length⟩ := by
    induction back with
    | nil => rfl
    | cons c back ih =>
      rw [List.reverse_cons, Place.advance_append, ih, Place.advance_cons,
        Place.advance_nil, Place.step]
      by_cases hc : c = '\n'
      · simp [hc, Nat.add_assoc]
      · simp [hc]
  have hfront := hback front.reverse
  rwa [List.reverse_reverse, List.count_reverse, ← List.length_reverse] at hfront

namespace LineIndex

/-! ## Lines -/

/-- The lines hold all characters of the text. -/
theorem flatten_splitLines (line cs : List Char) :
    (splitLines line cs).flatten = line.reverse ++ cs := by
  induction cs generalizing line with
  | nil => simp [splitLines]
  | cons c cs ih =>
    rw [splitLines]
    split
    · rw [List.flatten_cons, ih, List.reverse_nil, List.nil_append, List.reverse_cons,
        List.append_assoc, List.singleton_append]
    · rw [ih, List.reverse_cons, List.append_assoc, List.singleton_append]

/-- A line starts behind all lines before it. -/
theorem getElem?_place (start : Nat) (lines : List (List Char)) (number : Nat) :
    (place start lines)[number]? =
      lines[number]?.map fun line => (start + byteSize (lines.take number).flatten, line) := by
  induction lines generalizing start number with
  | nil => rfl
  | cons line rest ih =>
    rw [place]
    cases number with
    | zero => rfl
    | succ number =>
      rw [List.getElem?_cons_succ, List.getElem?_cons_succ, ih, List.take_succ_cons,
        List.flatten_cons, byteSize_append, Nat.add_assoc]

/-- What stands before a line, counted from zero, and a column: the whole line when the column is
past its end, the whole text when there is no such line. -/
def textBefore (lines : List (List Char)) (number column : Nat) : List Char :=
  (lines.take number).flatten ++ (lines[number]?.getD []).take column

section TextBefore

variable (lines : List (List Char)) (number column : Nat)

/-- Before a column stand the lines before, and nothing of the lines after. -/
theorem textBefore_isPrefix_take :
    textBefore lines number column <+: (lines.take (number + 1)).flatten := by
  rw [textBefore, List.take_add_one, List.flatten_append]
  refine (List.prefix_append_right_inj _).mpr ?_
  cases lines[number]? with
  | none => simp
  | some line => simpa using List.take_prefix column line

/-- The text before a place is a first part of the whole. -/
theorem textBefore_isPrefix : textBefore lines number column <+: lines.flatten := by
  refine (textBefore_isPrefix_take lines number column).trans ?_
  conv_rhs => rw [← List.take_append_drop (number + 1) lines]
  rw [List.flatten_append]
  exact List.prefix_append _ _

/-- More stands before a later place. -/
theorem textBefore_mono {number' column' : Nat}
    (later : number < number' ∨ number = number' ∧ column ≤ column') :
    textBefore lines number column <+: textBefore lines number' column' := by
  rcases later with hline | ⟨rfl, hcolumn⟩
  · have hlines : lines.take (number + 1) <+: lines.take number' := List.take_prefix_take_left hline
    obtain ⟨between, hbetween⟩ := hlines
    refine (textBefore_isPrefix_take lines number column).trans ?_
    rw [textBefore, ← hbetween, List.flatten_append, List.append_assoc]
    exact List.prefix_append _ _
  · exact (List.prefix_append_right_inj _).mpr (List.take_prefix_take_left hcolumn)

end TextBefore

/-! ## Offsets -/

/-- The byte of a line and a column is where the part of the text before them ends. -/
theorem offset_eq_byteSize (cs : List Char) (number column : Nat) :
    (ofText cs).offset (number + 1) column =
      byteSize (textBefore (splitLines [] cs) number column) := by
  rw [offset, ofText, List.getElem?_toArray, getElem?_place, textBefore, byteSize_append]
  cases hline : (splitLines [] cs)[number]? with
  | some line => simp
  | none =>
    have hall : (splitLines [] cs).take number = splitLines [] cs :=
      List.take_of_length_le (List.getElem?_eq_none_iff.mp hline)
    rw [hall, flatten_splitLines]
    simp

/-- **Bytes of lines and columns.** Every boundary of characters of a text, its end included, lies
where the index says for its line and column: one line for each line feed before it, one column for
each character behind the last of them. For every line from one on and every column, the index
answers a boundary that is not beyond the end of the text, and never a smaller one for a later line
or, in the same line, for a greater column. -/
theorem offset_exact (cs : List Char) :
    (∀ i, isBoundary cs i → ∃ front back, cs = front ++ back ∧ byteSize front = i ∧
      (ofText cs).offset (1 + front.count '\n') (lastLine front).length = i) ∧
    (∀ line column, 1 ≤ line →
      isBoundary cs ((ofText cs).offset line column) ∧
        (ofText cs).offset line column ≤ byteSize cs) ∧
    ∀ line column line' column', 1 ≤ line → (line < line' ∨ line = line' ∧ column ≤ column') →
      (ofText cs).offset line column ≤ (ofText cs).offset line' column' := by
  refine ⟨fun i boundary => ?_, fun line column hline =>
    ?_, fun line column line' column' hline later => ?_⟩
  · obtain ⟨front, back, rfl, rfl⟩ := isBoundary_iff_append.mp boundary
    have hoffset := offset_advance front back
    rw [Place.advance_origin] at hoffset
    exact ⟨front, back, rfl, rfl, hoffset⟩
  · obtain ⟨number, rfl⟩ := Nat.exists_eq_add_of_le' hline
    have hbefore := textBefore_isPrefix (splitLines [] cs) number column
    rw [flatten_splitLines, List.reverse_nil, List.nil_append] at hbefore
    rw [offset_eq_byteSize]
    exact ⟨isBoundary_of_isPrefix hbefore, byteSize_le_of_isPrefix hbefore⟩
  · obtain ⟨number, rfl⟩ := Nat.exists_eq_add_of_le' hline
    obtain ⟨number', rfl⟩ := Nat.exists_eq_add_of_le' (m := 1) (n := line') (by omega)
    rw [offset_eq_byteSize, offset_eq_byteSize]
    exact byteSize_le_of_isPrefix (textBefore_mono _ _ _ (by omega))

/-- A text with characters of one to four bytes, an empty line and a last line without a line
feed. -/
def wideLines : List Char :=
  "ab\ncdé\r\n\n€😀x".toList

theorem offset_exact_wideLines :
    isBoundary wideLines 17 ∧ (ofText wideLines).offset 4 2 = 17 ∧
      (ofText wideLines).offset 2 100 = 9 ∧
      (ofText wideLines).offset 2 100 ≤ (ofText wideLines).offset 3 0 ∧
      isBoundary wideLines ((ofText wideLines).offset 9 7) ∧
      (∃ front back, wideLines = front ++ back ∧ byteSize front = 17 ∧
        (ofText wideLines).offset (1 + front.count '\n') (lastLine front).length = 17) := by
  have hboundary : isBoundary wideLines 17 := by decide +kernel
  obtain ⟨hexact, hinside, hmono⟩ := offset_exact wideLines
  exact ⟨hboundary, by decide +kernel, by decide +kernel, hmono 2 100 3 0 (by decide) (by decide),
    (hinside 9 7 (by decide)).1, hexact 17 hboundary⟩

end LineIndex

end CoverageReplay
