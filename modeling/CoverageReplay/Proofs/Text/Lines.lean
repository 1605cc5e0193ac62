import CoverageReplay.Proofs.Text
import Mathlib.Data.List.Basic
import Mathlib.Data.List.TakeWhile

/-!
# Blanks, words and lines

What is blank at the ends of a text does not count (`trim_gaps`), a text falls into the words
between its blanks (`words_word`, `gap_or_word`), and what a line without the blanks at its ends
says does not depend on how its end is written: the trimmed lines are the trimmed pieces between
line feeds (`trim_lines`).
-/

namespace CoverageReplay.Text

variable {c sep : Char} {cs front back before after gap word rest : List Char}

/-! ## Blanks at the ends -/

/-- Whether a stretch of text is blank. -/
def IsGap (cs : List Char) : Prop := ∀ c ∈ cs, isBlank c

@[simp] theorem isGap_nil : IsGap [] := fun _ h => nomatch h

@[simp] theorem isGap_cons : IsGap (c :: cs) ↔ isBlank c ∧ IsGap cs := List.forall_mem_cons

@[simp] theorem isGap_append : IsGap (front ++ back) ↔ IsGap front ∧ IsGap back :=
  List.forall_mem_append

theorem isGap_reverse : IsGap cs.reverse ↔ IsGap cs := by
  unfold IsGap
  simp only [List.mem_reverse]

/-- Whether no blank stands in front of a text. -/
def StartsSolid (cs : List Char) : Prop := ∀ c ∈ cs.head?, isBlank c = false

/-- A gap in front is dropped with the blanks that follow it. -/
theorem dropWhile_gap (h : IsGap gap) (cs : List Char) :
    (gap ++ cs).dropWhile isBlank = cs.dropWhile isBlank := by
  induction gap with
  | nil => rfl
  | cons c gap ih =>
    rw [isGap_cons] at h
    rw [List.cons_append, List.dropWhile_cons_of_pos h.1, ih h.2]

/-- Nothing is dropped from a text that begins with something. -/
theorem dropWhile_of_startsSolid (h : StartsSolid cs) : cs.dropWhile isBlank = cs := by
  cases cs with
  | nil => rfl
  | cons c cs =>
    have hc : isBlank c = false := h c rfl
    rw [List.dropWhile_cons_of_neg (by rw [hc]; exact Bool.false_ne_true)]

/-- What is left after the first blanks begins with something. -/
theorem startsSolid_dropWhile (cs : List Char) : StartsSolid (cs.dropWhile isBlank) := by
  intro c hc
  obtain ⟨rest, hrest⟩ := List.head?_eq_some_iff.mp hc
  have hsome : cs.dropWhile isBlank ≠ [] := by
    rw [hrest]
    exact List.cons_ne_nil _ _
  have hhead := List.head_dropWhile_not isBlank hsome
  simpa only [hrest, List.head_cons] using hhead

theorem isGap_takeWhile (cs : List Char) : IsGap (cs.takeWhile isBlank) :=
  fun _ hc => List.mem_takeWhile_imp hc

/-- Blanks at the ends of a text do not count. -/
theorem trim_gaps (hfront : IsGap front) (hback : IsGap back) (cs : List Char) :
    trim (front ++ cs ++ back) = trim cs := by
  unfold trim trimEnd
  rw [List.append_assoc, dropWhile_gap hfront]
  by_cases hcs : IsGap cs
  · have hall : (cs ++ back).dropWhile isBlank = [] :=
      List.dropWhile_eq_nil_iff.mpr (isGap_append.mpr ⟨hcs, hback⟩)
    rw [hall, List.dropWhile_eq_nil_iff.mpr hcs]
  · -- What is left of the text after its first blanks is not empty, so the blanks behind it stay
    -- at the end.
    have hsome : ¬ cs.dropWhile isBlank = [] := fun hnil => hcs (List.dropWhile_eq_nil_iff.mp hnil)
    have hdrop : (cs ++ back).dropWhile isBlank = cs.dropWhile isBlank ++ back := by
      rw [List.dropWhile_append, if_neg (by rwa [List.isEmpty_iff])]
    rw [hdrop, List.reverse_append, dropWhile_gap (isGap_reverse.mpr hback)]

/-- A text without blanks at its ends is left alone. -/
theorem trim_of_solid (hstart : StartsSolid cs) (hend : StartsSolid cs.reverse) : trim cs = cs := by
  unfold trim trimEnd
  rw [dropWhile_of_startsSolid hstart, dropWhile_of_startsSolid hend, List.reverse_reverse]

theorem exists_gap_trimEnd (cs : List Char) : ∃ back, IsGap back ∧ cs = trimEnd cs ++ back := by
  refine ⟨(cs.reverse.takeWhile isBlank).reverse, isGap_reverse.mpr (isGap_takeWhile _), ?_⟩
  rw [trimEnd, ← List.reverse_append, List.takeWhile_append_dropWhile, List.reverse_reverse]

/-- Only what stands behind a sign that is not blank can be lost at the end. -/
theorem trimEnd_append_cons (h : isBlank c = false) (front back : List Char) :
    trimEnd (front ++ c :: back) = front ++ c :: trimEnd back := by
  have hc : (c :: front.reverse).dropWhile isBlank = c :: front.reverse :=
    List.dropWhile_cons_of_neg (by rw [h]; exact Bool.false_ne_true)
  have hreverse : (front ++ c :: back).reverse = back.reverse ++ c :: front.reverse := by simp
  unfold trimEnd
  rw [hreverse, List.dropWhile_append]
  split
  next hnil =>
    rw [List.isEmpty_iff] at hnil
    rw [hc, hnil]
    simp
  next => simp

/-- A text is what is left of it with blanks around. -/
theorem exists_gaps_trim (cs : List Char) :
    ∃ front back, IsGap front ∧ IsGap back ∧ cs = front ++ trim cs ++ back := by
  obtain ⟨back, hback, hrest⟩ := exists_gap_trimEnd (cs.dropWhile isBlank)
  refine ⟨cs.takeWhile isBlank, back, isGap_takeWhile cs, hback, ?_⟩
  rw [List.append_assoc, trim, ← hrest, List.takeWhile_append_dropWhile]

/-- Nothing is left of a text exactly if it is a gap. -/
theorem trim_eq_nil_iff : trim cs = [] ↔ IsGap cs := by
  constructor
  · intro hnil
    obtain ⟨front, back, hfront, hback, hcs⟩ := exists_gaps_trim cs
    rw [hcs, hnil, List.append_nil]
    exact isGap_append.mpr ⟨hfront, hback⟩
  · intro hgap
    have h := trim_gaps hgap isGap_nil []
    rwa [List.append_nil, List.append_nil] at h

/-- What is left of a text begins with something. -/
theorem startsSolid_trim (cs : List Char) : StartsSolid (trim cs) := by
  intro c hc
  obtain ⟨back, _, hrest⟩ := exists_gap_trimEnd (cs.dropWhile isBlank)
  refine startsSolid_dropWhile cs c ?_
  rw [hrest]
  exact List.mem_head?_append_of_mem_head? hc

/-! ## Words -/

/-- Whether a text is one word. -/
structure IsWord (word : List Char) : Prop where
  nonempty : word ≠ []
  solid : ∀ c ∈ word, isBlank c = false

/-- Whether a word in front of a text ends there. -/
def EndsWord (rest : List Char) : Prop := ∀ c ∈ rest.head?, isBlank c

/-- Characters of a word are gathered, the last one first. -/
theorem wordsFrom_solid (h : ∀ c ∈ word, isBlank c = false) (read rest : List Char) :
    wordsFrom read (word ++ rest) = wordsFrom (word.reverse ++ read) rest := by
  induction word generalizing read with
  | nil => rfl
  | cons c word ih =>
    rw [List.forall_mem_cons] at h
    rw [List.cons_append, wordsFrom, if_neg (by rw [h.1]; exact Bool.false_ne_true), ih h.2,
      List.reverse_cons, List.append_assoc, List.singleton_append]

/-- A gap in front makes no word. -/
theorem words_gap (h : IsGap gap) (rest : List Char) : words (gap ++ rest) = words rest := by
  induction gap with
  | nil => rfl
  | cons c gap ih =>
    rw [isGap_cons] at h
    rw [List.cons_append, words, wordsFrom, if_pos h.1]
    exact ih h.2

theorem words_of_isGap (h : IsGap gap) : words gap = [] := by
  have hnil := words_gap h []
  rwa [List.append_nil] at hnil

/-- The first word of a text stands between blanks. -/
theorem words_word (hgap : IsGap gap) (hword : IsWord word) (hrest : EndsWord rest) :
    words (gap ++ word ++ rest) = word :: words rest := by
  have hread : word.reverse.isEmpty = false := by
    rw [List.isEmpty_eq_false_iff, Ne, List.reverse_eq_nil_iff]
    exact hword.nonempty
  rw [List.append_assoc, words_gap hgap, words, wordsFrom_solid hword.solid, List.append_nil]
  cases rest with
  | nil => rw [wordsFrom, hread, if_neg Bool.false_ne_true, List.reverse_reverse]; rfl
  | cons c rest =>
    have hblank : isBlank c := hrest c rfl
    rw [wordsFrom, if_pos hblank, hread, if_neg Bool.false_ne_true, List.reverse_reverse,
      words, wordsFrom, if_pos hblank, if_pos List.isEmpty_nil]

/-- A text is blank or has a first word. -/
theorem gap_or_word (cs : List Char) : IsGap cs ∨
    ∃ gap word rest, cs = gap ++ word ++ rest ∧ IsGap gap ∧ IsWord word ∧ EndsWord rest := by
  by_cases hgap : IsGap cs
  · exact Or.inl hgap
  · right
    have hsolid (c : Char) : (!isBlank c) = true ↔ isBlank c = false := by rw [Bool.not_eq_true']
    refine ⟨cs.takeWhile isBlank, (cs.dropWhile isBlank).takeWhile (!isBlank ·),
      (cs.dropWhile isBlank).dropWhile (!isBlank ·), ?_, isGap_takeWhile cs, ⟨?_, ?_⟩, ?_⟩
    · rw [List.append_assoc, List.takeWhile_append_dropWhile, List.takeWhile_append_dropWhile]
    · -- After the blanks comes a character that is none.
      have hsome : cs.dropWhile isBlank ≠ [] := fun hnil => hgap (List.dropWhile_eq_nil_iff.mp hnil)
      obtain ⟨c, rest, hrest⟩ := List.exists_cons_of_ne_nil hsome
      have hc := startsSolid_dropWhile cs c (by rw [hrest]; rfl)
      rw [hrest, List.takeWhile_cons_of_pos (p := (!isBlank ·)) ((hsolid c).mpr hc)]
      exact List.cons_ne_nil _ _
    · intro c hc
      exact (hsolid c).mp (List.mem_takeWhile_imp (p := (!isBlank ·)) hc)
    · intro c hc
      obtain ⟨rest, hrest⟩ := List.head?_eq_some_iff.mp hc
      have hsome : (cs.dropWhile isBlank).dropWhile (!isBlank ·) ≠ [] := by
        rw [hrest]
        exact List.cons_ne_nil _ _
      have hhead := List.head_dropWhile_not (!isBlank ·) hsome
      simp only [hrest, List.head_cons, Bool.not_eq_false'] at hhead
      exact hhead

/-- Words one after the other, with blanks between them and maybe around. -/
inductive Spaced : List (List Char) → List Char → Prop
  | nil {gap : List Char} : IsGap gap → Spaced [] gap
  | cons {gap word rest : List Char} {ws : List (List Char)} : IsGap gap → IsWord word →
    EndsWord rest →
      Spaced ws rest → Spaced (word :: ws) (gap ++ word ++ rest)

/-- The words of a text are what it has between its blanks. -/
theorem words_eq_iff {ws : List (List Char)} : words cs = ws ↔ Spaced ws cs := by
  constructor
  · rintro rfl
    -- The induction is on the length, since what is left behind a word is shorter than the text.
    induction hlength : cs.length using Nat.strong_induction_on generalizing cs with
    | _ length ih =>
      rcases gap_or_word cs with hgap | ⟨gap, word, rest, rfl, hgap, hword, hrest⟩
      · rw [words_of_isGap hgap]
        exact .nil hgap
      · rw [words_word hgap hword hrest]
        have hpos := List.length_pos_iff.mpr hword.nonempty
        have hshorter : rest.length < length := by
          rw [← hlength, List.length_append, List.length_append]
          omega
        exact .cons hgap hword hrest (ih rest.length hshorter rfl)
  · intro h
    induction h with
    | nil hgap => exact words_of_isGap hgap
    | cons hgap hword hrest _ ih => rw [words_word hgap hword hrest, ih]

/-- Words with blanks around them may have more blanks behind them. -/
theorem Spaced.append_gap {ws : List (List Char)} (h : Spaced ws cs) (hgap : IsGap gap) :
    Spaced ws (cs ++ gap) := by
  induction h with
  | nil hfirst => exact .nil (isGap_append.mpr ⟨hfirst, hgap⟩)
  | cons hfirst hword hrest _ ih =>
    rw [List.append_assoc]
    refine .cons hfirst hword ?_ ih
    intro c hc
    rw [List.head?_append, Option.mem_def, Option.or_eq_some_iff] at hc
    rcases hc with hc | ⟨_, hc⟩
    · exact hrest c hc
    · exact hgap c (List.mem_of_mem_head? hc)

/-- Each character of a line is blank or stands in one of its words. -/
theorem Spaced.mem {ws : List (List Char)} (h : Spaced ws cs) (hc : c ∈ cs) :
    isBlank c ∨ ∃ w ∈ ws, c ∈ w := by
  induction h with
  | nil hgap => exact Or.inl (hgap c hc)
  | cons hgap _ _ _ ih =>
    rcases List.mem_append.mp hc with hc | hc
    · rcases List.mem_append.mp hc with hc | hc
      · exact Or.inl (hgap c hc)
      · exact Or.inr ⟨_, List.mem_cons_self, hc⟩
    · exact (ih hc).imp_right fun ⟨w, hw, hc⟩ => ⟨w, List.mem_cons_of_mem _ hw, hc⟩

theorem words_append_gap (h : IsGap gap) (cs : List Char) : words (cs ++ gap) = words cs :=
  words_eq_iff.mpr ((words_eq_iff.mp rfl).append_gap h)

/-! ## Signs that divide -/

/-- A text is split at the first separator, if it has one. -/
theorem splitFirst_eq_some_iff :
    splitFirst sep cs = some (before, after) ↔ cs = before ++ sep :: after ∧ sep ∉ before := by
  constructor
  · intro h
    refine ⟨eq_of_splitFirst h, ?_⟩
    induction cs generalizing before with
    | nil => cases h
    | cons c cs ih =>
      rw [splitFirst] at h
      split at h
      next =>
        cases h
        exact List.not_mem_nil
      next hne =>
        obtain ⟨⟨before', after'⟩, hrest, heq⟩ := Option.map_eq_some_iff.mp h
        cases heq
        rw [List.mem_cons, not_or]
        exact ⟨Ne.symm hne, ih hrest⟩
  · rintro ⟨rfl, hbefore⟩
    exact splitFirst_append hbefore

/-- A text is split at the last separator, if it has one. -/
theorem splitLast_eq_some_iff :
    splitLast sep cs = some (before, after) ↔ cs = before ++ sep :: after ∧ sep ∉ after := by
  unfold splitLast
  rw [Option.map_eq_some_iff]
  constructor
  · rintro ⟨⟨after', before'⟩, hsplit, heq⟩
    obtain ⟨hcs, hafter⟩ := splitFirst_eq_some_iff.mp hsplit
    cases heq
    refine ⟨?_, by rwa [List.mem_reverse]⟩
    rw [← List.reverse_inj, hcs]
    simp
  · rintro ⟨rfl, hafter⟩
    refine ⟨(after.reverse, before.reverse), splitFirst_eq_some_iff.mpr ⟨?_, ?_⟩, ?_⟩
    · simp
    · rwa [List.mem_reverse]
    · simp

/-- A text is what it starts with, and the rest. -/
theorem afterStart_eq_some_iff {start : List Char} :
    afterStart start cs = some rest ↔ cs = start ++ rest := by
  induction start generalizing cs with
  | nil =>
    rw [afterStart, List.nil_append, Option.some.injEq]
  | cons s start ih =>
    cases cs with
    | nil => exact ⟨nofun, nofun⟩
    | cons c cs =>
      rw [afterStart, List.cons_append, List.cons.injEq]
      by_cases hs : s = c
      · rw [if_pos hs, ih, hs, eq_self, true_and]
      · rw [if_neg hs]
        exact ⟨nofun, fun h => absurd h.1.symm hs⟩

/-! ## Lines -/

/-- Without the blanks at their ends, the lines of a text are the pieces between its line feeds.
Only the empty piece behind the last feed is no line. -/
theorem trim_lines (cs : List Char) : ∃ last, (∀ line ∈ last, line = []) ∧
    (cs.splitOn '\n').map trim = (lines cs).map trim ++ last := by
  -- The induction is on what is still to be read; `read` holds the current line, last character
  -- first.
  have hfrom (read cs : List Char) (hread : '\n' ∉ read) : ∃ last, (∀ line ∈ last, line = []) ∧
      ((read.reverse ++ cs).splitOn '\n').map trim = (linesFrom read cs).map trim ++ last := by
    induction cs generalizing read with
    | nil =>
      rw [List.append_nil, List.splitOn_eq_singleton (by rwa [List.mem_reverse]), linesFrom]
      cases read with
      | nil => exact ⟨[[]], by simp, by simp [trim, trimEnd]⟩
      | cons c read => exact ⟨[], by simp, by simp⟩
    | cons c cs ih =>
      by_cases hc : c = '\n'
      · subst hc
        obtain ⟨last, hlast, hrest⟩ := ih [] List.not_mem_nil
        rw [List.splitOn_append_cons_self_of_not_mem (by rwa [List.mem_reverse])]
        unfold linesFrom
        rw [if_pos rfl]
        refine ⟨last, hlast, ?_⟩
        rw [List.reverse_nil, List.nil_append] at hrest
        rw [List.map_cons, List.map_cons, hrest, List.cons_append]
        congr 1
        -- A carriage return at the end of the line is blank.
        split
        next before =>
          have hreturn : IsGap ['\r'] := by simp [IsGap, isBlank]
          rw [List.reverse_cons]
          exact trim_gaps isGap_nil hreturn before.reverse
        next => rfl
      · have hread' : '\n' ∉ c :: read := by
          rw [List.mem_cons, not_or]
          exact ⟨Ne.symm hc, hread⟩
        have hnext := ih (c :: read) hread'
        rw [List.reverse_cons, List.append_assoc, List.singleton_append] at hnext
        unfold linesFrom
        rwa [if_neg hc]
  exact hfrom [] cs List.not_mem_nil

end CoverageReplay.Text
