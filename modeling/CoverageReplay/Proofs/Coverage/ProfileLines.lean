import CoverageReplay.Coverage.ProfileText
import CoverageReplay.Proofs.Except
import CoverageReplay.Proofs.Text.Lines

/-!
# Which texts are profiles

The lines of a profile text are described here by what they are put together from: `NumberText`,
`PositionText` and `RangeText` for the fields, `BlockLine` and `HeaderLine` for the lines,
`ProfileLines` for all lines together. Each reader accepts what is put together so and nothing else
(`word32?_eq_some_iff` up to `parseHeader?_eq_ok_iff`), and lines are either in order or have a
first one that is not (`blockLines_or_fault`). From both follows what becomes of a text
(`Profile.parse?_decides`).
-/

namespace CoverageReplay

open Text

/-! ## Numbers, positions and ranges -/

/-- Whether a text consists of the digits of a number, with zeros in front or not. -/
structure IsDigits (n : Nat) (cs : List Char) : Prop where
  nonempty : cs ≠ []
  digit : ∀ c ∈ cs, c.isDigit
  value : Nat.ofDigitChars 10 cs 0 = n

/-- A number with a plus sign in front or without. -/
inductive NumberText (n : UInt32) : List Char → Prop
  | plain {cs : List Char} : IsDigits n.toNat cs → NumberText n cs
  | signed {cs : List Char} : IsDigits n.toNat cs → NumberText n ('+' :: cs)

/-- A line and a column, both from one on, with a dot between them. -/
inductive PositionText (p : Position) : List Char → Prop
  | mk {line column : List Char} : NumberText p.line line → NumberText p.column column →
    p.line ≠ 0 →
      p.column ≠ 0 → PositionText p (line ++ '.' :: column)

/-- Two positions with a comma between them, the second not before the first. -/
inductive RangeText (r : SourceRange) : List Char → Prop
  | mk {start stop : List Char} : PositionText r.start start → PositionText r.stop stop →
    r.start ≤ r.stop →
      RangeText r (start ++ ',' :: stop)

section Fields

variable {n : UInt32} {p : Position} {r : SourceRange} {c : Char} {cs : List Char} {role : String}

/-- What is read as a digit is one. -/
theorem isDigit_of_digit?_isSome (h : (digit? c).isSome) : c.isDigit := by
  unfold digit? at h
  split at h
  next hbounds =>
    simp only [Char.isDigit, Bool.and_eq_true, decide_eq_true_eq]
    exact hbounds
  next => cases h

/-- What is read as a number consists of digits. -/
theorem isDigit_of_digitsFrom? {start m : Nat} (h : digitsFrom? start cs = some m) :
    ∀ c ∈ cs, c.isDigit := by
  induction cs generalizing start with
  | nil => exact fun c hc => nomatch hc
  | cons c cs ih =>
    rw [digitsFrom?] at h
    obtain ⟨d, hd, hrest⟩ := Option.bind_eq_some_iff.mp h
    rw [List.forall_mem_cons]
    exact ⟨isDigit_of_digit?_isSome (Option.isSome_of_eq_some hd), ih hrest⟩

/-- Digits are read as the number that they spell, and nothing else is read. -/
theorem digits?_eq_some_iff {m : Nat} : digits? cs = some m ↔ IsDigits m cs := by
  unfold digits?
  constructor
  · intro h
    split at h
    next => cases h
    next hsome =>
      have hdigit := isDigit_of_digitsFrom? h
      rw [digitsFrom?_eq hdigit] at h
      exact ⟨fun hnil => hsome (List.isEmpty_iff.mpr hnil), hdigit, Option.some.inj h⟩
  · intro h
    have hsome : cs.isEmpty = false := List.isEmpty_eq_false_iff.mpr h.nonempty
    rw [hsome, if_neg Bool.false_ne_true, digitsFrom?_eq h.digit, h.value]

/-- A number up to a bound is read from its digits, which a plus sign may precede. -/
theorem number?_eq_some_iff {bound m : Nat} :
    number? bound cs = some m ↔
      m ≤ bound ∧ (IsDigits m cs ∨ ∃ digits, cs = '+' :: digits ∧ IsDigits m digits) := by
  have hbound (digits : List Char) :
    ((digits? digits).bind fun k => if k ≤ bound then some k else none) =
      some m ↔ m ≤ bound ∧ IsDigits m digits := by
    rw [Option.bind_eq_some_iff]
    constructor
    · rintro ⟨k, hk, h⟩
      split at h
      next hle =>
        cases h
        exact ⟨hle, digits?_eq_some_iff.mp hk⟩
      next => cases h
    · rintro ⟨hle, hdigits⟩
      exact ⟨m, digits?_eq_some_iff.mpr hdigits, if_pos hle⟩
  unfold number?
  dsimp only
  split
  next digits =>
    -- The sign is no digit.
    have hplus : ¬ IsDigits m ('+' :: digits) :=
      fun h => absurd (h.digit '+' List.mem_cons_self) (by decide)
    rw [hbound, or_iff_right hplus]
    simp
  next hplain =>
    rw [hbound, or_iff_left]
    rintro ⟨digits, rfl, _⟩
    exact hplain digits rfl

/-- The numbers of 32 bits that are read are those that are written. -/
theorem word32?_eq_some_iff : word32? cs = some n ↔ NumberText n cs := by
  have hlt := n.toNat_lt
  unfold word32?
  rw [Option.map_eq_some_iff]
  constructor
  · rintro ⟨m, hm, rfl⟩
    obtain ⟨hle, htext⟩ := number?_eq_some_iff.mp hm
    have hvalue : (UInt32.ofNat m).toNat = m :=
      UInt32.toNat_ofNat_of_lt' (by simp only [UInt32.size]; omega)
    rcases htext with h | ⟨digits, rfl, h⟩
    · exact .plain (by rwa [hvalue])
    · exact .signed (by rwa [hvalue])
  · intro h
    refine ⟨n.toNat, number?_eq_some_iff.mpr ⟨by omega, ?_⟩, UInt32.ofNat_toNat⟩
    cases h with
    | plain h => exact Or.inl h
    | signed h => exact Or.inr ⟨_, rfl, h⟩

/-- A field is read as a number exactly if it is there and spells one. -/
theorem parseNumber?_eq_ok_iff {field : Option (List Char)} :
    Profile.parseNumber? role field = .ok n ↔ ∃ cs, field = some cs ∧ NumberText n cs := by
  unfold Profile.parseNumber?
  cases field with
  | none => exact ⟨nofun, nofun⟩
  | some cs =>
    dsimp only
    simp only [Option.some.injEq, exists_eq_left', ← word32?_eq_some_iff]
    cases word32? cs with
    | none => exact ⟨nofun, nofun⟩
    | some m => simp

/-! The signs that fields are put together from are not blank, and the colon is none of them. -/

/-- Whether a character is one that fields are put together from. -/
def IsFieldSign (c : Char) : Prop := c.isDigit ∨ c ∈ ['+', '.', ',']

/-- A digit is not blank. -/
theorem isBlank_of_isDigit (h : c.isDigit) : isBlank c = false := by
  have hbounds : '0'.toNat ≤ c.toNat ∧ c.toNat ≤ '9'.toNat := by
    simp only [Char.isDigit, Bool.and_eq_true, decide_eq_true_eq] at h
    exact h
  have hzero : '0'.toNat = 48 := rfl
  have hnine : '9'.toNat = 57 := rfl
  simp only [isBlank, Bool.or_eq_false_iff, Bool.and_eq_false_iff, decide_eq_false_iff_not,
    beq_eq_false_iff_ne]
  omega

/-- Nothing that can stand in a field is blank. -/
theorem isBlank_of_isFieldSign (h : IsFieldSign c) : isBlank c = false := by
  rcases h with hdigit | hsign
  · exact isBlank_of_isDigit hdigit
  · simp only [List.mem_cons, List.not_mem_nil, or_false] at hsign
    rcases hsign with rfl | rfl | rfl
    · rfl
    · rfl
    · rfl

/-- No colon can stand in a field. -/
theorem ne_colon_of_isFieldSign (h : IsFieldSign c) : c ≠ ':' := by
  rintro rfl
  revert h
  unfold IsFieldSign
  decide

/-- A number is written with digits and a plus sign. -/
theorem NumberText.sign (h : NumberText n cs) : ∀ c ∈ cs, c.isDigit ∨ c = '+' := by
  cases h with
  | plain h => exact fun c hc => Or.inl (h.digit c hc)
  | signed h => exact List.forall_mem_cons.mpr ⟨Or.inr rfl, fun c hc => Or.inl (h.digit c hc)⟩

/-- A number takes at least one character. -/
theorem NumberText.nonempty (h : NumberText n cs) : cs ≠ [] := by
  cases h with
  | plain h => exact h.nonempty
  | signed _ => exact List.cons_ne_nil _ _

/-- A number has no sign that stands between numbers. -/
theorem NumberText.not_mem (h : NumberText n cs) (hdigit : c.isDigit = false) (hplus : c ≠ '+') :
    c ∉ cs := by
  intro hc
  rcases h.sign c hc with h' | h'
  · rw [hdigit] at h'
    cases h'
  · exact hplus h'

/-- A number is written with what can stand in a field. -/
theorem NumberText.isFieldSign (h : NumberText n cs) : ∀ c ∈ cs, IsFieldSign c := by
  intro c hc
  rcases h.sign c hc with hdigit | rfl
  · exact Or.inl hdigit
  · exact Or.inr List.mem_cons_self

/-- A position is written with digits, plus signs and a full stop. -/
theorem PositionText.sign (h : PositionText p cs) : ∀ c ∈ cs, c.isDigit ∨ c = '+' ∨ c = '.' := by
  obtain ⟨hline, hcolumn, _, _⟩ := h
  intro c hc
  rcases List.mem_append.mp hc with hc | hc
  · exact (hline.sign c hc).imp_right Or.inl
  · rcases List.mem_cons.mp hc with rfl | hc
    · exact Or.inr (Or.inr rfl)
    · exact (hcolumn.sign c hc).imp_right Or.inl

/-- A range is written with what can stand in a field. -/
theorem RangeText.isFieldSign (h : RangeText r cs) : ∀ c ∈ cs, IsFieldSign c := by
  obtain ⟨hstart, hstop, _⟩ := h
  have hposition {p : Position} {cs : List Char} (h : PositionText p cs) :
      ∀ c ∈ cs, IsFieldSign c := by
    intro c hc
    rcases h.sign c hc with hdigit | rfl | rfl
    · exact Or.inl hdigit
    · exact Or.inr (by decide)
    · exact Or.inr (by decide)
  intro c hc
  rcases List.mem_append.mp hc with hc | hc
  · exact hposition hstart c hc
  · rcases List.mem_cons.mp hc with rfl | hc
    · exact Or.inr (by decide)
    · exact hposition hstop c hc

/-- A text is read as a position exactly if it spells it. -/
theorem parsePosition?_eq_ok_iff : Profile.parsePosition? cs = .ok p ↔ PositionText p cs := by
  unfold Profile.parsePosition?
  constructor
  · intro h
    split at h
    next => cases h
    next line column hsplit =>
      obtain ⟨rfl, _⟩ := splitFirst_eq_some_iff.mp hsplit
      obtain ⟨l, hline, h⟩ := bind_eq_ok_iff.mp h
      obtain ⟨k, hcolumn, h⟩ := bind_eq_ok_iff.mp h
      obtain ⟨_, ⟨rfl⟩, hline⟩ := parseNumber?_eq_ok_iff.mp hline
      obtain ⟨_, ⟨rfl⟩, hcolumn⟩ := parseNumber?_eq_ok_iff.mp hcolumn
      split at h
      next => cases h
      next hzero =>
        cases h
        rw [not_or] at hzero
        exact .mk hline hcolumn hzero.1 hzero.2
  · rintro ⟨hline, hcolumn, hline0, hcolumn0⟩
    -- The number of the line has no dot in it, so the text is cut at the right one.
    rw [splitFirst_append (hline.not_mem rfl (by decide))]
    dsimp only
    rw [parseNumber?_eq_ok_iff.mpr ⟨_, rfl, hline⟩, ok_bind,
      parseNumber?_eq_ok_iff.mpr ⟨_, rfl, hcolumn⟩, ok_bind, if_neg (not_or.mpr ⟨hline0, hcolumn0⟩)]

/-- A text is read as a range exactly if it spells it. -/
theorem parseRange?_eq_ok_iff : Profile.parseRange? cs = .ok r ↔ RangeText r cs := by
  unfold Profile.parseRange?
  constructor
  · intro h
    split at h
    next => cases h
    next start stop hsplit =>
      obtain ⟨rfl, _⟩ := splitFirst_eq_some_iff.mp hsplit
      obtain ⟨_, hstart, h⟩ := bind_eq_ok_iff.mp h
      obtain ⟨_, hstop, h⟩ := bind_eq_ok_iff.mp h
      split at h
      next => cases h
      next hle =>
        cases h
        exact .mk (parsePosition?_eq_ok_iff.mp hstart) (parsePosition?_eq_ok_iff.mp hstop) hle
  · rintro ⟨hstart, hstop, hle⟩
    have hcomma : ',' ∉ _ := fun hc => absurd (hstart.sign ',' hc) (by decide)
    rw [splitFirst_append hcomma]
    dsimp only
    rw [parsePosition?_eq_ok_iff.mpr hstart, ok_bind, parsePosition?_eq_ok_iff.mpr hstop,
      ok_bind, if_neg hle]

theorem NumberText.isWord (h : NumberText n cs) : IsWord cs :=
  ⟨h.nonempty, fun c hc => isBlank_of_isFieldSign (h.isFieldSign c hc)⟩

/-- A range makes one word. -/
theorem RangeText.isWord (h : RangeText r cs) : IsWord cs := by
  refine ⟨?_, fun c hc => isBlank_of_isFieldSign (h.isFieldSign c hc)⟩
  obtain ⟨_, _, _⟩ := h
  exact List.append_ne_nil_of_right_ne_nil _ (List.cons_ne_nil _ _)

end Fields

/-! ## The line of a block -/

/-- The name of a file, a colon, and three fields with blanks between them: the range, the number of
statements and how often they ran. -/
inductive BlockLine (b : Block) : List Char → Prop
  | mk {gap range statements executed fields : List Char} : IsGap gap → b.file ≠ "" →
    StartsSolid b.file.toList →
      Spaced [range, statements, executed] fields → RangeText b.range range →
      NumberText b.statements statements → NumberText b.executed executed →
      BlockLine b (gap ++ b.file.toList ++ ':' :: fields)

section Lines

variable {b : Block} {line cs : List Char} {mode : Mode}

/-- A list with two values and no more is made of these. -/
theorem eq_pair_of_getElem? {α : Type} {xs : List α} {a a' : α} (first : xs[0]? = some a)
    (second : xs[1]? = some a') (length : ¬ 2 < xs.length) : xs = [a, a'] := by
  refine List.ext_getElem? fun i => ?_
  match i with
  | 0 => exact first
  | 1 => exact second
  | i + 2 => rw [List.getElem?_eq_none (by omega), List.getElem?_eq_none (by simp)]

/-- What is read as a block, the blanks around it taken off, is the line of that block. -/
theorem blockLine_of_parseBlock?_eq_ok (h : Profile.parseBlock? (trim line) = .ok b) :
    BlockLine b line := by
  unfold Profile.parseBlock? at h
  split at h
  next => cases h
  next file fields hsplit =>
    obtain ⟨htrim, _⟩ := splitLast_eq_some_iff.mp hsplit
    split at h
    next => cases h
    next hfile =>
      split at h
      next => cases h
      next range counts hwords =>
        obtain ⟨statements, hstatements, h⟩ := bind_eq_ok_iff.mp h
        obtain ⟨executed, hexecuted, h⟩ := bind_eq_ok_iff.mp h
        obtain ⟨first, hfirst, hstatements⟩ := parseNumber?_eq_ok_iff.mp hstatements
        obtain ⟨second, hsecond, hexecuted⟩ := parseNumber?_eq_ok_iff.mp hexecuted
        split at h
        next => cases h
        next hlength =>
          obtain ⟨r, hrange, h⟩ := bind_eq_ok_iff.mp h
          cases h
          rw [eq_pair_of_getElem? hfirst hsecond hlength] at hwords
          obtain ⟨front, back, hfront, hback, hline⟩ := exists_gaps_trim line
          have hsolid : StartsSolid file := by
            intro c hc
            refine startsSolid_trim line c ?_
            rw [htrim]
            exact List.mem_head?_append_of_mem_head? hc
          rw [hline, htrim, List.append_assoc, List.append_assoc, List.cons_append,
            ← List.append_assoc]
          have hname : (String.ofList file).toList = file := String.toList_ofList
          have hnonempty : String.ofList file ≠ "" := by
            intro hnil
            rw [hnil] at hname
            exact hfile (List.isEmpty_iff.mpr hname.symm)
          have hblock := BlockLine.mk (b :=
            ⟨String.ofList file, r, statements, executed⟩) hfront hnonempty
            (by rwa [hname]) ((words_eq_iff.mp hwords).append_gap hback)
            (parseRange?_eq_ok_iff.mp hrange)
            hstatements hexecuted
          rwa [hname] at hblock

/-- What spells a block is read as it, with blanks around it or without. -/
theorem parseBlock?_of_blockLine (h : BlockLine b line) :
    Profile.parseBlock? (trim line) = .ok b := by
  obtain ⟨hgap, hfile, hsolid, hfields, hrange, hstatements, hexecuted⟩ := h
  rename_i gap range statements executed fields
  have hname : b.file.toList ≠ [] := by rwa [Ne, String.toList_eq_nil_iff]
  obtain ⟨c, name, hc⟩ := List.exists_cons_of_ne_nil hname
  -- Blanks are taken off in front of the name and behind the last field only.
  have htrim : trim (gap ++ b.file.toList ++ ':' :: fields) = b.file.toList ++
      ':' :: trimEnd fields := by
    have hstart : StartsSolid (b.file.toList ++ ':' :: fields) := by
      intro d hd
      rw [hc] at hsolid hd
      exact hsolid d hd
    rw [trim, List.append_assoc, dropWhile_gap hgap, dropWhile_of_startsSolid hstart,
      trimEnd_append_cons rfl]
  obtain ⟨back, hback, hrest⟩ := exists_gap_trimEnd fields
  have hwords : words (trimEnd fields) = [range, statements, executed] := by
    rw [← words_append_gap hback, ← hrest]
    exact words_eq_iff.mpr hfields
  have hcolon : ':' ∉ trimEnd fields := by
    intro hmem
    rcases (words_eq_iff.mp hwords).mem hmem with hblank | ⟨word, hword, hmem⟩
    · cases hblank
    · simp only [List.mem_cons, List.not_mem_nil, or_false] at hword
      rcases hword with rfl | rfl | rfl
      · exact ne_colon_of_isFieldSign (hrange.isFieldSign _ hmem) rfl
      · exact ne_colon_of_isFieldSign (hstatements.isFieldSign _ hmem) rfl
      · exact ne_colon_of_isFieldSign (hexecuted.isFieldSign _ hmem) rfl
  unfold Profile.parseBlock?
  rw [htrim, splitLast_eq_some_iff.mpr ⟨rfl, hcolon⟩]
  dsimp only
  rw [if_neg (by rwa [List.isEmpty_iff]), hwords]
  dsimp only
  have hfirst (role : String) :
      Profile.parseNumber? role [statements, executed][0]? = .ok b.statements :=
    parseNumber?_eq_ok_iff.mpr ⟨statements, rfl, hstatements⟩
  have hsecond (role : String) :
      Profile.parseNumber? role [statements, executed][1]? = .ok b.executed :=
    parseNumber?_eq_ok_iff.mpr ⟨executed, rfl, hexecuted⟩
  rw [hfirst, ok_bind, hsecond, ok_bind, if_neg (by simp),
    parseRange?_eq_ok_iff.mpr hrange, ok_bind, String.ofList_toList]

theorem parseBlock?_eq_ok_iff : Profile.parseBlock? (trim line) = .ok b ↔ BlockLine b line :=
  ⟨blockLine_of_parseBlock?_eq_ok, parseBlock?_of_blockLine⟩

/-! ## The header -/

/-- The name of the mode behind its label. -/
inductive HeaderLine (mode : Mode) : List Char → Prop
  | mk {front gap back : List Char} : IsGap front → IsGap gap → IsGap back →
      HeaderLine mode (front ++ ("mode:".toList ++ (gap ++ mode.name.toList)) ++ back)

/-- A mode is found by its name and by no other. -/
theorem Mode.ofName?_eq_some_iff {name : String} : ofName? name = some mode ↔ name = mode.name := by
  constructor
  · intro h
    unfold ofName? at h
    split at h
    next =>
      cases h
      rfl
    next =>
      cases h
      rfl
    next =>
      cases h
      rfl
    next => cases h
  · rintro rfl
    cases mode with
    | set => rfl
    | count => rfl
    | atomic => rfl

/-- A text is read as a mode exactly if it is its name. -/
theorem parse?_mode_eq_ok_iff {name : String} : Mode.parse? name = .ok mode ↔ name = mode.name := by
  rw [← Mode.ofName?_eq_some_iff, Mode.parse?]
  cases Mode.ofName? name with
  | none => exact ⟨nofun, nofun⟩
  | some m => simp

/-- The name of a mode has no blanks around it. -/
theorem startsSolid_name (mode : Mode) :
    StartsSolid mode.name.toList ∧ StartsSolid mode.name.toList.reverse := by
  have hsolid {first : Char} {cs : List Char} (h : isBlank first = false) :
      StartsSolid (first :: cs) := by
    intro c hc
    cases hc
    exact h
  cases mode with
  | set => exact ⟨hsolid rfl, hsolid rfl⟩
  | count => exact ⟨hsolid rfl, hsolid rfl⟩
  | atomic => exact ⟨hsolid rfl, hsolid rfl⟩

theorem trim_name (mode : Mode) : trim mode.name.toList = mode.name.toList :=
  trim_of_solid (startsSolid_name mode).1 (startsSolid_name mode).2

/-- A line is read as a header exactly if it spells it. -/
theorem parseHeader?_eq_ok_iff :
    Profile.parseHeader? (trim line) = .ok mode ↔ HeaderLine mode line := by
  unfold Profile.parseHeader?
  constructor
  · intro h
    split at h
    next => cases h
    next rest hrest =>
      have hname : trim rest = mode.name.toList := by
        rw [← parse?_mode_eq_ok_iff.mp h, String.toList_ofList]
      obtain ⟨front, back, hfront, hback, hline⟩ := exists_gaps_trim line
      obtain ⟨gap, behind, hgap, hbehind, hsplit⟩ := exists_gaps_trim rest
      rw [hname] at hsplit
      rw [hline, afterStart_eq_some_iff.mp hrest, hsplit, ← List.append_assoc "mode:".toList,
        ← List.append_assoc front, List.append_assoc _ behind]
      exact .mk hfront hgap (isGap_append.mpr ⟨hbehind, hback⟩)
  · rintro ⟨hfront, hgap, hback⟩
    rename_i front gap back
    have hend : StartsSolid ("mode:".toList ++ (gap ++ mode.name.toList)).reverse := by
      intro c hc
      refine (startsSolid_name mode).2 c ?_
      rw [List.reverse_append, List.reverse_append, List.append_assoc] at hc
      cases mode with
      | set => exact hc
      | count => exact hc
      | atomic => exact hc
    have hstart : StartsSolid ("mode:".toList ++ (gap ++ mode.name.toList)) := by
      intro c hc
      cases hc
      rfl
    have hlabel :
        afterStart "mode:".toList
          (trim (front ++ ("mode:".toList ++ (gap ++ mode.name.toList)) ++ back)) =
            some (gap ++ mode.name.toList) := by
      rw [trim_gaps hfront hback, trim_of_solid hstart hend]
      exact afterStart_eq_some_iff.mpr rfl
    have hname := trim_gaps hgap isGap_nil mode.name.toList
    rw [List.append_nil, trim_name] at hname
    rw [hlabel]
    dsimp only
    rw [hname, String.ofList_toList]
    exact parse?_mode_eq_ok_iff.mpr rfl

end Lines

/-! ## All lines -/

/-- Block lines, and blank ones between them. -/
inductive BlockLines : List (List Char) → List Block → Prop
  | nil : BlockLines [] []
  | blank {line : List Char} {lines : List (List Char)} {blocks : List Block} : IsGap line →
      BlockLines lines blocks → BlockLines (line :: lines) blocks
  | block {b : Block} {line : List Char} {lines : List (List Char)} {blocks : List Block} :
    BlockLine b line →
      BlockLines lines blocks → BlockLines (line :: lines) (b :: blocks)

/-- Nothing but blank lines, or blank lines, a header and block lines. -/
inductive ProfileLines : List (List Char) → Mode → List Block → Prop
  | blank {lines : List (List Char)} : (∀ line ∈ lines, IsGap line) → ProfileLines lines .set []
  | headed {front lines : List (List Char)} {header : List Char} {mode : Mode}
    {blocks : List Block} : (∀ line ∈ front, IsGap line) → HeaderLine mode header →
      BlockLines lines blocks →
      ProfileLines (front ++ header :: lines) mode blocks

/-- Whether a line is out of order behind some lines: it is not blank, it is not the header if these
lines are all blank, and it is no block line if they are not. -/
structure Offends (before : List (List Char)) (line : List Char) : Prop where
  solid : ¬ IsGap line
  header : (∀ l ∈ before, IsGap l) → ∀ mode, ¬ HeaderLine mode line
  block : (∃ l ∈ before, ¬ IsGap l) → ∀ b, ¬ BlockLine b line

/-- Whether the line of a number, counted from one, is the first that is out of order. -/
inductive FirstFault (number : Nat) : List (List Char) → Prop
  | mk {before after : List (List Char)} {line : List Char} {mode : Mode} {blocks : List Block} :
      ProfileLines before mode blocks → Offends before line → number = before.length + 1 →
      FirstFault number (before ++ line :: after)

section Texts

variable {b : Block} {mode : Mode} {blocks : List Block} {number : Nat} {line header : List Char}
  {front back lines lines' last : List (List Char)}

/-- A header is not blank. -/
theorem HeaderLine.solid (h : HeaderLine mode line) : ¬ IsGap line := by
  obtain ⟨_, _, _⟩ := h
  intro hgap
  have hm : isBlank 'm' := hgap 'm' (by simp)
  cases hm

/-- The line of a block is not blank. -/
theorem BlockLine.solid (h : BlockLine b line) : ¬ IsGap line := by
  obtain ⟨_, _, _, _, _, _, _⟩ := h
  intro hgap
  have hcolon : isBlank ':' := hgap ':' (by simp)
  cases hcolon

/-! ### Blank lines -/

/-- Blank lines are counted and left out. -/
theorem numberedLines_blank (h : IsGap line) (number : Nat) (lines : List (List Char)) :
    Profile.numberedLines number (line :: lines) = Profile.numberedLines (number + 1) lines := by
  rw [Profile.numberedLines, trim_eq_nil_iff.mpr h]
  rfl

/-- Any other line is kept with its number, without the blanks around it. -/
theorem numberedLines_solid (h : ¬ IsGap line) (number : Nat) (lines : List (List Char)) :
    Profile.numberedLines number (line :: lines) =
      (number, trim line) :: Profile.numberedLines (number + 1) lines := by
  rw [Profile.numberedLines, if_neg (by rwa [List.isEmpty_iff, trim_eq_nil_iff])]

/-- Blank lines in front only move the numbers of what follows. -/
theorem numberedLines_append_blank (h : ∀ line ∈ front, IsGap line) (number : Nat)
    (lines : List (List Char)) :
    Profile.numberedLines number (front ++ lines) =
      Profile.numberedLines (number + front.length) lines := by
  induction front generalizing number with
  | nil => rfl
  | cons line front ih =>
    rw [List.forall_mem_cons] at h
    rw [List.cons_append, numberedLines_blank h.1, ih h.2, List.length_cons, Nat.add_right_comm,
      Nat.add_assoc]

/-- Only what is left of the lines without the blanks at their ends counts, and empty lines at the
end do not. -/
theorem numberedLines_congr (hlast : ∀ line ∈ last, line = [])
    (h : lines.map trim = lines'.map trim ++ last) (number : Nat) :
    Profile.numberedLines number lines = Profile.numberedLines number lines' := by
  induction lines generalizing lines' number with
  | nil =>
    rw [List.map_nil, eq_comm, List.append_eq_nil_iff, List.map_eq_nil_iff] at h
    rw [h.1]
  | cons line lines ih =>
    cases lines' with
    | nil =>
      have hall : ∀ l ∈ line :: lines, IsGap l := by
        intro l hl
        rw [← trim_eq_nil_iff]
        refine hlast _ ?_
        rw [List.map_nil, List.nil_append] at h
        rw [← h]
        exact List.mem_map_of_mem hl
      have hnone := numberedLines_append_blank hall number []
      rwa [List.append_nil] at hnone
    | cons line' lines' =>
      rw [List.map_cons, List.map_cons, List.cons_append, List.cons.injEq] at h
      rw [Profile.numberedLines, Profile.numberedLines, h.1, ih h.2]

/-! ### Block lines -/

/-- Lines that spell blocks are read as these. -/
theorem parseBlocks?_of_blockLines (h : BlockLines lines blocks) (number : Nat) :
    Profile.parseBlocks? (Profile.numberedLines number lines) = .ok blocks := by
  induction h generalizing number with
  | nil => rfl
  | blank hgap _ ih => rw [numberedLines_blank hgap, ih]
  | block hblock _ ih =>
    rw [numberedLines_solid hblock.solid, Profile.parseBlocks?,
      parseBlock?_eq_ok_iff.mpr hblock, ih]
    rfl

/-- A line that is none of a block is reported with its number. -/
theorem parseBlocks?_of_fault (hfront : BlockLines front blocks) (hsolid : ¬ IsGap line)
    (hblock : ∀ b, ¬ BlockLine b line) (number : Nat) (back : List (List Char)) :
    ∃ reason, Profile.parseBlocks? (Profile.numberedLines number (front ++ line :: back)) =
      .error (.profile (number + front.length) reason) := by
  induction hfront generalizing number with
  | nil =>
    rw [List.nil_append, numberedLines_solid hsolid, Profile.parseBlocks?]
    cases hparse : Profile.parseBlock? (trim line) with
    | ok b => exact absurd (parseBlock?_eq_ok_iff.mp hparse) (hblock b)
    | error fault => exact ⟨fault.message, rfl⟩
  | blank hgap _ ih =>
    obtain ⟨reason, hreason⟩ := ih (number + 1)
    refine ⟨reason, ?_⟩
    rw [List.cons_append, numberedLines_blank hgap, hreason, List.length_cons, Nat.add_right_comm,
      Nat.add_assoc]
  | block hfirst _ ih =>
    obtain ⟨reason, hreason⟩ := ih (number + 1)
    refine ⟨reason, ?_⟩
    rw [List.cons_append, numberedLines_solid hfirst.solid, Profile.parseBlocks?,
      parseBlock?_eq_ok_iff.mpr hfirst,
      hreason, List.length_cons, Nat.add_right_comm, Nat.add_assoc]
    rfl

/-- Lines are block lines, or there is a first one among them that is none. -/
theorem blockLines_or_fault (lines : List (List Char)) :
    (∃ blocks, BlockLines lines blocks) ∨
      ∃ front line back blocks, lines = front ++ line :: back ∧ BlockLines front blocks ∧
        ¬ IsGap line ∧ ∀ b, ¬ BlockLine b line := by
  induction lines with
  | nil => exact Or.inl ⟨[], .nil⟩
  | cons line lines ih =>
    by_cases hgap : IsGap line
    · rcases ih with ⟨blocks, h⟩ | ⟨front, fault, back, blocks, rfl, hfront, hfault⟩
      · exact Or.inl ⟨blocks, .blank hgap h⟩
      · exact Or.inr ⟨line :: front, fault, back, blocks, rfl, .blank hgap hfront, hfault⟩
    · by_cases hblock : ∃ b, BlockLine b line
      · obtain ⟨b, hb⟩ := hblock
        rcases ih with ⟨blocks, h⟩ | ⟨front, fault, back, blocks, rfl, hfront, hfault⟩
        · exact Or.inl ⟨b :: blocks, .block hb h⟩
        · exact Or.inr ⟨line :: front, fault, back, b :: blocks, rfl, .block hb hfront, hfault⟩
      · exact Or.inr ⟨[], line, lines, [], rfl, .nil, hgap, not_exists.mp hblock⟩

/-- Lines are all blank, or there is a first one among them that is not. -/
theorem blank_or_solid (lines : List (List Char)) : (∀ line ∈ lines, IsGap line) ∨
    ∃ front line back, lines = front ++ line :: back ∧ (∀ l ∈ front, IsGap l) ∧ ¬ IsGap line := by
  induction lines with
  | nil => exact Or.inl fun line hline => nomatch hline
  | cons line lines ih =>
    by_cases hgap : IsGap line
    · rcases ih with h | ⟨front, solid, back, rfl, hfront, hsolid⟩
      · exact Or.inl (List.forall_mem_cons.mpr ⟨hgap, h⟩)
      · exact Or.inr ⟨line :: front, solid, back, rfl,
          List.forall_mem_cons.mpr ⟨hgap, hfront⟩, hsolid⟩
    · exact Or.inr ⟨[], line, lines, rfl, List.forall_mem_nil _, hgap⟩

/-! ### Texts -/

namespace Profile

variable {text : String}

/-- The pieces between line feeds are read as the lines of the text. -/
theorem numberedLines_lines (text : String) :
    numberedLines 1 (Text.lines text.toList) = numberedLines 1 (text.toList.splitOn '\n') := by
  obtain ⟨last, hlast, h⟩ := trim_lines text.toList
  exact (numberedLines_congr hlast h 1).symm

/-- A text whose lines spell a profile is read as it. -/
theorem parse?_of_profileLines (h : ProfileLines (text.toList.splitOn '\n') mode blocks) :
    parse? text = .ok (ofBlocks mode blocks) := by
  unfold parse?
  rw [numberedLines_lines]
  generalize text.toList.splitOn '\n' = lines at h
  cases h with
  | blank hall =>
    have hnone := numberedLines_append_blank hall 1 []
    rw [List.append_nil] at hnone
    rw [hnone]
    rfl
  | headed hfront hheader hblocks =>
    rw [numberedLines_append_blank hfront, numberedLines_solid hheader.solid]
    dsimp only
    rw [parseHeader?_eq_ok_iff.mpr hheader, parseBlocks?_of_blockLines hblocks]
    rfl

/-- A text whose first line with something in it is no header is refused at that line. -/
theorem parse?_of_headerFault (hlines : text.toList.splitOn '\n' = front ++ line :: back)
    (hfront : ∀ l ∈ front, IsGap l) (hsolid : ¬ IsGap line)
    (hheader : ∀ mode, ¬ HeaderLine mode line) :
    ∃ reason, parse? text = .error (.profile (front.length + 1) reason) := by
  unfold parse?
  rw [numberedLines_lines, hlines, numberedLines_append_blank hfront, numberedLines_solid hsolid,
    Nat.add_comm]
  dsimp only
  cases hparse : parseHeader? (trim line) with
  | ok mode => exact absurd (parseHeader?_eq_ok_iff.mp hparse) (hheader mode)
  | error fault => exact ⟨fault.message, rfl⟩

/-- A text with a line that spells no block is refused at the first such line. -/
theorem parse?_of_blockFault
    (hlines : text.toList.splitOn '\n' = front ++ header :: (lines ++ line :: back))
    (hfront : ∀ l ∈ front, IsGap l) (hheader : HeaderLine mode header)
    (hblocks : BlockLines lines blocks) (hsolid : ¬ IsGap line) (hblock : ∀ b, ¬ BlockLine b line) :
    ∃ reason, parse? text = .error (.profile ((front ++ header :: lines).length + 1) reason) := by
  obtain ⟨reason, hreason⟩ :=
    parseBlocks?_of_fault hblocks hsolid hblock (1 + front.length + 1) back
  have hnumber : 1 + front.length + 1 + lines.length = (front ++ header :: lines).length + 1 := by
    rw [List.length_append, List.length_cons]
    omega
  refine ⟨reason, ?_⟩
  unfold parse?
  rw [numberedLines_lines, hlines, numberedLines_append_blank hfront,
    numberedLines_solid hheader.solid]
  dsimp only
  rw [parseHeader?_eq_ok_iff.mpr hheader, hreason, hnumber]
  rfl

/-- A text is the profile of its block lines if its lines are in order, and if they are not, the
first one that is out of order is reported with its number. -/
theorem parse?_profileLines_or_firstFault (text : String) :
    (∃ mode blocks, ProfileLines (text.toList.splitOn '\n') mode blocks) ∨
      ∃ number reason, FirstFault number (text.toList.splitOn '\n') ∧
        parse? text = .error (.profile number reason) := by
  rcases blank_or_solid (text.toList.splitOn '\n') with hall | ⟨front, header, lines, hlines,
    hfront, hsolid⟩
  · exact Or.inl ⟨.set, [], .blank hall⟩
  · by_cases hheader : ∃ mode, HeaderLine mode header
    · obtain ⟨mode, hheader⟩ := hheader
      rcases blockLines_or_fault lines with ⟨blocks, hblocks⟩ | ⟨mid, line, back, blocks, rfl, hmid,
        hline, hblock⟩
      · rw [hlines]
        exact Or.inl ⟨mode, blocks, .headed hfront hheader hblocks⟩
      · obtain ⟨reason, hreason⟩ := parse?_of_blockFault hlines hfront hheader hmid hline hblock
        refine Or.inr ⟨_, reason, ?_, hreason⟩
        have hheaded : header ∈ front ++ header :: mid := List.mem_append_right _ List.mem_cons_self
        rw [hlines, ← List.cons_append, ← List.append_assoc]
        exact .mk (.headed hfront hheader hmid) ⟨hline, fun hall =>
          absurd (hall header hheaded) hsolid, fun _ => hblock⟩ rfl
    · rw [not_exists] at hheader
      obtain ⟨reason, hreason⟩ := parse?_of_headerFault hlines hfront hsolid hheader
      refine Or.inr ⟨_, reason, ?_, hreason⟩
      rw [hlines]
      exact .mk (.blank hfront) ⟨hsolid, fun _ => hheader, fun ⟨l, hl, hl'⟩ =>
        absurd (hfront l hl) hl'⟩ rfl

/-- A text is read as a profile exactly if its lines are those of a profile, whose blocks are then
those of the lines. Otherwise the first line that is out of order is reported with its number. -/
theorem parse?_decides (text : String) :
    (∀ p, parse? text = .ok p ↔
      ∃ mode blocks, ProfileLines (text.toList.splitOn '\n') mode blocks ∧
        p = ofBlocks mode blocks) ∧
    ((∃ mode blocks, ProfileLines (text.toList.splitOn '\n') mode blocks) ∨
      ∃ number reason, FirstFault number (text.toList.splitOn '\n') ∧
        parse? text = .error (.profile number reason)) := by
  have hcases := parse?_profileLines_or_firstFault text
  refine ⟨fun p => ⟨fun hparse => ?_, fun ⟨mode, blocks, hlines, hp⟩ => ?_⟩, hcases⟩
  · rcases hcases with ⟨mode, blocks, hlines⟩ | ⟨number, reason, _, herror⟩
    · rw [parse?_of_profileLines hlines] at hparse
      exact ⟨mode, blocks, hlines, (Except.ok.inj hparse).symm⟩
    · rw [hparse] at herror
      cases herror
  · rw [parse?_of_profileLines hlines, hp]

end Profile

end Texts

end CoverageReplay
