import CoverageReplay.Proofs.Splicing.Characters

/-!
# What a widened hole takes

`Hole.AloneOn` says, without a scan, on which lines a piece of code stands alone. A hole is widened
to exactly these lines, and left as it is when there are none (`lineHole_cases`). So all that is
added is the indentation before the code, the blanks behind it and one line feed, and no other code
is ever reached (`lineHole_spares_code`): not the next piece, not the one before, not the braces
around them.

The scans read bytes by their index. `lineHole?` reads them with a check and fails where an index is
not one of the text, which does not happen (`lineHole?_eq_some`).
-/

namespace CoverageReplay

/-! ## The two scans -/

section Scans

variable {bytes : Array UInt8} {n : Nat}

/-- The bytes passed to the left are spaces and tabs. -/
theorem indentStart_indents (bytes : Array UInt8) (n : Nat) :
    indentStart bytes n ≤ n ∧ ∀ k, indentStart bytes n ≤ k → k < n → bytes[k]?.any isIndent := by
  induction n with
  | zero => exact ⟨Nat.le_refl 0, fun k _ hk => absurd hk (Nat.not_lt_zero k)⟩
  | succ n ih =>
    rw [indentStart]
    split
    next hindent =>
      refine ⟨Nat.le_succ_of_le ih.1, fun k hk hlt => ?_⟩
      rcases Nat.lt_succ_iff_lt_or_eq.mp hlt with hlt | rfl
      · exact ih.2 k hk hlt
      · exact hindent
    next => exact ⟨Nat.le_refl _, fun k hle hlt => absurd hlt (Nat.not_lt.mpr hle)⟩

/-- To the left the scan goes as far as it can. -/
theorem indentStart_eq {start : Nat} (hle : start ≤ n)
    (indents : ∀ k, start ≤ k → k < n → bytes[k]?.any isIndent)
    (opens : start = 0 ∨ bytes[start - 1]? = some 10) : indentStart bytes n = start := by
  induction n with
  | zero => exact (Nat.le_zero.mp hle).symm
  | succ n ih =>
    rw [indentStart]
    rcases Nat.eq_or_lt_of_le hle with rfl | hlt
    · rcases opens with hzero | hfeed
      · exact absurd hzero (Nat.succ_ne_zero n)
      · rw [Nat.add_sub_cancel] at hfeed
        rw [hfeed]
        rfl
    · rw [if_pos (indents n (by omega) (by omega))]
      exact ih (by omega) fun k hk hkn => indents k hk (by omega)

/-- The bytes passed to the right are spaces, tabs and carriage returns, and no such byte follows
them. -/
theorem trailingEnd_trailing {most : Nat} (enough : bytes.size ≤ most + n) :
    n ≤ trailingEnd bytes most n ∧
      (∀ k, n ≤ k → k < trailingEnd bytes most n → bytes[k]?.any isTrailing) ∧
      bytes[trailingEnd bytes most n]?.any isTrailing = false := by
  induction most generalizing n with
  | zero =>
    have hnone : bytes[n]? = none := Array.getElem?_eq_none (by omega)
    exact ⟨Nat.le_refl n, fun k hle hlt => absurd hlt (Nat.not_lt.mpr hle), by
      simp [trailingEnd, hnone]⟩
  | succ most ih =>
    rw [trailingEnd]
    split
    next htrailing =>
      obtain ⟨hle, hpassed, hends⟩ := ih (n := n + 1) (by omega)
      refine ⟨by omega, fun k hk hlt => ?_, hends⟩
      rcases Nat.eq_or_lt_of_le hk with rfl | hk
      · exact htrailing
      · exact hpassed k hk hlt
    next hother =>
      exact ⟨Nat.le_refl n, fun k hle hlt =>
        absurd hlt (Nat.not_lt.mpr hle), Bool.eq_false_iff.mpr hother⟩

/-- A run of blanks has one end. -/
theorem trailingEnd_eq {most last : Nat} (enough : bytes.size ≤ most + n) (hle : n ≤ last)
    (trailing : ∀ k, n ≤ k → k < last → bytes[k]?.any isTrailing)
    (ends : bytes[last]?.any isTrailing = false) : trailingEnd bytes most n = last := by
  obtain ⟨hstop, hpassed, hends⟩ := trailingEnd_trailing enough
  rcases Nat.lt_trichotomy (trailingEnd bytes most n) last with hlt | heq | hgt
  · rw [trailing _ hstop hlt] at hends
    cases hends
  · exact heq
  · rw [hpassed last hle hgt] at ends
    cases ends

end Scans

/-! ## Code alone on its lines -/

/-- A piece of code that has only indentation before it, from the start of a line on, and only
blanks behind it, up to the end of the text or past the next line feed. -/
structure Hole.AloneOn (bytes : Array UInt8) (h lines : Hole) : Prop where
  start_le : lines.start ≤ h.start
  indents : ∀ k, lines.start ≤ k → k < h.start → bytes[k]?.any isIndent
  opens : lines.start = 0 ∨ bytes[lines.start - 1]? = some 10
  closes : ∃ last, h.stop ≤ last ∧ (∀ k, h.stop ≤ k → k < last → bytes[k]?.any isTrailing) ∧
    (lines.stop = last ∧ bytes[last]? = none ∨ lines.stop = last + 1 ∧ bytes[last]? = some 10)

section AloneOn

variable {bytes : Array UInt8} {h lines : Hole}

/-- Code that stands alone on lines takes them with it. -/
theorem Hole.AloneOn.lineHole_eq (alone : h.AloneOn bytes lines) : lineHole bytes h = lines := by
  obtain ⟨last, hle, htrailing, hcloses⟩ := alone.closes
  have hstart := indentStart_eq alone.start_le alone.indents alone.opens
  have hends : bytes[last]?.any isTrailing = false := by
    rcases hcloses with ⟨_, hbyte⟩ | ⟨_, hbyte⟩
    · rw [hbyte]
      rfl
    · rw [hbyte]
      rfl
  have hstop := trailingEnd_eq (Nat.le_add_right bytes.size h.stop) hle htrailing hends
  have hopens : ¬ (0 < lines.start ∧ bytes[lines.start - 1]? ≠ some 10) := by
    rcases alone.opens with hzero | hfeed
    · omega
    · exact fun hother => hother.2 hfeed
  simp only [lineHole, hstart, hstop, Bool.and_eq_true, decide_eq_true_eq, if_neg hopens]
  rcases hcloses with ⟨hlines, hbyte⟩ | ⟨hlines, hbyte⟩
  · rw [hbyte, ← hlines]
  · rw [hbyte, ← hlines]
    rfl

/-- A hole is widened to the lines that its code stands alone on, if there are any. -/
theorem lineHole_cases (bytes : Array UInt8) (h : Hole) :
    h.AloneOn bytes (lineHole bytes h) ∨
      lineHole bytes h = h ∧ ∀ lines, ¬ h.AloneOn bytes lines := by
  by_cases hany : ∃ lines, h.AloneOn bytes lines
  · obtain ⟨lines, alone⟩ := hany
    exact .inl (alone.lineHole_eq.symm ▸ alone)
  · refine .inr ⟨?_, fun lines alone => hany ⟨lines, alone⟩⟩
    obtain ⟨hstart, hindents⟩ := indentStart_indents bytes h.start
    obtain ⟨hstop, htrailing, _⟩ := trailingEnd_trailing (Nat.le_add_right bytes.size h.stop)
    -- Whenever the scans lead to lines, the code stands alone on them.
    simp only [lineHole, Bool.and_eq_true, decide_eq_true_eq]
    split
    next => rfl
    next hopens =>
      have hopens : indentStart bytes h.start = 0 ∨
          bytes[indentStart bytes h.start - 1]? = some 10 := by
        by_cases hfeed : bytes[indentStart bytes h.start - 1]? = some 10
        · exact .inr hfeed
        · exact .inl (Nat.eq_zero_of_not_pos fun hpos => hopens ⟨hpos, hfeed⟩)
      split
      next hnone =>
        exact (hany ⟨⟨_, _⟩, hstart, hindents, hopens, _, hstop, htrailing, .inl ⟨rfl, hnone⟩⟩).elim
      next b hbyte =>
        split
        next hfeed =>
          have hbyte := hfeed ▸ hbyte
          exact (hany ⟨⟨_, _⟩, hstart, hindents, hopens, _, hstop, htrailing,
            .inr ⟨rfl, hbyte⟩⟩).elim
        next => rfl

/-- A widened hole has all bytes of the hole. -/
theorem lineHole_contains (bytes : Array UInt8) (h : Hole) :
    (lineHole bytes h).start ≤ h.start ∧ h.stop ≤ (lineHole bytes h).stop := by
  rcases lineHole_cases bytes h with alone | ⟨hsame, _⟩
  · obtain ⟨last, hle, _, hcloses⟩ := alone.closes
    refine ⟨alone.start_le, ?_⟩
    rcases hcloses with ⟨hlines, _⟩ | ⟨hlines, _⟩
    · omega
    · omega
  · rw [hsame]
    exact ⟨Nat.le_refl _, Nat.le_refl _⟩

/-- Before the hole only indentation is added. -/
theorem lineHole_adds_before {k : Nat} (hk : (lineHole bytes h).start ≤ k) (hlt : k < h.start) :
    ∃ b, bytes[k]? = some b ∧ isIndent b := by
  rcases lineHole_cases bytes h with alone | ⟨hsame, _⟩
  · exact (Option.any_eq_true _ _).mp (alone.indents k hk hlt)
  · rw [hsame] at hk
    omega

/-- Behind the hole only blanks are added, and the line feed that ends them. -/
theorem lineHole_adds_behind {k : Nat} (hk : h.stop ≤ k) (hlt : k < (lineHole bytes h).stop) :
    ∃ b, bytes[k]? = some b ∧ (isTrailing b ∨ b = 10 ∧ k + 1 = (lineHole bytes h).stop) := by
  rcases lineHole_cases bytes h with alone | ⟨hsame, _⟩
  · obtain ⟨last, _, htrailing, hcloses⟩ := alone.closes
    rcases Nat.lt_or_ge k last with hbefore | hlast
    · obtain ⟨b, hbyte, hblank⟩ := (Option.any_eq_true _ _).mp (htrailing k hk hbefore)
      exact ⟨b, hbyte, .inl hblank⟩
    · rcases hcloses with ⟨hlines, _⟩ | ⟨hlines, hfeed⟩
      · omega
      · obtain rfl : k = last := by omega
        exact ⟨10, hfeed, .inr ⟨rfl, hlines.symm⟩⟩
  · rw [hsame] at hlt
    omega

/-- A hole that grows behind its code ends with a line feed, or where the text ends. -/
theorem lineHole_ends (grows : h.stop < (lineHole bytes h).stop) :
    bytes[(lineHole bytes h).stop]? = none ∨ bytes[(lineHole bytes h).stop - 1]? = some 10 := by
  rcases lineHole_cases bytes h with alone | ⟨hsame, _⟩
  · obtain ⟨last, _, _, ⟨hlines, hnone⟩ | ⟨hlines, hfeed⟩⟩ := alone.closes
    · exact .inl (hlines ▸ hnone)
    · exact .inr (by rw [hlines, Nat.add_sub_cancel, hfeed])
  · rw [hsame] at grows
    exact absurd grows (Nat.lt_irrefl _)

end AloneOn

/-! ## Reading with a check -/

/-- `indentStart`, which fails when it reads outside the text. -/
def indentStart? (bytes : Array UInt8) : Nat → Option Nat
  | 0 => some 0
  | n + 1 => do
    let b ← bytes[n]?
    if isIndent b then indentStart? bytes n else some (n + 1)

/-- `trailingEnd`, which looks whether the text has ended before it reads, and fails when it reads
outside the text or is stopped before the blanks end. -/
def trailingEnd? (bytes : Array UInt8) : (most : Nat) → Nat → Option Nat
  | 0, n => if n < bytes.size then none else some n
  | most + 1, n =>
    if n < bytes.size then do
      let b ← bytes[n]?
      if isTrailing b then trailingEnd? bytes most (n + 1) else some n
    else some n

/-- Whether a line starts at a byte. -/
def opensLine? (bytes : Array UInt8) : Nat → Option Bool
  | 0 => some true
  | n + 1 => bytes[n]?.map fun b => b = 10

/-- `lineHole`, which fails when it reads outside the text. Only the byte behind the blanks may be
missing. -/
def lineHole? (bytes : Array UInt8) (h : Hole) : Option Hole := do
  let start ← indentStart? bytes h.start
  if ← opensLine? bytes start then
    let stop ← trailingEnd? bytes bytes.size h.stop
    match bytes[stop]? with
    | none => some ⟨start, stop⟩
    | some b => if b = 10 then some ⟨start, stop + 1⟩ else some h
  else some h

section Checked

variable {bytes : Array UInt8} {n : Nat}

/-- Within a text the start of the indent is found without looking past the ends. -/
theorem indentStart?_eq_some (inside : n ≤ bytes.size) :
    indentStart? bytes n = some (indentStart bytes n) := by
  induction n with
  | zero => rfl
  | succ n ih =>
    have hbyte : bytes[n]? = some bytes[n] := Array.getElem?_eq_getElem inside
    simp only [indentStart?, indentStart, hbyte, Option.bind_eq_bind, Option.bind_some,
      Option.any_some, ih (by omega)]
    split
    next => rfl
    next => rfl

theorem trailingEnd?_eq_some {most : Nat} (enough : bytes.size ≤ most + n) :
    trailingEnd? bytes most n = some (trailingEnd bytes most n) := by
  induction most generalizing n with
  | zero => rw [trailingEnd?, if_neg (by omega), trailingEnd]
  | succ most ih =>
    rw [trailingEnd?, trailingEnd]
    by_cases hinside : n < bytes.size
    · have hbyte : bytes[n]? = some bytes[n] := Array.getElem?_eq_getElem hinside
      simp only [if_pos hinside, hbyte, Option.bind_eq_bind, Option.bind_some, Option.any_some,
        ih (n := n + 1) (by omega)]
      split
      next => rfl
      next => rfl
    · have hnone : bytes[n]? = none := Array.getElem?_eq_none (by omega)
      rw [if_neg hinside, hnone]
      rfl

theorem opensLine?_eq_some (inside : n ≤ bytes.size) :
    opensLine? bytes n = some !(0 < n && bytes[n - 1]? ≠ some 10) := by
  cases n with
  | zero => rfl
  | succ n =>
    have hbyte : bytes[n]? = some bytes[n] := Array.getElem?_eq_getElem inside
    simp [opensLine?, hbyte]

/-- Widening a hole that begins in the text never reads outside it. -/
theorem lineHole?_eq_some {h : Hole} (inside : h.start ≤ bytes.size) :
    lineHole? bytes h = some (lineHole bytes h) := by
  have hstart := Nat.le_trans (indentStart_indents bytes h.start).1 inside
  have hstop := trailingEnd?_eq_some (Nat.le_add_right bytes.size h.stop)
  simp only [lineHole?, lineHole, indentStart?_eq_some inside, opensLine?_eq_some hstart, hstop,
    Option.bind_eq_bind, Option.bind_some]
  cases (0 < indentStart bytes h.start &&
    bytes[indentStart bytes h.start - 1]? ≠ some 10 : Bool) with
  | true => rfl
  | false =>
    cases bytes[trailingEnd bytes bytes.size h.stop]? with
    | none => rfl
    | some b =>
      by_cases hfeed : b = 10
      · simp [hfeed]
      · simp [hfeed]

end Checked

/-! ## The characters around a hole -/

/-- The characters that can be added to a hole. -/
def lineBlanks : List Char :=
  [' ', '\t', '\r', '\n']

/-- Whether a character begins at a byte that is not one of these. -/
def StartsCode (cs : List Char) (n : Nat) : Prop :=
  ∃ c, charAt? cs n = some c ∧ c ∉ lineBlanks

/-- Whether such a character ends before a byte. -/
def EndsCode (cs : List Char) (n : Nat) : Prop :=
  ∃ k c, charAt? cs k = some c ∧ c ∉ lineBlanks ∧ k + c.utf8Size = n

/-- A piece of code starts and ends on a character that is not blank. -/
structure Hole.IsCode (cs : List Char) (h : Hole) : Prop where
  first : StartsCode cs h.start
  last : EndsCode cs h.stop

/-- The bytes of a text from where a character begins are those of the character. -/
theorem byte_of_charAt? {cs : List Char} {n j : Nat} {c : Char} (h : charAt? cs n = some c)
    (hj : j < c.utf8Size) :
    (cs.flatMap String.utf8EncodeChar)[n + j]? = (String.utf8EncodeChar c)[j]? := by
  induction cs generalizing n with
  | nil => cases h
  | cons d cs ih =>
    rw [charAt?] at h
    rw [List.flatMap_cons]
    split at h
    next hzero =>
      injection h with hdc
      rw [hzero, hdc, Nat.zero_add,
        List.getElem?_append_left (by rwa [String.length_utf8EncodeChar])]
    next =>
      split at h
      next hsize =>
        rw [List.getElem?_append_right (by rw [String.length_utf8EncodeChar]; omega),
          String.length_utf8EncodeChar, Nat.sub_add_comm hsize]
        exact ih h
      next => cases h

section Code

variable {source : String} {n : Nat}

/-- No byte of a character that is not blank is a blank byte. -/
theorem byte_of_code {c : Char} {j : Nat} (h : charAt? source.toList n = some c)
    (code : c ∉ lineBlanks) (hj : j < c.utf8Size) :
    ∃ b, source.toUTF8.data[n + j]? = some b ∧ isLineBlank b = false := by
  have hlength : j < (String.utf8EncodeChar c).length := by rwa [String.length_utf8EncodeChar]
  refine ⟨(String.utf8EncodeChar c)[j], ?_, Bool.eq_false_iff.mpr fun blank => code ?_⟩
  · rw [String.toUTF8_eq_toByteArray, ← String.utf8Encode_toList, List.utf8Encode,
      List.data_toByteArray, List.getElem?_toArray, byte_of_charAt? h hj,
        List.getElem?_eq_getElem hlength]
  · have hb := toNat_of_isLineBlank blank
    have hnat := (encoding_of_ascii (List.getElem_mem hlength) (by omega)).2
    have hmem (d : Char) (hd : d ∈ lineBlanks) (hcode : c.toNat = d.toNat) : c ∈ lineBlanks :=
      Char.toNat_inj.mp hcode ▸ hd
    rcases hb with hb | hb | hb | hb
    · exact hmem ' ' (by decide) (hnat.trans hb)
    · exact hmem '\t' (by decide) (hnat.trans hb)
    · exact hmem '\r' (by decide) (hnat.trans hb)
    · exact hmem '\n' (by decide) (hnat.trans hb)

/-- Code starts with a byte that is not blank. -/
theorem StartsCode.byte (code : StartsCode source.toList n) :
    ∃ b, source.toUTF8.data[n]? = some b ∧ isLineBlank b = false := by
  obtain ⟨c, hc, hblank⟩ := code
  exact byte_of_code hc hblank c.utf8Size_pos

/-- Code ends with a byte that is not blank. -/
theorem EndsCode.byte (code : EndsCode source.toList n) :
    0 < n ∧ ∃ b, source.toUTF8.data[n - 1]? = some b ∧ isLineBlank b = false := by
  obtain ⟨k, c, hc, hblank, rfl⟩ := code
  have hpos := c.utf8Size_pos
  refine ⟨by omega, ?_⟩
  rw [Nat.add_sub_assoc hpos]
  exact byte_of_code hc hblank (by omega)

/-- A hole is not widened to the left past the end of a character that is not blank. -/
theorem EndsCode.le_lineHole {h : Hole} (code : EndsCode source.toList n) (hle : n ≤ h.start) :
    n ≤ (lineHole source.toUTF8.data h).start := by
  obtain ⟨hpos, b, hbyte, hblank⟩ := code.byte
  refine Nat.le_of_not_lt fun hlt => ?_
  have hadded : (lineHole source.toUTF8.data h).start ≤ n - 1 := by omega
  obtain ⟨b', hbyte', hindent⟩ := lineHole_adds_before hadded (by omega)
  rw [hbyte] at hbyte'
  injection hbyte' with hb
  rw [hb] at hblank
  simp [isLineBlank, isTrailing, hindent] at hblank

/-- Nor to the right past its start. -/
theorem StartsCode.lineHole_le {h : Hole} (code : StartsCode source.toList n) (hle : h.stop ≤ n) :
    (lineHole source.toUTF8.data h).stop ≤ n := by
  obtain ⟨b, hbyte, hblank⟩ := code.byte
  refine Nat.le_of_not_lt fun hlt => ?_
  obtain ⟨b', hbyte', hadded⟩ := lineHole_adds_behind hle hlt
  rw [hbyte] at hbyte'
  injection hbyte' with hb
  rw [hb] at hblank
  rcases hadded with htrailing | ⟨hfeed, _⟩
  · simp [isLineBlank, htrailing] at hblank
  · simp [isLineBlank, hfeed] at hblank

/-- Two holes that follow each other stay apart when both are widened. -/
theorem lineHole_le_lineHole {a b : Hole} (ha : a.IsCode source.toList)
    (hb : b.IsCode source.toList) (apart : a.stop ≤ b.start) :
    (lineHole source.toUTF8.data a).stop ≤ (lineHole source.toUTF8.data b).start := by
  have hcontains := (lineHole_contains source.toUTF8.data a).2
  have hright := hb.first.lineHole_le apart
  rcases Nat.eq_or_lt_of_le hcontains with hsame | grows
  · rw [← hsame]
    exact ha.last.le_lineHole apart
  · -- The line feed that ends the first hole is no indentation of the second one.
    refine Nat.le_of_not_lt fun hlt => ?_
    obtain ⟨first, hfirst, _⟩ := hb.first.byte
    have hinside := (Array.getElem?_eq_some_iff.mp hfirst).1
    rcases lineHole_ends grows with hnone | hfeed
    · rw [Array.getElem?_eq_none_iff] at hnone
      omega
    · have hadded :
          (lineHole source.toUTF8.data b).start ≤ (lineHole source.toUTF8.data a).stop - 1 := by
            omega
      obtain ⟨byte, hbyte, hindent⟩ := lineHole_adds_before hadded (by omega)
      rw [hfeed] at hbyte
      injection hbyte with hbyte
      rw [← hbyte] at hindent
      cases hindent

end Code

/-- **Widened holes spare code.** For every text and every piece of code in it, that is, every range
that starts and ends on a character that is not blank: widening never reads outside the text and
takes the lines on which the piece stands alone, if there are any. All bytes of the piece are kept,
and only spaces, tabs, carriage returns and at most one line feed are added, which comes last.
Between two characters that are not blank neither is reached. Two such pieces that do not overlap
are still apart when both are widened, and neither of the widened pieces reaches the other one. -/
theorem lineHole_spares_code (source : String) :
    (∀ a : Hole, a.IsCode source.toList →
      lineHole? source.toUTF8.data a = some (lineHole source.toUTF8.data a) ∧
      (a.AloneOn source.toUTF8.data (lineHole source.toUTF8.data a) ∨
        lineHole source.toUTF8.data a = a ∧ ∀ lines, ¬ a.AloneOn source.toUTF8.data lines) ∧
      (∀ k, a.covers k → (lineHole source.toUTF8.data a).covers k) ∧
      (∀ k, (lineHole source.toUTF8.data a).covers k → a.covers k = false →
        ∃ byte, source.toUTF8.data[k]? = some byte ∧
          (isTrailing byte ∨ byte = 10 ∧ k + 1 = (lineHole source.toUTF8.data a).stop)) ∧
      ∀ p q, EndsCode source.toList p → p ≤ a.start → a.stop ≤ q → StartsCode source.toList q →
        p ≤ (lineHole source.toUTF8.data a).start ∧ (lineHole source.toUTF8.data a).stop ≤ q) ∧
    ∀ a b : Hole, a.IsCode source.toList → b.IsCode source.toList → a.stop ≤ b.start →
      (lineHole source.toUTF8.data a).stop ≤ (lineHole source.toUTF8.data b).start ∧
      (lineHole source.toUTF8.data a).stop ≤ b.start ∧
      a.stop ≤ (lineHole source.toUTF8.data b).start := by
  refine ⟨fun a ha => ?_, fun a b ha hb apart => ?_⟩
  · obtain ⟨hstart, hstop⟩ := lineHole_contains source.toUTF8.data a
    refine ⟨?_, lineHole_cases _ a, fun k hk => ?_, fun k hk hout =>
      ?_, fun p q hp hpa haq hq => ?_⟩
    · obtain ⟨_, hfirst, _⟩ := ha.first.byte
      exact lineHole?_eq_some (Nat.le_of_lt (Array.getElem?_eq_some_iff.mp hfirst).1)
    · rw [Hole.covers_iff] at hk ⊢
      omega
    · rw [Hole.covers_iff] at hk
      rcases Nat.lt_or_ge k a.start with hbefore | hge
      · obtain ⟨byte, hbyte, hindent⟩ := lineHole_adds_before hk.1 hbefore
        exact ⟨byte, hbyte, .inl (by simp [isTrailing, hindent])⟩
      · have hbehind : a.stop ≤ k := by
          refine Nat.le_of_not_lt fun hlt => ?_
          rw [Hole.covers_iff.mpr ⟨hge, hlt⟩] at hout
          cases hout
        exact lineHole_adds_behind hbehind hk.2
    · exact ⟨hp.le_lineHole hpa, hq.lineHole_le haq⟩
  · exact ⟨lineHole_le_lineHole ha hb apart, hb.first.lineHole_le apart, ha.last.le_lineHole apart⟩

/-- A block whose two calls stand alone on their lines, the first line ending with a carriage
return. -/
def lonelyCalls : String :=
  "\x7b\r\n  \u00e9();\r\n\tb();\n\x7d"

theorem lineHole_spares_code_lonelyCalls :
    (Hole.mk 5 10).IsCode lonelyCalls.toList ∧ (Hole.mk 13 17).IsCode lonelyCalls.toList ∧
      EndsCode lonelyCalls.toList 1 ∧ StartsCode lonelyCalls.toList 18 ∧
      lineHole lonelyCalls.toUTF8.data ⟨5, 10⟩ = ⟨3, 12⟩ ∧
      lineHole lonelyCalls.toUTF8.data ⟨13, 17⟩ = ⟨12, 18⟩ ∧
      lineHole? lonelyCalls.toUTF8.data ⟨5, 10⟩ = some (lineHole lonelyCalls.toUTF8.data ⟨5, 10⟩) ∧
      1 ≤ (lineHole lonelyCalls.toUTF8.data ⟨5, 10⟩).start ∧
      (lineHole lonelyCalls.toUTF8.data ⟨5, 10⟩).stop ≤ 18 ∧
      (lineHole lonelyCalls.toUTF8.data ⟨5, 10⟩).stop ≤
        (lineHole lonelyCalls.toUTF8.data ⟨13, 17⟩).start := by
  have hfirst : (Hole.mk 5 10).IsCode lonelyCalls.toList :=
    ⟨⟨'\u00e9', by decide +kernel, by decide⟩, 9, ';', by decide +kernel, by decide, rfl⟩
  have hsecond : (Hole.mk 13 17).IsCode lonelyCalls.toList :=
    ⟨⟨'b', by decide +kernel, by decide⟩, 16, ';', by decide +kernel, by decide, rfl⟩
  have hopen : EndsCode lonelyCalls.toList 1 := ⟨0, '\x7b', by decide +kernel, by decide, rfl⟩
  have hclose : StartsCode lonelyCalls.toList 18 := ⟨'\x7d', by decide +kernel, by decide⟩
  obtain ⟨hreads, _, _, _, hbetween⟩ := (lineHole_spares_code lonelyCalls).1 _ hfirst
  obtain ⟨hleft, hright⟩ := hbetween 1 18 hopen (by decide) (by decide) hclose
  exact ⟨hfirst, hsecond, hopen, hclose, by decide +kernel, by
    decide +kernel, hreads, hleft, hright,
    ((lineHole_spares_code lonelyCalls).2 _ _ hfirst hsecond (by decide)).1⟩

end CoverageReplay
