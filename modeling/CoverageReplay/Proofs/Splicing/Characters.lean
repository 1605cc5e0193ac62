import CoverageReplay.Text.Blank
import CoverageReplay.Tree.LineHole
import CoverageReplay.Tree.Splice

/-!
# Characters and the bytes they begin at

Holes are counted in bytes, the text that is copied consists of characters. `charAt?` names a
character by the byte it begins at. Two facts tie bytes to characters: an ASCII byte is a character
of its own (`charAt?_of_ascii`), and so widening a hole to whole lines neither cuts a character in
two nor takes one that shows (`lineHole_spec`).
-/

namespace CoverageReplay

/-- The character of a text that begins at a byte. -/
def charAt? : List Char → Nat → Option Char
  | [], _ => none
  | c :: cs, n =>
    if n = 0 then some c else if c.utf8Size ≤ n then charAt? cs (n - c.utf8Size) else none

/-- Whether a character that is not blank begins at a byte. -/
def IsVisible (cs : List Char) (n : Nat) : Prop :=
  ∃ c, charAt? cs n = some c ∧ Text.isBlank c = false

instance (cs : List Char) (n : Nat) : Decidable (IsVisible cs n) :=
  decidable_of_iff ((charAt? cs n).any fun c => Text.isBlank c = false)
    (by simp [IsVisible, Option.any_eq_true])

/-- Whether a hole takes the byte at which a character begins. -/
def Hole.covers (h : Hole) (n : Nat) : Bool :=
  h.start ≤ n && n < h.stop

theorem Hole.covers_iff {h : Hole} {n : Nat} : h.covers n ↔ h.start ≤ n ∧ n < h.stop := by
  simp [covers]

/-- A byte outside a hole is not covered. -/
theorem Hole.covers_eq_false {h : Hole} {n : Nat} (outside : n < h.start ∨ h.stop ≤ n) :
    h.covers n = false := by
  refine Bool.eq_false_iff.mpr fun hcovers => ?_
  rw [covers_iff] at hcovers
  omega

theorem Hole.fits_iff {h : Hole} {cs : List Char} :
    h.fits cs ↔ h.start ≤ h.stop ∧ isBoundary cs h.start ∧ isBoundary cs h.stop := by
  rw [fits, Bool.and_eq_true, Bool.and_eq_true, decide_eq_true_eq, and_assoc]

section Boundary

variable {cs : List Char} {n : Nat} {c : Char}

@[simp] theorem isBoundary_zero (cs : List Char) : isBoundary cs 0 = true := by
  cases cs with
  | nil => rfl
  | cons => rfl

/-- A boundary behind the first character is one of the rest. -/
theorem isBoundary_cons (h : n ≠ 0) :
    isBoundary (c :: cs) n = (decide (c.utf8Size ≤ n) && isBoundary cs (n - c.utf8Size)) := by
  cases n with
  | zero => exact absurd rfl h
  | succ n => rfl

/-- Each character begins at a boundary. -/
theorem isBoundary_of_charAt? (h : charAt? cs n = some c) : isBoundary cs n = true := by
  induction cs generalizing n with
  | nil => cases h
  | cons d cs ih =>
    by_cases hzero : n = 0
    · rw [hzero]
      exact isBoundary_zero _
    · rw [charAt?, if_neg hzero] at h
      split at h
      next hsize =>
        rw [isBoundary_cons hzero, ih h, Bool.and_true]
        exact decide_eq_true hsize
      next => cases h

/-- A character ends on a boundary. -/
theorem isBoundary_after (h : charAt? cs n = some c) : isBoundary cs (n + c.utf8Size) = true := by
  induction cs generalizing n with
  | nil => cases h
  | cons d cs ih =>
    rw [charAt?] at h
    split at h
    next hzero =>
      injection h with hdc
      rw [hzero, hdc, Nat.zero_add, isBoundary_cons (Nat.ne_of_gt c.utf8Size_pos), Nat.sub_self]
      simp
    next hzero =>
      split at h
      next hsize =>
        rw [isBoundary_cons (by omega), Nat.sub_add_comm hsize, ih h, Bool.and_true]
        exact decide_eq_true (by omega)
      next => cases h

end Boundary

/-! ## ASCII bytes -/

/-- A byte below 128 in the encoding of a character is all of it. -/
theorem encoding_of_ascii {c : Char} {b : UInt8} (h : b ∈ String.utf8EncodeChar c)
    (ascii : b.toNat < 128) : c.utf8Size = 1 ∧ c.toNat = b.toNat := by
  have hlength := String.length_utf8EncodeChar c
  have hval : c.toNat = c.val.toNat := rfl
  simp only [String.utf8EncodeChar] at h hlength
  split at h
  next hsmall =>
    rw [if_pos hsmall] at hlength
    rw [List.mem_singleton.mp h, UInt8.toNat_ofNat']
    exact ⟨hlength.symm, by omega⟩
  next =>
    -- All bytes of the longer encodings have their highest bit set.
    exfalso
    split at h
    next =>
      simp only [List.mem_cons, List.not_mem_nil, or_false] at h
      rcases h with rfl | rfl
      · rw [UInt8.toNat_ofNat'] at ascii
        omega
      · rw [UInt8.toNat_ofNat'] at ascii
        omega
    next =>
      split at h
      next =>
        simp only [List.mem_cons, List.not_mem_nil, or_false] at h
        rcases h with rfl | rfl | rfl
        · rw [UInt8.toNat_ofNat'] at ascii
          omega
        · rw [UInt8.toNat_ofNat'] at ascii
          omega
        · rw [UInt8.toNat_ofNat'] at ascii
          omega
      next =>
        simp only [List.mem_cons, List.not_mem_nil, or_false] at h
        rcases h with rfl | rfl | rfl | rfl
        · rw [UInt8.toNat_ofNat'] at ascii
          omega
        · rw [UInt8.toNat_ofNat'] at ascii
          omega
        · rw [UInt8.toNat_ofNat'] at ascii
          omega
        · rw [UInt8.toNat_ofNat'] at ascii
          omega

/-- The bytes of a text, read at a byte below 128, give the character that begins there. -/
theorem charAt?_of_byte {cs : List Char} {n : Nat} {b : UInt8}
    (h : (cs.flatMap String.utf8EncodeChar)[n]? = some b) (ascii : b.toNat < 128) :
    ∃ c, charAt? cs n = some c ∧ c.toNat = b.toNat ∧ c.utf8Size = 1 := by
  induction cs generalizing n with
  | nil => simp at h
  | cons d cs ih =>
    rw [List.flatMap_cons] at h
    by_cases hlt : n < d.utf8Size
    · rw [List.getElem?_append_left (by rwa [String.length_utf8EncodeChar])] at h
      obtain ⟨hsize, hnat⟩ := encoding_of_ascii (List.mem_of_getElem? h) ascii
      exact ⟨d, by rw [charAt?, if_pos (by omega)], hnat, hsize⟩
    · rw [List.getElem?_append_right (by rw [String.length_utf8EncodeChar]; omega),
        String.length_utf8EncodeChar] at h
      obtain ⟨c, hc, hnat⟩ := ih h
      have hpos := d.utf8Size_pos
      exact ⟨c, by rw [charAt?, if_neg (by omega), if_pos (by omega), hc], hnat⟩

/-- A byte below 128 of a source is a character of its own. -/
theorem charAt?_of_ascii {source : String} {n : Nat} {b : UInt8}
    (h : source.toUTF8.data[n]? = some b) (ascii : b.toNat < 128) :
    ∃ c, charAt? source.toList n = some c ∧ c.toNat = b.toNat ∧ c.utf8Size = 1 := by
  rw [String.toUTF8_eq_toByteArray, ← String.utf8Encode_toList, List.utf8Encode,
    List.data_toByteArray, List.getElem?_toArray] at h
  exact charAt?_of_byte h ascii

/-! ## Whole lines -/

/-- The bytes that a hole is widened over. -/
def isLineBlank (b : UInt8) : Bool :=
  isTrailing b || b = 10

/-- The blanks of a line are those four bytes. -/
theorem toNat_of_isLineBlank {b : UInt8} (blank : isLineBlank b) :
    b.toNat = 32 ∨ b.toNat = 9 ∨ b.toNat = 13 ∨ b.toNat = 10 := by
  simp only [isLineBlank, isTrailing, isIndent, Bool.or_eq_true, decide_eq_true_eq] at blank
  rcases blank with ((rfl | rfl) | rfl) | rfl
  · decide
  · decide
  · decide
  · decide

section Lines

variable {source : String}

/-- A blank byte is a blank character. -/
theorem blank_of_byte {n : Nat} {b : UInt8} (h : source.toUTF8.data[n]? = some b)
    (blank : isLineBlank b) :
    ¬ IsVisible source.toList n ∧ isBoundary source.toList n ∧
      isBoundary source.toList (n + 1) := by
  have hb := toNat_of_isLineBlank blank
  obtain ⟨c, hc, hnat, hsize⟩ := charAt?_of_ascii h (by omega)
  refine ⟨fun h => ?_, isBoundary_of_charAt? hc, hsize ▸ isBoundary_after hc⟩
  obtain ⟨d, hd, hvisible⟩ := h
  rw [hc] at hd
  injection hd with hcd
  rw [← hcd, Text.isBlank, hnat] at hvisible
  rcases hb with hb | hb | hb | hb
  · simp [hb] at hvisible
  · simp [hb] at hvisible
  · simp [hb] at hvisible
  · simp [hb] at hvisible

/-- To the left a hole is widened to a boundary, over nothing that shows. -/
theorem indentStart_spec {n : Nat} (boundary : isBoundary source.toList n) :
    indentStart source.toUTF8.data n ≤ n ∧
      isBoundary source.toList (indentStart source.toUTF8.data n) ∧
      ∀ k, indentStart source.toUTF8.data n ≤ k → k < n → ¬ IsVisible source.toList k := by
  induction n with
  | zero => exact ⟨Nat.le_refl 0, isBoundary_zero _, fun k _ hk => absurd hk (Nat.not_lt_zero k)⟩
  | succ n ih =>
    rw [indentStart]
    cases hbyte : source.toUTF8.data[n]? with
    | none => exact ⟨Nat.le_refl _, boundary, fun k hle hlt => absurd hlt (Nat.not_lt.mpr hle)⟩
    | some b =>
      by_cases hindent : isIndent b
      · rw [Option.any_some, if_pos hindent]
        obtain ⟨hblank, hboundary, _⟩ :=
          blank_of_byte hbyte (by simp [isLineBlank, isTrailing, hindent])
        obtain ⟨hle, hstart, hnone⟩ := ih hboundary
        refine ⟨by omega, hstart, fun k hk hlt => ?_⟩
        rcases Nat.lt_succ_iff_lt_or_eq.mp hlt with hlt | rfl
        · exact hnone k hk hlt
        · exact hblank
      · rw [Option.any_some, if_neg hindent]
        exact ⟨Nat.le_refl _, boundary, fun k hle hlt => absurd hlt (Nat.not_lt.mpr hle)⟩

/-- To the right too. -/
theorem trailingEnd_spec (most : Nat) {n : Nat} (boundary : isBoundary source.toList n) :
    n ≤ trailingEnd source.toUTF8.data most n ∧
      isBoundary source.toList (trailingEnd source.toUTF8.data most n) ∧
      ∀ k, n ≤ k → k < trailingEnd source.toUTF8.data most n → ¬ IsVisible source.toList k := by
  induction most generalizing n with
  | zero => exact ⟨Nat.le_refl n, boundary, fun k hle hlt => absurd hlt (Nat.not_lt.mpr hle)⟩
  | succ most ih =>
    rw [trailingEnd]
    cases hbyte : source.toUTF8.data[n]? with
    | none => exact ⟨Nat.le_refl _, boundary, fun k hle hlt => absurd hlt (Nat.not_lt.mpr hle)⟩
    | some b =>
      by_cases htrailing : isTrailing b
      · rw [Option.any_some, if_pos htrailing]
        obtain ⟨hblank, _, hboundary⟩ := blank_of_byte hbyte (by simp [isLineBlank, htrailing])
        obtain ⟨hle, hstop, hnone⟩ := ih hboundary
        refine ⟨by omega, hstop, fun k hk hlt => ?_⟩
        rcases Nat.eq_or_lt_of_le hk with rfl | hk
        · exact hblank
        · exact hnone k hk hlt
      · rw [Option.any_some, if_neg htrailing]
        exact ⟨Nat.le_refl _, boundary, fun k hle hlt => absurd hlt (Nat.not_lt.mpr hle)⟩

/-- Of the characters that show, a widened hole takes those that the hole takes. -/
theorem lineHole_spec {h : Hole} (fits : h.fits source.toList) :
    (lineHole source.toUTF8.data h).fits source.toList ∧
      ∀ k, IsVisible source.toList k →
        ((lineHole source.toUTF8.data h).covers k ↔ h.covers k) := by
  obtain ⟨hle, hfirst, hlast⟩ := Hole.fits_iff.mp fits
  obtain ⟨hstart, hstartFits, hleft⟩ := indentStart_spec hfirst
  obtain ⟨hstop, hstopFits, hright⟩ := trailingEnd_spec source.toUTF8.data.size hlast
  -- The two ends that a hole can get differ by a line feed, which does not show either.
  have hwider : ∀ stop, h.stop ≤ stop → isBoundary source.toList stop →
      (∀ k, h.stop ≤ k → k < stop → ¬ IsVisible source.toList k) →
      (Hole.mk (indentStart source.toUTF8.data h.start) stop).fits source.toList ∧
        ∀ k, IsVisible source.toList k →
          ((Hole.mk (indentStart source.toUTF8.data h.start) stop).covers k ↔ h.covers k) := by
    intro stop hge hboundary hnone
    refine ⟨?_, fun k hvisible => ?_⟩
    · refine Hole.fits_iff.mpr ⟨?_, hstartFits, hboundary⟩
      show indentStart source.toUTF8.data h.start ≤ stop
      omega
    · rw [Hole.covers_iff, Hole.covers_iff]
      constructor
      · intro hk
        exact ⟨Nat.le_of_not_lt fun hlt => hleft k hk.1 hlt hvisible,
          Nat.lt_of_not_le fun hle => hnone k hle hk.2 hvisible⟩
      · intro hk
        obtain ⟨hk, hlt⟩ := hk
        exact ⟨Nat.le_trans hstart hk, Nat.lt_of_lt_of_le hlt hge⟩
  have hsame : h.fits source.toList ∧
      ∀ k, IsVisible source.toList k → (h.covers k ↔ h.covers k) := ⟨fits, fun _ _ => Iff.rfl⟩
  simp only [lineHole]
  split
  next => exact hsame
  next =>
    split
    next => exact hwider _ hstop hstopFits hright
    next b hbyte =>
      split
      next hfeed =>
        obtain ⟨hblank, _, hboundary⟩ := blank_of_byte hbyte (by simp [isLineBlank, hfeed])
        refine hwider _ (by omega) hboundary fun k hk hlt => ?_
        rcases Nat.lt_succ_iff_lt_or_eq.mp hlt with hlt | rfl
        · exact hright k hk hlt
        · exact hblank
      next => exact hsame

end Lines

end CoverageReplay
