import CoverageReplay.Text.Blank
import CoverageReplay.Text.Number
import Mathlib.Data.Nat.Digits.Defs

/-!
# Texts read back

A number that is written in decimal is read as that number, with or without zeros in front
(`digits?_decimal`, `digitsFrom?_replicate`). A text that is split at a sign falls apart where the
sign stands first (`splitFirst_append`), and the bytes of a text are the bytes of that text
(`fromUTF8?_toUTF8`).
-/

namespace CoverageReplay.Text

variable {c sep : Char} {cs before after : List Char} {n : Nat}

/-! ## Digits -/

/-- A digit is read as what it counts. -/
theorem digit?_of_isDigit (h : c.isDigit) : digit? c = some (c.toNat - '0'.toNat) := by
  have hbounds : '0' ≤ c ∧ c ≤ '9' := by
    simp only [Char.isDigit, Bool.and_eq_true, decide_eq_true_eq] at h
    exact h
  rw [digit?, if_pos hbounds]

/-- Digits are read as the number that they are the digits of. -/
theorem digitsFrom?_eq (h : ∀ c ∈ cs, c.isDigit) :
    digitsFrom? n cs = some (Nat.ofDigitChars 10 cs n) := by
  induction cs generalizing n with
  | nil => rfl
  | cons c cs ih =>
    rw [digitsFrom?, digit?_of_isDigit (h c List.mem_cons_self), Nat.ofDigitChars_cons]
    exact ih fun d hd => h d (List.mem_cons_of_mem c hd)

theorem isDigit_of_mem_decimal (h : c ∈ decimal n) : c.isDigit :=
  Nat.isDigit_of_mem_toDigits (by omega) (by omega) h

/-- A number is got back from its digits. -/
theorem digitsFrom?_decimal (n : Nat) : digitsFrom? 0 (decimal n) = some n := by
  rw [digitsFrom?_eq fun _ =>
    isDigit_of_mem_decimal, decimal, Nat.ofDigitChars_toDigits (by omega) (by omega)]

theorem digits?_decimal (n : Nat) : digits? (decimal n) = some n := by
  have hsome : (decimal n).isEmpty = false := List.isEmpty_eq_false_iff.mpr Nat.toDigits_ne_nil
  rw [digits?, hsome, if_neg Bool.false_ne_true, digitsFrom?_decimal]

/-- Zeros in front do not count. -/
theorem digitsFrom?_replicate (zeros : Nat) (cs : List Char) :
    digitsFrom? 0 (List.replicate zeros '0' ++ cs) = digitsFrom? 0 cs := by
  induction zeros with
  | zero => rfl
  | succ zeros ih => exact ih

/-! ## Splitting -/

/-- A text falls apart at the first sign. -/
theorem splitFirst_append (h : sep ∉ before) :
    splitFirst sep (before ++ sep :: after) = some (before, after) := by
  induction before with
  | nil => rw [List.nil_append, splitFirst, if_pos rfl]
  | cons c before ih =>
    rw [List.mem_cons, not_or] at h
    rw [List.cons_append, splitFirst, if_neg (Ne.symm h.1), ih h.2]
    rfl

/-- What a text falls apart into makes up the text again. -/
theorem eq_of_splitFirst (h : splitFirst sep cs = some (before, after)) :
    cs = before ++ sep :: after := by
  induction cs generalizing before with
  | nil => cases h
  | cons c cs ih =>
    rw [splitFirst] at h
    split at h
    next hsep =>
      cases h
      rw [hsep, List.nil_append]
    next =>
      obtain ⟨⟨before', after'⟩, hrest, heq⟩ := Option.map_eq_some_iff.mp h
      cases heq
      rw [ih hrest, List.cons_append]

/-! ## Bytes -/

/-- The bytes of a text are read as it. -/
theorem fromUTF8?_toUTF8 (s : String) : String.fromUTF8? s.toUTF8 = some s := by
  have hvalid : s.toUTF8.IsValidUTF8 := s.isValidUTF8
  rw [String.fromUTF8?, dif_pos hvalid]
  rfl

end CoverageReplay.Text
