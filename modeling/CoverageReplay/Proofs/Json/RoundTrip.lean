import CoverageReplay.Json.Reader
import CoverageReplay.Json.Writer
import CoverageReplay.Proofs.Text

/-!
# Documents read back

A value that is written on one line or on several is read as that value (`Json.read?_compact`,
`Json.read?_pretty`), if its numbers are in the form of numbers and it has no garbled part
(`Json.Proper`). Texts may hold any characters.

The two ways of writing differ in the blanks between marks, their `Spacing`, which the reader skips.
It stops where a value ends because of what a writer puts there: after a value comes the end of the
text, a comma, a closing mark or a blank, and none of them goes on with a number (`Ends`).
-/

namespace CoverageReplay.Json

variable {c : Char} {cs rest : List Char}

/-! ## Texts -/

theorem hexDigit?_digitChar {n : Nat} (h : n < 16) : hexDigit? (Nat.digitChar n) = some n := by
  have hall : ∀ d < 16, hexDigit? (Nat.digitChar d) = some d := by decide
  exact hall n h

/-- A control character is got back from its code. -/
theorem hexUnit?_digitChar {n : Nat} (h : n < 32) :
    hexUnit? '0' '0' (Nat.digitChar (n / 16)) (Nat.digitChar (n % 16)) = some n := by
  have hzero : hexDigit? '0' = some 0 := by decide
  unfold hexUnit?
  rw [hzero, hexDigit?_digitChar (by omega), hexDigit?_digitChar (Nat.mod_lt n (by omega))]
  show some _ = some n
  congr 1
  omega

/-- An escaped character is read as the one it names. -/
theorem readUnits_escape {letter named : Char} (h : escaped? letter = some named)
    (rest : List Char) :
    readUnits ('\\' :: letter :: rest) = (readUnits rest).map fun p =>
      (named.toNat :: p.1, p.2) := by
  have hletter : letter ≠ 'u' := by
    rintro rfl
    cases h
  rw [readUnits, h]
  · cases readUnits rest with
    | none => rfl
    | some => rfl
  · intro _ _ _ _ _ heq _
    exact hletter heq

/-- A character that needs no escape is read as itself. -/
theorem readUnits_plain (hquote : c ≠ '"') (hslash : c ≠ '\\') (hplain : ¬ c.toNat < 32)
    (rest : List Char) :
    readUnits (c :: rest) = (readUnits rest).map fun p => (c.toNat :: p.1, p.2) := by
  have hstay : (c.toNat < 32 || c = '\\') = false := by
    simp [hplain, hslash]
  rw [readUnits, hstay, if_neg Bool.false_ne_true]
  · cases readUnits rest with
    | none => rfl
    | some => rfl
  · exact hquote
  · exact fun _ _ _ _ _ heq _ => hslash heq
  · exact fun _ _ heq _ => hslash heq

/-- A character is read as its code point, however it is written. -/
theorem readUnits_writeChar (c : Char) (rest : List Char) :
    readUnits (writeChar c ++ rest) = (readUnits rest).map fun p => (c.toNat :: p.1, p.2) := by
  unfold writeChar
  -- Seven characters have an escape of a single letter.
  iterate 7
    split
    next hchar => rw [hchar]; exact readUnits_escape rfl rest
  split
  next hcontrol =>
    simp only [List.cons_append, List.nil_append]
    rw [readUnits, hexUnit?_digitChar hcontrol]
    cases readUnits rest with
    | none => rfl
    | some => rfl
  next hquote hslash _ _ _ _ _ hplain => exact readUnits_plain hquote hslash hplain rest

/-- What is written for a text is read as its characters, up to the quote behind them. -/
theorem readUnits_writeText (cs rest : List Char) :
    readUnits (cs.flatMap writeChar ++ '"' :: rest) = some (cs.map Char.toNat, rest) := by
  induction cs with
  | nil => rfl
  | cons c cs ih =>
    rw [List.flatMap_cons, List.append_assoc, readUnits_writeChar, ih, Option.map_some,
      List.map_cons]

/-- No character is half a surrogate pair. -/
theorem not_half (c : Char) : isHighHalf c.toNat = false ∧ isLowHalf c.toNat = false := by
  have hvalid : c.toNat < 0xD800 ∨ 0xDFFF < c.toNat ∧ c.toNat < 0x110000 := c.valid
  unfold isHighHalf isLowHalf
  simp only [Bool.and_eq_false_iff, decide_eq_false_iff_not]
  omega

/-- Code points of characters are joined to these characters. -/
theorem joinUnits_map_toNat (cs : List Char) : joinUnits (cs.map Char.toNat) = some cs := by
  induction cs with
  | nil => rfl
  | cons c cs ih =>
    obtain ⟨hhigh, hlow⟩ := not_half c
    cases cs with
    | nil => simp [joinUnits, hhigh, hlow]
    | cons d ds =>
      rw [List.map_cons] at ih
      rw [List.map_cons, List.map_cons, joinUnits, hhigh, hlow, ih]
      simp

/-! ## Numbers -/

/-- Whether a number has the form of a number: digits before the point, without superfluous zeros,
and digits where else they are written. -/
structure Number.Proper (n : Number) : Prop where
  whole : ∀ c ∈ n.whole, isDigit c
  some_whole : n.whole ≠ []
  no_zero : n.whole.head? = some '0' → n.whole.length = 1
  fraction : ∀ c ∈ n.fraction, isDigit c
  exponent : ∀ negative digits, n.exponent = some (negative, digits) →
    digits ≠ [] ∧ ∀ c ∈ digits, isDigit c

/-- What may follow a value: a comma, a closing mark or a blank. -/
def endMarks : List Char := [',', ']', '\x7d', ' ', '\t', '\n', '\r']

/-- Whether a value may end in front of a text: the text is over, or goes on with what may follow a
value. -/
def Ends (rest : List Char) : Prop := ∀ c, rest.head? = some c → c ∈ endMarks

theorem ends_nil : Ends [] := nofun

/-- What may follow a value may stand in front of anything. -/
theorem ends_cons (h : c ∈ endMarks) : Ends (c :: rest) := by
  intro d hd
  rw [List.head?_cons, Option.some.injEq] at hd
  rwa [← hd]

/-- Digits are read up to what is no digit. -/
theorem readDigits_append (h : ∀ c ∈ cs, isDigit c)
    (stop : ∀ c, rest.head? = some c → isDigit c = false) :
    readDigits (cs ++ rest) = (cs, rest) := by
  have hrest : rest.takeWhile isDigit = [] ∧ rest.dropWhile isDigit = rest := by
    cases rest with
    | nil => exact ⟨rfl, rfl⟩
    | cons c rest =>
      have hc := stop c rfl
      rw [List.takeWhile_cons_of_neg (by rw [hc]; exact Bool.false_ne_true),
        List.dropWhile_cons_of_neg (by rw [hc]; exact Bool.false_ne_true)]
      exact ⟨rfl, rfl⟩
  rw [readDigits, List.takeWhile_append_of_pos h, List.dropWhile_append_of_pos h, hrest.1, hrest.2,
    List.append_nil]

/-- What follows a value does not go on with a number. -/
theorem Ends.not_number (h : Ends rest) (hc : rest.head? = some c) :
    isDigit c = false ∧ c ≠ '.' ∧ c ≠ 'e' ∧ c ≠ 'E' := by
  have hmark := h c hc
  simp only [endMarks, List.mem_cons, List.not_mem_nil, or_false] at hmark
  rcases hmark with rfl | rfl | rfl | rfl | rfl | rfl | rfl
  · decide
  · decide
  · decide
  · decide
  · decide
  · decide
  · decide

/-- An exponent as it is written. -/
def writeExponent : Option (Bool × List Char) → List Char
  | none => []
  | some (negative, digits) => 'e' :: (if negative then '-' else '+') :: digits

/-- What is written for an exponent is read as it. -/
theorem readExponent_write {exponent : Option (Bool × List Char)}
    (h : ∀ negative digits, exponent = some (negative, digits) →
      digits ≠ [] ∧ ∀ c ∈ digits, isDigit c)
    (ends : Ends rest) : readExponent (writeExponent exponent ++ rest) = some (exponent, rest) := by
  have hletter {c : Char} (hc : rest.head? = some c) : c ≠ 'e' ∧ c ≠ 'E' := (ends.not_number hc).2.2
  match exponent with
  | none =>
    rw [writeExponent, List.nil_append]
    unfold readExponent
    split
    all_goals first
      | rfl
      | exact absurd rfl (hletter rfl).1
      | exact absurd rfl (hletter rfl).2
  | some (negative, digits) =>
    obtain ⟨hsome, hdigits⟩ := h negative digits rfl
    have hread : readExponentDigits negative (digits ++ rest) =
        some (some (negative, digits), rest) := by
      unfold readExponentDigits
      rw [readDigits_append hdigits fun _ hc => (ends.not_number hc).1]
      simp [hsome]
    cases negative with
    | true => exact hread
    | false => exact hread

/-- What is written for a fraction is read as it. -/
theorem readFraction_write {fraction : List Char} (h : ∀ c ∈ fraction, isDigit c)
    (stop : ∀ c, rest.head? = some c → isDigit c = false ∧ c ≠ '.') :
    readFraction ((if fraction.isEmpty then [] else '.' :: fraction) ++ rest) =
      some (fraction, rest) := by
  cases fraction with
  | nil =>
    rw [List.isEmpty_nil, if_pos rfl, List.nil_append]
    unfold readFraction
    split
    next => exact absurd rfl (stop _ rfl).2
    next => rfl
  | cons d ds =>
    rw [List.isEmpty_cons, if_neg Bool.false_ne_true, List.cons_append, readFraction,
      readDigits_append h fun c hc => (stop c hc).1]
    rfl

/-- What is written for a number without its sign is read as it. -/
theorem readUnsigned_write {n : Number} (h : n.Proper) (ends : Ends rest) :
    readUnsigned n.negative (n.whole ++ ((if n.fraction.isEmpty then [] else '.' :: n.fraction) ++
      (writeExponent n.exponent ++ rest))) = some (n, rest) := by
  -- After the digits before the point come a point, the letter of an exponent, or the end.
  have hexponent : ∀ c, (writeExponent n.exponent ++ rest).head? = some c →
      isDigit c = false ∧ c ≠ '.' := by
    intro c hc
    cases hexp : n.exponent with
    | none =>
      rw [hexp, writeExponent, List.nil_append] at hc
      exact ⟨(ends.not_number hc).1, (ends.not_number hc).2.1⟩
    | some e =>
      rw [hexp, writeExponent, List.cons_append, List.head?_cons, Option.some.injEq] at hc
      subst hc
      decide
  have hfraction : ∀ c, ((if n.fraction.isEmpty then [] else '.' :: n.fraction) ++
      (writeExponent n.exponent ++ rest)).head? = some c → isDigit c = false := by
    intro c hc
    split at hc
    next =>
      rw [List.nil_append] at hc
      exact (hexponent c hc).1
    next =>
      rw [List.cons_append, List.head?_cons, Option.some.injEq] at hc
      subst hc
      decide
  have hwhole : (n.whole.isEmpty || (n.whole.head? = some '0' && n.whole.length ≠ 1)) = false := by
    have hzero := h.no_zero
    have hsome := h.some_whole
    simp_all
  unfold readUnsigned
  rw [readDigits_append h.whole hfraction]
  simp only [hwhole, Bool.false_eq_true, if_false]
  rw [readFraction_write h.fraction hexponent]
  simp only [Option.bind_eq_bind, Option.bind_some, readExponent_write h.exponent ends]
  rfl

/-- A number is read as it is written. -/
theorem readNumber_write {n : Number} (h : n.Proper) (ends : Ends rest) :
    readNumber (writeNumber n ++ rest) = some (n, rest) := by
  have hread := readUnsigned_write h ends
  have hwrite : writeNumber n = (if n.negative then ['-'] else []) ++ n.whole ++
      (if n.fraction.isEmpty then [] else '.' :: n.fraction) ++ writeExponent n.exponent := by
    unfold writeNumber writeExponent
    rfl
  rw [hwrite]
  cases hnegative : n.negative with
  | true =>
    rw [hnegative] at hread
    simpa [readNumber] using hread
  | false =>
    rw [hnegative] at hread
    cases hchars : n.whole with
    | nil => exact absurd hchars h.some_whole
    | cons d ds =>
      -- The sign is read only if it is there: no digit is a hyphen.
      have hd : d ≠ '-' := by
        rintro rfl
        exact absurd (h.whole '-' (by rw [hchars]; exact List.mem_cons_self)) (by decide)
      rw [hchars] at hread
      simp only [List.nil_append, List.cons_append, List.append_assoc, Bool.false_eq_true,
        if_false] at hread ⊢
      rw [readNumber]
      · exact hread
      · exact fun _ heq => hd (List.cons.inj heq).1

/-! ## Blanks -/

theorem skipBlanks_cons (h : isBlank c = false) (cs : List Char) : skipBlanks (c :: cs) = c :: cs :=
  List.dropWhile_cons_of_neg (by rw [h]; exact Bool.false_ne_true)

theorem skipBlanks_append {front : List Char} (h : ∀ c ∈ front, isBlank c) (cs : List Char) :
    skipBlanks (front ++ cs) = skipBlanks cs :=
  List.dropWhile_append_of_pos h

/-- A new line consists of blanks. -/
theorem isBlank_newLine (level : Nat) : ∀ c ∈ newLine level, isBlank c := by
  intro c hc
  rcases List.mem_cons.mp hc with rfl | hc
  · rfl
  · rw [List.eq_of_mem_replicate hc]
    rfl

section Blanks

variable {cs' : List Char} (h : skipBlanks cs = skipBlanks cs')

include h

/-- Blanks in front of a value do not count. -/
theorem readValue_congr (fuel : Nat) : readValue fuel cs = readValue fuel cs' := by
  cases fuel with
  | zero => rw [readValue, readValue]
  | succ fuel => rw [readValue, readValue, h]

theorem readItems_congr (fuel : Nat) : readItems fuel cs = readItems fuel cs' := by
  cases fuel with
  | zero => rw [readItems, readItems]
  | succ fuel => rw [readItems, readItems, readValue_congr h]

theorem readFields_congr (fuel : Nat) : readFields fuel cs = readFields fuel cs' := by
  cases fuel with
  | zero => rw [readFields, readFields]
  | succ fuel => rw [readFields, readFields, h]

end Blanks

/-! ## Spacing -/

/-- The blanks that a writer puts between marks. -/
structure Spacing where
  /-- In front of an item, a field or a closing mark that is so many steps in. -/
  gap : Nat → List Char
  /-- Behind a colon. -/
  colon : List Char
  gap_blank : ∀ level, ∀ c ∈ gap level, isBlank c
  colon_blank : ∀ c ∈ colon, isBlank c

namespace Spacing

/-- All on one line. -/
def none : Spacing := ⟨fun _ => [], [], nofun, nofun⟩

/-- Every item and every field on a line of its own. -/
def lines : Spacing := ⟨newLine, [' '], isBlank_newLine, fun _ hc => List.mem_singleton.mp hc ▸ rfl⟩

end Spacing

mutual

/-- A value with some spacing, `level` steps in. -/
def spell (s : Spacing) (level : Nat) : Json → List Char
  | .null => "null".toList
  | .bool true => "true".toList
  | .bool false => "false".toList
  | .number n => writeNumber n
  | .text t => writeText t
  | .array [] => ['[', ']']
  | .array (v :: others) =>
    '[' :: (spellItems s (level + 1) (v :: others) ++ (s.gap level ++ [']']))
  | .object [] => ['\x7b', '\x7d']
  | .object (f :: others) =>
    '\x7b' :: (spellFields s (level + 1) (f :: others) ++ (s.gap level ++ ['\x7d']))
  | .garbled => "null".toList

/-- The items of an array, separated by commas. -/
def spellItems (s : Spacing) (level : Nat) : List Json → List Char
  | [] => []
  | [v] => s.gap level ++ v.spell s level
  | v :: w :: others => s.gap level ++ (v.spell s level ++ ',' :: spellItems s level (w :: others))

/-- The fields of an object, separated by commas. -/
def spellFields (s : Spacing) (level : Nat) : List (String × Json) → List Char
  | [] => []
  | [(key, v)] => s.gap level ++ (writeText key ++ ':' :: (s.colon ++ v.spell s level))
  | (key, v) :: f :: others =>
    s.gap level ++ (writeText key ++ ':' :: (s.colon ++ (v.spell s level ++
      ',' :: spellFields s level (f :: others))))

end

/-! ### What the writers put between marks -/

mutual

/-- What is written in one line is spelt without gaps. -/
theorem write_eq_spell (level : Nat) : ∀ v : Json, v.write = v.spell .none level
  | .null => rfl
  | .bool true => rfl
  | .bool false => rfl
  | .number _ => rfl
  | .text _ => rfl
  | .array [] => rfl
  | .array (v :: others) => by
    have hitems := writeItems_eq_spell (level + 1) (v :: others) (List.cons_ne_nil _ _)
    rw [writeItems, List.cons_append, List.cons.injEq] at hitems
    show '[' :: v.write ++ writeItems others ++ [']'] = _
    rw [List.cons_append, List.cons_append, hitems.2]
    rfl
  | .object [] => rfl
  | .object ((key, v) :: others) => by
    have hfields := writeFields_eq_spell (level + 1) ((key, v) :: others) (List.cons_ne_nil _ _)
    rw [writeFields, List.cons_append, List.cons_append, List.cons.injEq] at hfields
    show '\x7b' :: writeText key ++ ':' :: v.write ++ writeFields others ++ ['\x7d'] =
      '\x7b' :: (spellFields .none (level + 1) ((key, v) :: others) ++ ([] ++ ['\x7d']))
    rw [← hfields.2]
    simp
  | .garbled => rfl

/-- A value on one line is spelled without blanks. -/
theorem writeItems_eq_spell (level : Nat) :
    ∀ items : List Json, items ≠ [] → writeItems items = ',' :: spellItems .none level items
  | [], h => absurd rfl h
  | [v], _ => by
    rw [writeItems, writeItems, write_eq_spell level v, spellItems, List.append_nil]
    rfl
  | v :: w :: others, _ => by
    rw [writeItems, write_eq_spell level v,
      writeItems_eq_spell level (w :: others) (List.cons_ne_nil _ _), spellItems]
    rfl

/-- The fields behind the first one are spelt after a comma. -/
theorem writeFields_eq_spell (level : Nat) : ∀ fields : List (String × Json), fields ≠ [] →
    writeFields fields = ',' :: spellFields .none level fields
  | [], h => absurd rfl h
  | [(key, v)], _ => by
    rw [writeFields, writeFields, write_eq_spell level v, spellFields, List.append_nil]
    rfl
  | (key, v) :: f :: others, _ => by
    rw [writeFields, write_eq_spell level v,
      writeFields_eq_spell level (f :: others) (List.cons_ne_nil _ _), spellFields]
    simp [Spacing.none]

end

mutual

/-- What is written on many lines is spelt with new lines for gaps. -/
theorem writeIndented_eq_spell (level : Nat) :
    ∀ v : Json, v.writeIndented level = v.spell .lines level
  | .null => rfl
  | .bool true => rfl
  | .bool false => rfl
  | .number _ => rfl
  | .text _ => rfl
  | .array [] => rfl
  | .array (v :: others) => by
    have hitems := writeIndentedItems_eq_spell (level + 1) (v :: others) (List.cons_ne_nil _ _)
    rw [writeIndentedItems, List.cons_append, List.cons_append, List.cons.injEq] at hitems
    show '[' :: newLine (level + 1) ++ v.writeIndented (level + 1) ++
      writeIndentedItems (level + 1) others ++ newLine level ++ [']'] =
      '[' :: (spellItems .lines (level + 1) (v :: others) ++ (newLine level ++ [']']))
    rw [← hitems.2]
    simp
  | .object [] => rfl
  | .object ((key, v) :: others) => by
    have hfields :=
      writeIndentedFields_eq_spell (level + 1) ((key, v) :: others) (List.cons_ne_nil _ _)
    rw [writeIndentedFields, List.cons_append, List.cons_append, List.cons_append, List.cons_append,
      List.cons.injEq] at hfields
    show '\x7b' :: newLine (level + 1) ++ writeText key ++ ": ".toList ++
      v.writeIndented (level + 1) ++ writeIndentedFields (level + 1) others ++
        newLine level ++ ['\x7d'] =
      '\x7b' :: (spellFields .lines (level + 1) ((key, v) :: others) ++ (newLine level ++ ['\x7d']))
    rw [← hfields.2]
    simp
  | .garbled => rfl

/-- A value on several lines is spelled with new lines and a blank behind each colon. -/
theorem writeIndentedItems_eq_spell (level : Nat) : ∀ items : List Json, items ≠ [] →
    writeIndentedItems level items = ',' :: spellItems .lines level items
  | [], h => absurd rfl h
  | [v], _ => by
    rw [writeIndentedItems, writeIndentedItems, writeIndented_eq_spell level v, spellItems,
      List.append_nil]
    rfl
  | v :: w :: others, _ => by
    rw [writeIndentedItems, writeIndented_eq_spell level v,
      writeIndentedItems_eq_spell level (w :: others) (List.cons_ne_nil _ _), spellItems]
    simp [Spacing.lines]

/-- The fields behind the first one are spelt after a comma, on lines of their own. -/
theorem writeIndentedFields_eq_spell (level : Nat) : ∀ fields : List (String × Json), fields ≠ [] →
    writeIndentedFields level fields = ',' :: spellFields .lines level fields
  | [], h => absurd rfl h
  | [(key, v)], _ => by
    rw [writeIndentedFields, writeIndentedFields, writeIndented_eq_spell level v, spellFields,
      List.append_nil]
    simp [Spacing.lines]
  | (key, v) :: f :: others, _ => by
    rw [writeIndentedFields, writeIndented_eq_spell level v,
      writeIndentedFields_eq_spell level (f :: others) (List.cons_ne_nil _ _), spellFields]
    simp [Spacing.lines]

end

/-! ## Values -/

mutual

/-- Whether a value has numbers in the form of numbers and no garbled part. -/
def Proper : Json → Prop
  | .number n => n.Proper
  | .array items => ProperItems items
  | .object fields => ProperFields fields
  | .garbled => False
  | _ => True

/-- Whether all of some values are proper. -/
def ProperItems : List Json → Prop
  | [] => True
  | v :: rest => v.Proper ∧ ProperItems rest

/-- Whether the values of all of some fields are proper. -/
def ProperFields : List (String × Json) → Prop
  | [] => True
  | (_, v) :: rest => v.Proper ∧ ProperFields rest

end

/-- A number starts with its sign or with a digit. -/
theorem exists_writeNumber {n : Number} (h : n.Proper) :
    ∃ c cs, writeNumber n = c :: cs ∧ (c = '-' ∨ isDigit c) := by
  cases hnegative : n.negative with
  | true => exact ⟨'-', _, by simp only [writeNumber, hnegative]; rfl, .inl rfl⟩
  | false =>
    cases hwhole : n.whole with
    | nil => exact absurd hwhole h.some_whole
    | cons d ds =>
      refine ⟨d, _, by simp only [writeNumber, hnegative, hwhole]; rfl, .inr (h.whole d ?_)⟩
      rw [hwhole]
      exact List.mem_cons_self

/-- No other sign than a hyphen or a digit starts a number. -/
theorem ne_of_startsNumber {d : Char} (h : c = '-' ∨ isDigit c)
    (other : d ≠ '-' ∧ isDigit d = false) : c ≠ d := by
  rintro rfl
  rcases h with rfl | hdigit
  · exact other.1 rfl
  · rw [other.2] at hdigit
    cases hdigit

theorem isBlank_of_startsNumber (h : c = '-' ∨ isDigit c) : isBlank c = false := by
  have hother {d : Char} (hd : d ≠ '-' ∧ isDigit d = false) : c ≠ d := ne_of_startsNumber h hd
  simp only [isBlank, Bool.or_eq_false_iff, decide_eq_false_iff_not]
  exact ⟨⟨⟨hother (by decide), hother (by decide)⟩, hother (by decide)⟩, hother (by decide)⟩

/-- What is written of a value starts neither with a blank nor with a closing bracket. -/
theorem exists_spell (s : Spacing) {v : Json} (h : v.Proper) (level : Nat) :
    ∃ c cs, v.spell s level = c :: cs ∧ isBlank c = false ∧ c ≠ ']' := by
  cases v with
  | null => exact ⟨'n', _, rfl, rfl, by decide⟩
  | bool b =>
    cases b with
    | false => exact ⟨_, _, rfl, rfl, by decide⟩
    | true => exact ⟨_, _, rfl, rfl, by decide⟩
  | number n =>
    obtain ⟨c, cs, hwrite, hc⟩ := exists_writeNumber h
    exact ⟨c, cs, hwrite, isBlank_of_startsNumber hc, ne_of_startsNumber hc (by decide)⟩
  | text t => exact ⟨'"', _, rfl, rfl, by decide⟩
  | array items =>
    cases items with
    | nil => exact ⟨'[', _, rfl, rfl, by decide⟩
    | cons => exact ⟨'[', _, rfl, rfl, by decide⟩
  | object fields =>
    cases fields with
    | nil => exact ⟨'\x7b', _, rfl, rfl, by decide⟩
    | cons f rest => exact ⟨'\x7b', _, rfl, rfl, by decide⟩
  | garbled => cases h

/-- What starts like a number is read as a number. -/
theorem readValue_number (h : c = '-' ∨ isDigit c) (fuel : Nat) (cs : List Char) :
    readValue (fuel + 1) (c :: cs) = (readNumber (c :: cs)).map fun p => (.number p.1, p.2) := by
  rw [readValue, skipBlanks_cons (isBlank_of_startsNumber h)]
  split
  all_goals first
    | rfl
    | rename_i heq
      exact absurd (List.cons.inj heq).1 (ne_of_startsNumber h (by decide))

/-- A list that is not empty is read item by item. -/
theorem readValue_array (hblank : isBlank c = false) (hclose : c ≠ ']') (fuel : Nat)
    {inner : List Char} (h : skipBlanks inner = c :: cs) :
    readValue (fuel + 1) ('[' :: inner) = (readItems fuel inner).map fun p =>
      (.array p.1, p.2) := by
  have hsame : skipBlanks inner = skipBlanks (c :: cs) := by rw [h, skipBlanks_cons hblank]
  rw [readValue, skipBlanks_cons rfl, readItems_congr hsame]
  simp only [h]
  split
  next heq => exact absurd (List.cons.inj heq).1 hclose
  next => rfl

/-- An object that is not empty is read field by field. -/
theorem readValue_object (fuel : Nat) {inner : List Char} (h : skipBlanks inner = '"' :: cs) :
    readValue (fuel + 1) ('\x7b' :: inner) = (readFields fuel inner).map fun p =>
      (ofFields p.1, p.2) := by
  have hsame : skipBlanks inner = skipBlanks ('"' :: cs) := by rw [h, skipBlanks_cons rfl]
  rw [readValue, skipBlanks_cons rfl, readFields_congr hsame]
  simp only [h]
  rfl

theorem ofUnits_map_toNat (s : String) : ofUnits (s.toList.map Char.toNat) = .text s := by
  rw [ofUnits, joinUnits_map_toNat]
  simp only [String.ofList_toList]

/-- Fields whose keys are texts make an object. -/
theorem ofFields_map (fields : List (String × Json)) :
    ofFields (fields.map fun f => (some f.1, f.2)) = .object fields := by
  have hall : (fields.map fun f => (some f.1, f.2)).mapM
      (fun (f : Option String × Json) => f.1.map (·, f.2)) = some fields := by
    induction fields with
    | nil => rfl
    | cons f rest ih => rw [List.map_cons, List.mapM_cons, ih]; rfl
  rw [ofFields, hall]

/-- The items of a list begin with a gap and the first of them. -/
theorem exists_spellItems (s : Spacing) (level : Nat) (v : Json) (others : List Json) :
    ∃ more, spellItems s level (v :: others) = s.gap level ++ (v.spell s level ++ more) := by
  cases others with
  | nil => exact ⟨[], by rw [spellItems, List.append_nil]⟩
  | cons w others => exact ⟨_, by rw [spellItems]⟩

/-- The fields of an object begin with a gap and a quote. -/
theorem exists_spellFields (s : Spacing) (level : Nat) (key : String) (v : Json)
    (others : List (String × Json)) :
    ∃ more, spellFields s level ((key, v) :: others) = s.gap level ++ '"' :: more := by
  cases others with
  | nil => exact ⟨_, by rw [spellFields, writeText, List.cons_append, List.cons_append]⟩
  | cons => exact ⟨_, by rw [spellFields, writeText, List.cons_append, List.cons_append]⟩

/-- A value may end in front of a gap with a closing mark behind it. -/
theorem ends_gap (s : Spacing) (level : Nat) {close : Char} (h : close ∈ endMarks)
    (rest : List Char) :
    Ends (s.gap level ++ close :: rest) := by
  have hblank := s.gap_blank level
  cases hgap : s.gap level with
  | nil => exact ends_cons h
  | cons c cs =>
    rw [hgap] at hblank
    have hc := hblank c List.mem_cons_self
    simp only [isBlank, Bool.or_eq_true, decide_eq_true_eq] at hc
    refine ends_cons ?_
    rcases hc with ((rfl | rfl) | rfl) | rfl
    · decide
    · decide
    · decide
    · decide

/-- The last item of a list is read up to the bracket. -/
theorem readItems_last {fuel : Nat} {cs : List Char} {v : Json} (s : Spacing) (level : Nat)
    (h : readValue fuel cs = some (v, s.gap level ++ ']' :: rest)) :
    readItems (fuel + 1) cs = some ([v], rest) := by
  rw [readItems, h]
  simp only [Option.bind_eq_bind, Option.bind_some, skipBlanks_append (s.gap_blank level),
    skipBlanks_cons (c := ']') rfl]
  rfl

/-- Any other item is read up to the comma, then come the others. -/
theorem readItems_next {fuel : Nat} {cs : List Char} {v : Json}
    (h : readValue fuel cs = some (v, ',' :: rest)) :
    readItems (fuel + 1) cs = (readItems fuel rest).map fun p => (v :: p.1, p.2) := by
  rw [readItems, h]
  show (readItems fuel rest).bind (fun p => some (v :: p.1, p.2)) = _
  cases readItems fuel rest with
  | none => rfl
  | some => rfl

/-- The name of a field is read before its value. -/
theorem readFields_key (s : Spacing) (fuel : Nat) (key : String) (cs : List Char) :
    readFields (fuel + 1) (writeText key ++ ':' :: (s.colon ++ cs)) =
      (readValue fuel cs).bind fun p => match skipBlanks p.2 with
        | '\x7d' :: rest => some ([(some key, p.1)], rest)
        | ',' :: rest => (readFields fuel rest).bind fun q => some ((some key, p.1) :: q.1, q.2)
        | _ => none := by
  have hkey := readUnits_writeText key.toList (':' :: (s.colon ++ cs))
  have hcolon : readValue fuel (s.colon ++ cs) = readValue fuel cs :=
    readValue_congr (skipBlanks_append s.colon_blank cs) fuel
  rw [writeText, List.append_assoc, List.singleton_append, List.cons_append, readFields,
    skipBlanks_cons rfl]
  simp only [hkey, Option.bind_eq_bind, Option.bind_some, joinUnits_map_toNat, Option.map_some,
    String.ofList_toList, skipBlanks_cons (c := ':') rfl, hcolon]
  rfl

mutual

/-- What is spelt for a value is read as it, whatever the spacing and the level. -/
theorem readValue_spell (s : Spacing) :
    ∀ (v : Json) (_ : v.Proper) (level fuel : Nat) (rest : List Char), Ends rest →
      (v.spell s level).length ≤ fuel → readValue fuel (v.spell s level ++ rest) = some (v, rest)
  | v, h, level, 0, rest, _, hfuel => by
    obtain ⟨c, cs, hwrite, _⟩ := exists_spell s h level
    rw [hwrite] at hfuel
    cases hfuel
  | .null, _, level, fuel + 1, rest, _, _ => by
    rw [readValue]
    rfl
  | .bool true, _, level, fuel + 1, rest, _, _ => by
    rw [readValue]
    rfl
  | .bool false, _, level, fuel + 1, rest, _, _ => by
    rw [readValue]
    rfl
  | .number n, h, level, fuel + 1, rest, ends, _ => by
    obtain ⟨c, cs, hwrite, hc⟩ := exists_writeNumber h
    have hread := readNumber_write h ends
    rw [spell, hwrite, List.cons_append, readValue_number hc, ← List.cons_append, ← hwrite, hread]
    rfl
  | .text t, _, level, fuel + 1, rest, _, _ => by
    have hread := readUnits_writeText t.toList rest
    rw [spell, writeText, List.cons_append, List.cons_append, List.append_assoc, readValue,
      skipBlanks_cons rfl]
    show (readUnits (t.toList.flatMap writeChar ++ '"' :: rest)).map (fun p =>
      (ofUnits p.1, p.2)) = _
    rw [hread, Option.map_some, ofUnits_map_toNat]
  | .array [], _, level, fuel + 1, rest, _, _ => by
    rw [readValue]
    rfl
  | .array (v :: others), h, level, fuel + 1, rest, _, hfuel => by
    rw [spell, List.length_cons, List.length_append, List.length_append,
      List.length_singleton] at hfuel
    have hread :=
      readItems_spell s (v :: others) h (level + 1) level fuel rest (List.cons_ne_nil _ _)
      (by omega)
    obtain ⟨c, cs, hstart, hblank, hclose⟩ := exists_spell s h.1 (level + 1)
    obtain ⟨more, hitems⟩ := exists_spellItems s (level + 1) v others
    have hskip :
      skipBlanks (spellItems s (level + 1) (v :: others) ++ (s.gap level ++ ']' :: rest)) =
        c :: (cs ++ more ++ (s.gap level ++ ']' :: rest)) := by
      rw [hitems, List.append_assoc, skipBlanks_append (s.gap_blank _), hstart, List.cons_append,
        List.cons_append, skipBlanks_cons hblank]
    rw [spell, List.cons_append, List.append_assoc, List.append_assoc, List.singleton_append,
      readValue_array hblank hclose fuel hskip, hread, Option.map_some]
  | .object [], _, level, fuel + 1, rest, _, _ => by
    rw [readValue]
    rfl
  | .object ((key, v) :: others), h, level, fuel + 1, rest, _, hfuel => by
    rw [spell, List.length_cons, List.length_append, List.length_append,
      List.length_singleton] at hfuel
    have hread := readFields_spell s ((key, v) :: others) h (level + 1) level fuel rest
      (List.cons_ne_nil _ _) (by omega)
    obtain ⟨more, hfields⟩ := exists_spellFields s (level + 1) key v others
    have hskip : skipBlanks (spellFields s (level + 1) ((key, v) :: others) ++
        (s.gap level ++ '\x7d' :: rest)) = '"' :: (more ++ (s.gap level ++ '\x7d' :: rest)) := by
      rw [hfields, List.append_assoc, skipBlanks_append (s.gap_blank _), List.cons_append,
        skipBlanks_cons rfl]
    rw [spell, List.cons_append, List.append_assoc, List.append_assoc, List.singleton_append,
      readValue_object fuel hskip, hread, Option.map_some, ofFields_map]

theorem readItems_spell (s : Spacing) :
    ∀ (items : List Json) (_ : ProperItems items) (level outer fuel : Nat) (rest : List Char),
      items ≠ [] → (spellItems s level items).length < fuel →
      readItems fuel (spellItems s level items ++ (s.gap outer ++ ']' :: rest)) = some (items, rest)
  | [], _, _, _, _, _, hsome, _ => absurd rfl hsome
  | _ :: _, _, _, _, 0, _, _, hfuel => absurd hfuel (Nat.not_lt_zero _)
  | [v], h, level, outer, fuel + 1, rest, _, hfuel => by
    rw [spellItems, List.length_append] at hfuel
    have hvalue := readValue_spell s v h.1 level fuel (s.gap outer ++ ']' :: rest)
      (ends_gap s outer (by decide) rest) (by omega)
    rw [spellItems, List.append_assoc, readItems_congr (skipBlanks_append (s.gap_blank level) _),
      readItems_last s outer hvalue]
  | v :: w :: others, h, level, outer, fuel + 1, rest, _, hfuel => by
    rw [spellItems, List.length_append, List.length_append, List.length_cons] at hfuel
    have hvalue := readValue_spell s v h.1 level fuel
      (',' :: (spellItems s level (w :: others) ++ (s.gap outer ++ ']' :: rest)))
      (ends_cons (by decide))
      (by omega)
    have hread :=
      readItems_spell s (w :: others) h.2 level outer fuel rest (List.cons_ne_nil _ _) (by omega)
    rw [spellItems, List.append_assoc, List.append_assoc, List.cons_append,
      readItems_congr (skipBlanks_append (s.gap_blank level) _), readItems_next hvalue, hread,
        Option.map_some]

theorem readFields_spell (s : Spacing) :
    ∀ (fields : List (String × Json)) (_ : ProperFields fields) (level outer fuel : Nat)
      (rest : List Char), fields ≠ [] → (spellFields s level fields).length < fuel →
      readFields fuel (spellFields s level fields ++ (s.gap outer ++ '\x7d' :: rest)) =
        some (fields.map fun f => (some f.1, f.2), rest)
  | [], _, _, _, _, _, hsome, _ => absurd rfl hsome
  | _ :: _, _, _, _, 0, _, _, hfuel => absurd hfuel (Nat.not_lt_zero _)
  | [(key, v)], h, level, outer, fuel + 1, rest, _, hfuel => by
    rw [spellFields] at hfuel
    simp only [List.length_append, List.length_cons] at hfuel
    have hvalue := readValue_spell s v h.1 level fuel (s.gap outer ++ '\x7d' :: rest)
      (ends_gap s outer (by decide) rest) (by omega)
    rw [spellFields, List.append_assoc, List.append_assoc, List.cons_append, List.append_assoc,
      readFields_congr (skipBlanks_append (s.gap_blank level) _), readFields_key, hvalue,
      Option.bind_some, skipBlanks_append (s.gap_blank outer), skipBlanks_cons rfl]
    rfl
  | (key, v) :: f :: others, h, level, outer, fuel + 1, rest, _, hfuel => by
    rw [spellFields] at hfuel
    simp only [List.length_append, List.length_cons] at hfuel
    have hvalue := readValue_spell s v h.1 level fuel
      (',' :: (spellFields s level (f :: others) ++ (s.gap outer ++ '\x7d' :: rest)))
      (ends_cons (by decide))
      (by omega)
    have hread :=
      readFields_spell s (f :: others) h.2 level outer fuel rest (List.cons_ne_nil _ _) (by omega)
    rw [spellFields, List.append_assoc, List.append_assoc, List.cons_append, List.append_assoc,
      List.append_assoc, List.cons_append,
        readFields_congr (skipBlanks_append (s.gap_blank level) _),
      readFields_key, hvalue, Option.bind_some, skipBlanks_cons rfl]
    show (readFields fuel (spellFields s level (f :: others) ++
      (s.gap outer ++ '\x7d' :: rest))).bind (fun q => some ((some key, v) :: q.1, q.2)) = _
    rw [hread, Option.bind_some]
    rfl

end

/-- A text that spells a value is read as it. -/
theorem read?_spell (s : Spacing) {v : Json} (h : v.Proper) :
    readChars? (v.spell s 0) = some v := by
  have hread := readValue_spell s v h 0 (2 * (v.spell s 0).length + 2) [] ends_nil (by omega)
  rw [List.append_nil] at hread
  rw [readChars?, hread]
  rfl

/-- A document on one line is read as the value that was written. -/
theorem read?_compact {v : Json} (h : v.Proper) : read? v.compact = some v := by
  rw [read?, compact, String.toList_ofList, write_eq_spell 0, read?_spell _ h]

/-- A document on several lines is read as the value that was written. -/
theorem read?_pretty {v : Json} (h : v.Proper) : read? v.pretty = some v := by
  rw [read?, pretty, String.toList_ofList, writeIndented_eq_spell, read?_spell _ h]

end CoverageReplay.Json
