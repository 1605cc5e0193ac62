import CoverageReplay.Job.Id

/-!
# Identifiers and their texts

Statuses are stored under the written form of identifiers, so two jobs do not get in each other's
way as long as different identifiers have different texts. That is so for identifiers of sixteen
bytes (`eq_of_text_eq`): without the hyphens, a text is the digits of the bytes.
-/

namespace CoverageReplay.JobId

/-- Different digits are written differently. -/
theorem digitChar_inj {a b : Nat} (ha : a < 16) (hb : b < 16)
    (h : Nat.digitChar a = Nat.digitChar b) :
    a = b := by
  have hall : ∀ a b : Fin 16, Nat.digitChar a.val = Nat.digitChar b.val → a = b := by decide
  exact congrArg Fin.val (hall ⟨a, ha⟩ ⟨b, hb⟩ h)

theorem digitChar_ne_hyphen {a : Nat} (ha : a < 16) : Nat.digitChar a ≠ '-' := by
  have hall : ∀ a : Fin 16, Nat.digitChar a.val ≠ '-' := by decide
  exact hall ⟨a, ha⟩

/-- Different bytes are written differently. -/
theorem hexPair_inj {b b' : UInt8} (h : hexPair b = hexPair b') : b = b' := by
  have hb := b.toNat_lt
  have hb' := b'.toNat_lt
  injection h with hhigh hrest
  injection hrest with hlow
  have hhigh := digitChar_inj (by omega) (by omega) hhigh
  have hlow := digitChar_inj (by omega) (by omega) hlow
  exact UInt8.toNat_inj.mp (by omega)

/-- The digits of some bytes tell the bytes. -/
theorem flatMap_hexPair_inj {bytes bytes' : List UInt8}
    (h : bytes.flatMap hexPair = bytes'.flatMap hexPair) : bytes = bytes' := by
  induction bytes generalizing bytes' with
  | nil =>
    cases bytes' with
    | nil => rfl
    | cons b' rest' => cases h
  | cons b rest ih =>
    cases bytes' with
    | nil => cases h
    | cons b' rest' =>
      rw [List.flatMap_cons, List.flatMap_cons] at h
      obtain ⟨hpair, hrest⟩ := List.append_inj h rfl
      rw [hexPair_inj hpair, ih hrest]

/-- No hyphen comes from a byte. -/
theorem ne_hyphen_of_mem {bytes : List UInt8} {c : Char} (h : c ∈ bytes.flatMap hexPair) :
    c ≠ '-' := by
  obtain ⟨b, _, hc⟩ := List.mem_flatMap.mp h
  have hb := b.toNat_lt
  rcases List.mem_cons.mp hc with rfl | hc
  · exact digitChar_ne_hyphen (by omega)
  · rw [List.mem_singleton.mp hc]
    exact digitChar_ne_hyphen (by omega)

/-- A text without its hyphens. -/
theorem filter_text {id : JobId} (full : id.bytes.length = 16) :
    id.text.toList.filter (· ≠ '-') = id.bytes.flatMap hexPair := by
  have hdigits : ∀ bytes : List UInt8,
      (bytes.flatMap hexPair).filter (· ≠ '-') = bytes.flatMap hexPair := by
    intro bytes
    exact List.filter_eq_self.mpr fun c hc => decide_eq_true (ne_hyphen_of_mem hc)
  have hjoin : ∀ start count, ((id.bytes.drop start).take count) ++ id.bytes.drop (start + count) =
      id.bytes.drop start := by
    intro start count
    rw [← List.drop_drop, List.take_append_drop]
  have hlast : (id.bytes.drop 10).take 6 = id.bytes.drop 10 :=
    List.take_of_length_le (Nat.le_of_eq (by rw [List.length_drop, full]))
  have hbytes : id.bytes.take 4 ++ ((id.bytes.drop 4).take 2 ++ ((id.bytes.drop 6).take 2 ++
      ((id.bytes.drop 8).take 2 ++ (id.bytes.drop 10).take 6))) = id.bytes := by
    rw [hlast, hjoin 8 2, hjoin 6 2, hjoin 4 2, List.take_append_drop]
  have hhyphen : ∀ cs : List Char, ('-' :: cs).filter (· ≠ '-') = cs.filter (· ≠ '-') :=
    fun cs => List.filter_cons_of_neg (by decide)
  rw [text, String.toList_ofList]
  simp only [List.filter_append, hhyphen, hdigits, List.drop_zero, List.append_assoc,
    ← List.flatMap_append]
  rw [hbytes]

/-- Different identifiers of sixteen bytes have different texts. -/
theorem eq_of_text_eq {id id' : JobId} (full : id.bytes.length = 16) (full' : id'.bytes.length = 16)
    (h : id.text = id'.text) : id = id' := by
  have hbytes : id.bytes = id'.bytes := by
    refine flatMap_hexPair_inj ?_
    rw [← filter_text full, ← filter_text full', h]
  cases id
  cases id'
  rw [JobId.mk.injEq]
  exact hbytes

end CoverageReplay.JobId
