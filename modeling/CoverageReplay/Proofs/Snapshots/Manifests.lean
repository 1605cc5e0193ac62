import CoverageReplay.Proofs.Json.RoundTrip
import CoverageReplay.Snapshots.Manifest
import Mathlib.Data.List.Basic

/-!
# Manifests read back

A manifest that was written is read as itself, unless an index of it has more than 64 bits: such an
index is written, but not read (`Manifest.parse?_render`).
-/

namespace CoverageReplay

namespace Json

/-! ## Counts and rows -/

/-- No number but zero has a zero in front. -/
theorem head?_toDigits {n : Nat} (h : n ≠ 0) : (Nat.toDigits 10 n).head? ≠ some '0' := by
  induction n using Nat.strongRecOn with
  | ind n ih =>
    rw [Nat.toDigits_eq_if (by omega)]
    split
    next hsmall =>
      have hall : ∀ d < 10, d ≠ 0 → [Nat.digitChar d].head? ≠ some '0' := by decide
      exact hall n hsmall h
    next hlarge =>
      rw [List.head?_append_of_ne_nil _ Nat.toDigits_ne_nil]
      exact ih (n / 10) (by omega) (by omega)

/-- A number is written in the form of a number. -/
theorem proper_ofNat (n : Nat) : (ofNat n).Proper := by
  refine ⟨fun c hc => ?_, Nat.toDigits_ne_nil, fun hzero => ?_, nofun, nofun⟩
  · have hdigit := Text.isDigit_of_mem_decimal hc
    simp only [Char.isDigit, Bool.and_eq_true, decide_eq_true_eq] at hdigit
    simp only [isDigit, Bool.and_eq_true, decide_eq_true_eq]
    exact hdigit
  · by_cases hn : n = 0
    · subst hn
      rfl
    · exact absurd hzero (head?_toDigits hn)

/-- Proper values make proper items. -/
theorem proper_items {items : List Json} (h : ∀ v ∈ items, v.Proper) : ProperItems items := by
  induction items with
  | nil => exact trivial
  | cons v rest ih =>
    rw [List.forall_mem_cons] at h
    exact ⟨h.1, ih h.2⟩

theorem proper_ofList {α : Type} {f : α → Json} {xs : List α} (h : ∀ x ∈ xs, (f x).Proper) :
    (ofList f xs).Proper :=
  proper_items (List.forall_mem_map.mpr h)

/-- A count is read if it has at most 64 bits. -/
theorem count?_ofNat (n : Nat) : count? (ofNat n) = if n < 2 ^ 64 then some n else none := by
  have hdigits : Text.digits? (Nat.toDigits 10 n) = some n := Text.digits?_decimal n
  unfold count? nat? ofNat
  simp only [hdigits, Option.bind_some]
  split
  next hle => rw [if_pos (by omega)]
  next hlt => rw [if_neg (by omega)]

/-- A row is read if each of its values is. -/
theorem list?_ofList {α : Type} {f : α → Json} {item? : Json → Option α} (readable : α → Prop)
    [DecidablePred readable] {xs : List α}
    (h : ∀ x ∈ xs, item? (f x) = if readable x then some x else none) :
    list? item? (ofList f xs) = if ∀ x ∈ xs, readable x then some xs else none := by
  unfold ofList list?
  simp only
  induction xs with
  | nil => rfl
  | cons x xs ih =>
    rw [List.forall_mem_cons] at h
    rw [List.map_cons, List.mapM_cons, h.1, ih h.2]
    by_cases hx : readable x
    · by_cases hxs : ∀ y ∈ xs, readable y
      · rw [if_pos hx, if_pos hxs, if_pos (List.forall_mem_cons.mpr ⟨hx, hxs⟩)]
        rfl
      · rw [if_pos hx, if_neg hxs, if_neg fun hall => hxs (List.forall_mem_cons.mp hall).2]
        rfl
    · rw [if_neg hx, if_neg fun hall => hx (List.forall_mem_cons.mp hall).1]
      rfl

/-- A list is read back item by item. -/
theorem list?_ofList_all {α : Type} {f : α → Json} {item? : Json → Option α} {xs : List α}
    (h : ∀ x ∈ xs, item? (f x) = some x) : list? item? (ofList f xs) = some xs := by
  have hread := list?_ofList (fun _ => True) fun x hx => (h x hx).trans (if_pos trivial).symm
  rwa [if_pos fun _ _ => trivial] at hread

end Json

open Json

theorem textsToJson_proper (ts : List String) : (textsToJson ts).Proper :=
  proper_ofList fun _ _ => trivial

theorem list?_textsToJson (ts : List String) : list? text? (textsToJson ts) = some ts :=
  list?_ofList_all fun _ _ => rfl

theorem SortStrategy.ofJson?_toJson (s : SortStrategy) : ofJson? s.toJson = some s := by
  cases s with
  | hardcoded | raw | netNew | importance => rfl

namespace ManifestEntry

theorem proper_toJson (e : ManifestEntry) : e.toJson.Proper :=
  ⟨proper_ofNat e.index, trivial, trivial, textsToJson_proper e.files, trivial⟩

/-- An entry is read back if its index is a word. -/
theorem ofJson?_toJson (e : ManifestEntry) :
    ofJson? e.toJson = if e.index < 2 ^ 64 then some e else none := by
  have hfields : record? ["index", "label", "dir", "files"] e.toJson =
      some [some (.ofNat e.index), some (.text e.label), some (.text e.dir),
        some (textsToJson e.files)] := rfl
  unfold ofJson?
  rw [hfields]
  simp only [Option.bind_eq_bind, Option.bind_some, need, count?_ofNat, list?_textsToJson, text?]
  split
  next => rfl
  next => rfl

end ManifestEntry

namespace Manifest

theorem proper_toJson (m : Manifest) : m.toJson.Proper :=
  ⟨trivial, trivial, textsToJson_proper m.tests, proper_ofList fun e _ => e.proper_toJson, trivial⟩

/-- Whether all indices of a manifest have at most 64 bits. -/
def Readable (m : Manifest) : Prop := ∀ e ∈ m.snapshots, e.index < 2 ^ 64

instance (m : Manifest) : Decidable m.Readable :=
  inferInstanceAs (Decidable (∀ e ∈ m.snapshots, e.index < 2 ^ 64))

/-- A manifest is read back exactly if all its indices are words. -/
theorem ofJson?_toJson (m : Manifest) : ofJson? m.toJson = if m.Readable then some m else none := by
  have hfields : record? ["package", "sort", "tests", "snapshots"] m.toJson =
      some [some (.text m.package), some m.sort.toJson, some (textsToJson m.tests),
        some (Json.ofList ManifestEntry.toJson m.snapshots)] := rfl
  have hsnapshots : list? ManifestEntry.ofJson? (Json.ofList ManifestEntry.toJson m.snapshots) =
      if m.Readable then some m.snapshots else none :=
    list?_ofList (fun e : ManifestEntry => e.index < 2 ^ 64) fun e _ => e.ofJson?_toJson
  unfold ofJson?
  rw [hfields]
  simp only [Option.bind_eq_bind, Option.bind_some, need, SortStrategy.ofJson?_toJson,
    list?_textsToJson, text?, hsnapshots]
  split
  next => rfl
  next => rfl

/-- A manifest is read as it was written, unless an index is too large. -/
theorem parse?_render (m : Manifest) :
    parse? m.render = if m.Readable then .ok m else .error (.json "not a manifest") := by
  unfold parse? render
  rw [read?_pretty m.proper_toJson, Option.bind_some, ofJson?_toJson]
  by_cases hreadable : m.Readable
  · rw [if_pos hreadable, if_pos hreadable]
  · rw [if_neg hreadable, if_neg hreadable]

/-- Whoever reads a manifest reads the one that was written. -/
theorem eq_of_parse?_render {m m' : Manifest} (h : parse? m.render = .ok m') : m' = m := by
  rw [parse?_render] at h
  split at h
  next => exact (Except.ok.inj h).symm
  next => cases h

end Manifest

end CoverageReplay
