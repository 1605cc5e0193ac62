import CoverageReplay.SortedMap
import Mathlib.Data.List.Induction
import Mathlib.Order.Defs.Unbundled

/-!
# What maps hold after a change

The two things there are to know of a map are the value of each key and the order of its keys.
Setting the value of one key changes no other (`get?_insert`, `get?_alter`) and adds at most that
key (`mem_keys_alter`), in its place if the keys were in order (`pairwise_keys_alter`). Maps with
the same keys and the same value for each are equal (`eq_of_get?_eq`).
-/

namespace CoverageReplay

namespace SortedMap

variable {κ α : Type}

@[simp] theorem keys_empty : (empty : SortedMap κ α).keys = [] := rfl

section Lookup

variable [DecidableEq κ]

/-- A value is found exactly for the keys that are listed. -/
theorem find?_isSome_iff {entries : List (κ × α)} {k : κ} :
    (find? k entries).isSome ↔ k ∈ entries.map Prod.fst := by
  induction entries with
  | nil => simp [find?]
  | cons e rest ih =>
    obtain ⟨key, a⟩ := e
    simp only [find?, List.map_cons, List.mem_cons]
    split
    next hkey => simp [hkey]
    next hkey => rw [ih, or_iff_right fun h => hkey h.symm]

/-- The keys are what has a value. -/
theorem contains_iff_mem_keys {m : SortedMap κ α} {k : κ} : m.contains k ↔ k ∈ m.keys :=
  find?_isSome_iff

theorem mem_keys_of_get? {m : SortedMap κ α} {k : κ} {a : α} (h : m.get? k = some a) :
    k ∈ m.keys := by
  rw [← contains_iff_mem_keys, contains, h]
  rfl

/-- What is found is an entry of the map. -/
theorem mem_of_get? {m : SortedMap κ α} {k : κ} {a : α} (h : m.get? k = some a) :
    (k, a) ∈ m.entries := by
  obtain ⟨entries⟩ := m
  simp only [get?] at h ⊢
  induction entries with
  | nil => cases h
  | cons e rest ih =>
    obtain ⟨key, b⟩ := e
    rw [find?] at h
    split at h
    next hkey =>
      injection h with h
      rw [hkey, h]
      exact List.mem_cons_self
    next => exact List.mem_cons_of_mem _ (ih h)

/-- An entry gives the value of its key if no key has two entries. -/
theorem get?_of_mem {m : SortedMap κ α} (distinct : m.keys.Nodup) {k : κ} {a : α}
    (h : (k, a) ∈ m.entries) : m.get? k = some a := by
  obtain ⟨entries⟩ := m
  simp only [keys, get?] at distinct h ⊢
  induction entries with
  | nil => cases h
  | cons e rest ih =>
    obtain ⟨key, b⟩ := e
    rw [List.map_cons, List.nodup_cons] at distinct
    rcases List.mem_cons.mp h with heq | hrest
    · injection heq with hk ha
      simp [find?, hk, ha]
    · have hne : key ≠ k := by
        intro heq
        rw [heq] at distinct
        exact distinct.1 (List.mem_map.mpr ⟨_, hrest, rfl⟩)
      rw [find?, if_neg hne]
      exact ih distinct.2 hrest

/-- Maps with the same keys in the same order and the same value for each are equal. -/
theorem eq_of_get?_eq {m m' : SortedMap κ α} (distinct : m.keys.Nodup) (keys : m.keys = m'.keys)
    (values : ∀ k ∈ m.keys, m.get? k = m'.get? k) : m = m' := by
  obtain ⟨entries⟩ := m
  obtain ⟨entries'⟩ := m'
  have hlength : entries.length = entries'.length := by
    have := congrArg List.length keys
    rwa [SortedMap.keys, SortedMap.keys, List.length_map, List.length_map] at this
  have distinct' : (SortedMap.mk entries').keys.Nodup := keys ▸ distinct
  congr 1
  refine List.ext_getElem hlength fun i hi hi' => ?_
  -- The entries at a place have the same key, which has one value in both maps.
  have hkey : entries[i].1 = entries'[i].1 := by
    have := congrArg (·[i]?) keys
    simpa [SortedMap.keys, hi, hi'] using this
  have hget : SortedMap.get? ⟨entries⟩ entries[i].1 = some entries[i].2 :=
    get?_of_mem distinct (List.getElem_mem hi)
  have hget' : SortedMap.get? ⟨entries'⟩ entries'[i].1 = some entries'[i].2 :=
    get?_of_mem distinct' (List.getElem_mem hi')
  rw [← hkey, ← values _ (List.mem_map_of_mem (List.getElem_mem hi)), hget] at hget'
  injection hget' with hvalue
  exact Prod.ext hkey hvalue

end Lookup

section Change

variable [DecidableEq κ] [LT κ] [DecidableLT κ]

/-- Changing a value leaves the other keys alone. -/
theorem find?_alterEntries_of_ne {entries : List (κ × α)} {k k' : κ} (f : Option α → α)
    (h : k ≠ k') : find? k' (alterEntries k f entries) = find? k' entries := by
  induction entries with
  | nil => simp [alterEntries, find?, h]
  | cons e rest ih =>
    obtain ⟨key, a⟩ := e
    simp only [alterEntries]
    split
    next hkey =>
      subst hkey
      simp [find?, h]
    next =>
      split
      next => rw [find?, if_neg h]
      next => rw [find?, find?, ih]

/-- A value that is set is found. -/
theorem find?_alterEntries_const {entries : List (κ × α)} {k : κ} {a : α} :
    find? k (alterEntries k (fun _ => a) entries) = some a := by
  induction entries with
  | nil => simp [alterEntries, find?]
  | cons e rest ih =>
    obtain ⟨key, b⟩ := e
    simp only [alterEntries]
    split
    next hkey => simp [find?, hkey]
    next hkey =>
      split
      next => simp [find?]
      next => rw [find?, if_neg hkey, ih]

/-- After setting the value of a key, it has that value and the others have the values they had. -/
theorem get?_insert (m : SortedMap κ α) (k k' : κ) (a : α) :
    (m.insert k a).get? k' = if k = k' then some a else m.get? k' := by
  split
  next h =>
    subst h
    exact find?_alterEntries_const
  next h => exact find?_alterEntries_of_ne _ h

/-- Setting a value sees the value that the key had, if the keys are in order. -/
theorem find?_alterEntries_self [Std.Irrefl (α := κ) (· < ·)] [IsTrans κ (· < ·)]
    {entries : List (κ × α)} {k : κ} (f : Option α → α)
    (sorted : (entries.map Prod.fst).Pairwise (· < ·)) :
    find? k (alterEntries k f entries) = some (f (find? k entries)) := by
  induction entries with
  | nil => simp [alterEntries, find?]
  | cons e rest ih =>
    obtain ⟨key, a⟩ := e
    rw [List.map_cons, List.pairwise_cons] at sorted
    obtain ⟨hkey, hrest⟩ := sorted
    unfold alterEntries
    by_cases hsame : key = k
    · simp [find?, hsame]
    · rw [if_neg hsame]
      by_cases hlt : k < key
      · -- All keys of the map come after the new one, so it had no value.
        have hnone : find? k rest = none := by
          rw [← Option.not_isSome_iff_eq_none, find?_isSome_iff]
          intro hmem
          exact irrefl_of (· < ·) k (trans_of (· < ·) hlt (hkey k hmem))
        simp [find?, hsame, hlt, hnone]
      · rw [if_neg hlt, find?, if_neg hsame, find?, if_neg hsame, ih hrest]

/-- After changing the value of a key, the others have the values they had. -/
theorem get?_alter [Std.Irrefl (α := κ) (· < ·)] [IsTrans κ (· < ·)] {m : SortedMap κ α}
    (sorted : m.keys.Pairwise (· < ·)) (k k' : κ) (f : Option α → α) :
    (m.alter k f).get? k' = if k = k' then some (f (m.get? k)) else m.get? k' := by
  by_cases h : k = k'
  · subst h
    rw [if_pos rfl]
    exact find?_alterEntries_self f sorted
  · rw [if_neg h]
    exact find?_alterEntries_of_ne f h

/-- Changing a value adds its key, unless it is there. -/
theorem mem_keys_alter {m : SortedMap κ α} {k x : κ} {f : Option α → α} :
    x ∈ (m.alter k f).keys ↔ x = k ∨ x ∈ m.keys := by
  obtain ⟨entries⟩ := m
  simp only [keys, alter]
  induction entries with
  | nil => simp [alterEntries]
  | cons e rest ih =>
    obtain ⟨key, a⟩ := e
    simp only [alterEntries]
    split
    next hkey => simp [hkey]
    next =>
      split
      next => simp
      next => rw [List.map_cons, List.mem_cons, ih, List.map_cons, List.mem_cons, or_left_comm]

/-- Keys that are in order stay so when a value is changed. -/
theorem pairwise_keys_alter [Std.Trichotomous (α := κ) (· < ·)] [IsTrans κ (· < ·)]
    {m : SortedMap κ α} (sorted : m.keys.Pairwise (· < ·)) (k : κ) (f : Option α → α) :
    (m.alter k f).keys.Pairwise (· < ·) := by
  obtain ⟨entries⟩ := m
  induction entries with
  | nil => exact List.pairwise_singleton _ _
  | cons e rest ih =>
    obtain ⟨key, a⟩ := e
    simp only [keys, List.map_cons, List.pairwise_cons] at sorted
    simp only [keys, alter, alterEntries]
    split
    next => simpa using sorted
    next hne =>
      split
      next hlt =>
        simp only [List.map_cons, List.pairwise_cons, List.mem_cons, forall_eq_or_imp]
        exact ⟨⟨hlt, fun x hx => IsTrans.trans _ _ _ hlt (sorted.1 x hx)⟩, sorted⟩
      next hnlt =>
        simp only [List.map_cons, List.pairwise_cons]
        refine ⟨fun x hx => ?_, ih sorted.2⟩
        rcases mem_keys_alter.mp hx with rfl | hrest
        · -- The changed key is neither this one nor in front of it, so it is behind.
          rcases trichotomous_of (· < ·) key x with h | h | h
          · exact h
          · exact absurd h hne
          · exact absurd h hnlt
        · exact sorted.1 x hrest

end Change

/-! ## Maps of lists -/

section OfList

variable [DecidableEq κ] [LT κ] [DecidableLT κ] {entries : List (κ × α)} {k : κ}

/-- The last entry is inserted into what the others give. -/
theorem ofList_concat (entries : List (κ × α)) (e : κ × α) :
    ofList (entries ++ [e]) = (ofList entries).insert e.1 e.2 := by
  rw [ofList, List.foldl_append]
  rfl

/-- The keys of a map are those of the entries it was made of. -/
theorem mem_keys_ofList : k ∈ (ofList entries).keys ↔ k ∈ entries.map Prod.fst := by
  induction entries using List.reverseRecOn with
  | nil => exact Iff.rfl
  | append_singleton entries e ih =>
    rw [ofList_concat, insert, mem_keys_alter, ih, List.map_append, List.mem_append,
      List.map_singleton, List.mem_singleton, or_comm]

/-- The keys of a map made of entries are in order. -/
theorem pairwise_keys_ofList [Std.Trichotomous (α := κ) (· < ·)] [IsTrans κ (· < ·)]
    (entries : List (κ × α)) :
    (ofList entries).keys.Pairwise (· < ·) := by
  induction entries using List.reverseRecOn with
  | nil => exact List.Pairwise.nil
  | append_singleton entries e ih =>
    rw [ofList_concat]
    exact pairwise_keys_alter ih _ _

/-- A key that comes after all others is put at the end. -/
theorem alterEntries_of_lt [Std.Irrefl (α := κ) (· < ·)] [IsTrans κ (· < ·)] (f : Option α → α)
    (h : ∀ e ∈ entries, e.1 < k) : alterEntries k f entries = entries ++ [(k, f none)] := by
  induction entries with
  | nil => rfl
  | cons e rest ih =>
    obtain ⟨key, a⟩ := e
    rw [List.forall_mem_cons] at h
    have hne : key ≠ k := fun heq => irrefl_of (· < ·) k (heq ▸ h.1)
    have hnlt : ¬ k < key := fun hlt => irrefl_of (· < ·) k (trans_of (· < ·) hlt h.1)
    rw [alterEntries, if_neg hne, if_neg hnlt, ih h.2, List.cons_append]

/-- A map in order is the map of its entries. -/
theorem ofList_entries [Std.Irrefl (α := κ) (· < ·)] [IsTrans κ (· < ·)] {m : SortedMap κ α}
    (sorted : m.keys.Pairwise (· < ·)) : ofList m.entries = m := by
  obtain ⟨entries⟩ := m
  induction entries using List.reverseRecOn with
  | nil => rfl
  | append_singleton entries e ih =>
    simp only [keys, List.map_append, List.pairwise_append, List.map_singleton, List.mem_singleton,
      List.forall_mem_map] at sorted
    obtain ⟨hfront, -, hlast⟩ := sorted
    rw [ofList_concat, ih hfront, insert, alter, alterEntries_of_lt _ fun d hd => hlast d hd _ rfl]

/-- The last entry of a key gives its value. -/
theorem get?_ofList (entries : List (κ × α)) (k : κ) :
    (ofList entries).get? k =
      ((entries.filter fun e => decide (e.1 = k)).getLast?).map Prod.snd := by
  induction entries using List.reverseRecOn with
  | nil => rfl
  | append_singleton entries e ih =>
    rw [ofList_concat, get?_insert, List.filter_append]
    by_cases hk : e.1 = k
    · simp [hk]
    · simp [hk, ih]

end OfList

end SortedMap

end CoverageReplay
