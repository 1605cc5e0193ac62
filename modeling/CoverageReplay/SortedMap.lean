/-!
# Maps in key order

A map is the list of its entries in increasing order of their keys, each key once. Two maps that are
built by `alter` and agree on every key are the same list, which makes equality of maps plain
equality.
-/

namespace CoverageReplay

/-- A finite map, kept as entries in key order. -/
structure SortedMap (κ α : Type) where
  entries : List (κ × α)
  deriving DecidableEq, Repr

namespace SortedMap

variable {κ α β : Type}

instance : Inhabited (SortedMap κ α) := ⟨⟨[]⟩⟩

/-- The map without entries. -/
def empty : SortedMap κ α := ⟨[]⟩

/-- The number of entries. -/
def size (m : SortedMap κ α) : Nat := m.entries.length

/-- The keys in order. -/
def keys (m : SortedMap κ α) : List κ := m.entries.map Prod.fst

/-- The values in the order of their keys. -/
def values (m : SortedMap κ α) : List α := m.entries.map Prod.snd

variable [DecidableEq κ]

/-- The value of a key among some entries. -/
def find? (k : κ) : List (κ × α) → Option α
  | [] => none
  | (key, a) :: rest => if key = k then some a else find? k rest

/-- The value of a key. -/
def get? (m : SortedMap κ α) (k : κ) : Option α := find? k m.entries

/-- Whether a key has a value. -/
def contains (m : SortedMap κ α) (k : κ) : Bool := (m.get? k).isSome

variable [LT κ] [DecidableLT κ]

/-- Sets the value of a key among entries in order, from the value it had. -/
def alterEntries (k : κ) (f : Option α → α) : List (κ × α) → List (κ × α)
  | [] => [(k, f none)]
  | (key, a) :: rest =>
    if key = k then (key, f (some a)) :: rest
    else if k < key then (k, f none) :: (key, a) :: rest
    else (key, a) :: alterEntries k f rest

/-- Sets the value of a key, from the value it had. -/
def alter (m : SortedMap κ α) (k : κ) (f : Option α → α) : SortedMap κ α :=
  ⟨alterEntries k f m.entries⟩

/-- Sets the value of a key. -/
def insert (m : SortedMap κ α) (k : κ) (a : α) : SortedMap κ α :=
  m.alter k fun _ => a

/-- The map of some entries; the last entry of a key wins. -/
def ofList (entries : List (κ × α)) : SortedMap κ α :=
  entries.foldl (fun m e => m.insert e.1 e.2) empty

end SortedMap

end CoverageReplay
