import CoverageReplay.Proofs.Files.Locations
import CoverageReplay.Proofs.Text
import CoverageReplay.Snapshots.Write
import Mathlib.Data.List.Nodup

/-!
# Names of what is kept

A snapshot directory has the name of a single entry: it has a hyphen and no slash, so it is neither
the directory itself nor the one above (`DirectoryName.isEntryName_of_isValid`). Directories of
different indices have different names, whatever their labels are
(`DirectoryName.index_of_ofLabel_eq`). A file is kept under the parts of its name, which do not lead
upwards (`PlacedFile.Sound`), and the files of a snapshot have different places
(`placeFiles_eq_ok`).
-/

namespace CoverageReplay

open Text

variable {name file dir root : String} {c : Char} {i j : Nat} {l : Location} {t : FileTree}

/-! ## Directories -/

/-- Whether a text is the name of an entry of a directory: a single name that does not lead
upwards. -/
structure IsEntryName (name : String) : Prop extends Path.IsName name where
  down : name ≠ ".."

/-- A name with a hyphen is none of the names that directories give themselves and those above. -/
theorem isEntryName_of_hyphen (hyphen : '-' ∈ name.toList) (whole : '/' ∉ name.toList) :
    IsEntryName name := by
  have hne (other : String) (hother : '-' ∉ other.toList) : name ≠ other := by
    rintro rfl
    exact hother hyphen
  refine ⟨⟨?_, whole⟩, hne ".." (by decide)⟩
  rw [Path.names, Bool.and_eq_true, decide_eq_true_eq, decide_eq_true_eq]
  exact ⟨hne "" (by decide), hne "." (by decide)⟩

namespace DirectoryName

theorem ne_slash_of_isDigit (h : c.isDigit) : c ≠ '/' := by
  rintro rfl
  exact absurd h (by decide)

theorem ne_slash_of_isPlain (h : isPlain c) : c ≠ '/' := by
  rintro rfl
  exact absurd h (by decide)

/-- A valid name of a directory is the name of one entry. -/
theorem isEntryName_of_isValid (h : isValid name) : IsEntryName name := by
  unfold isValid at h
  split at h
  next index label hsplit =>
    simp only [Bool.and_eq_true, List.all_eq_true] at h
    obtain ⟨⟨⟨_, hdigits⟩, _⟩, hplain⟩ := h
    have hchars := eq_of_splitFirst hsplit
    refine isEntryName_of_hyphen ?_ ?_
    · rw [hchars]
      exact List.mem_append_right _ List.mem_cons_self
    · rw [hchars, List.mem_append, List.mem_cons]
      rintro (hslash | hslash | hslash)
      · exact ne_slash_of_isDigit (hdigits _ hslash) rfl
      · exact absurd hslash (by decide)
      · exact ne_slash_of_isPlain (hplain _ hslash) rfl
  next => cases h

/-- An index is written with digits. -/
theorem isDigit_of_mem_index (h : c ∈ index i) : c.isDigit := by
  rw [index, List.leftpad] at h
  rcases List.mem_append.mp h with hzero | hdigit
  · rw [List.eq_of_mem_replicate hzero]
    rfl
  · exact isDigit_of_mem_decimal hdigit

theorem hyphen_notMem_index (i : Nat) : '-' ∉ index i :=
  fun hmem => absurd (isDigit_of_mem_index hmem) (by decide)

/-- The characters of a directory name: an index, a hyphen and plain characters, some if the label
has some. -/
theorem toList_ofLabel (i : Nat) (label : String) :
    ∃ plain : List Char, (∀ c ∈ plain, isPlain c) ∧ (label ≠ "" → plain ≠ []) ∧
      (ofLabel i label).toList = index i ++ '-' :: plain := by
  refine ⟨label.toList.map fun c => if isPlain c then c else '_', ?_, ?_, String.toList_ofList⟩
  case refine_2 =>
    rw [Ne, Ne, List.map_eq_nil_iff]
    exact fun hne hnil => hne (String.toList_inj.mp hnil)
  intro c hc
  obtain ⟨d, _, rfl⟩ := List.mem_map.mp hc
  split
  next hplain => exact hplain
  next => rfl

/-- A hyphen stands behind the index of a directory. -/
theorem hyphen_mem_ofLabel (i : Nat) (label : String) : '-' ∈ (ofLabel i label).toList := by
  obtain ⟨plain, _, _, hchars⟩ := toList_ofLabel i label
  rw [hchars]
  exact List.mem_append_right _ List.mem_cons_self

/-- The name of a directory is the name of one entry, whatever the label. -/
theorem isEntryName_ofLabel (i : Nat) (label : String) : IsEntryName (ofLabel i label) := by
  refine isEntryName_of_hyphen (hyphen_mem_ofLabel i label) ?_
  obtain ⟨plain, hplain, _, hchars⟩ := toList_ofLabel i label
  rw [hchars, List.mem_append, List.mem_cons]
  rintro (hslash | hslash | hslash)
  · exact ne_slash_of_isDigit (isDigit_of_mem_index hslash) rfl
  · exact absurd hslash (by decide)
  · exact ne_slash_of_isPlain (hplain _ hslash) rfl

/-- The directory name of a label has the shape of one, unless the label is empty. -/
theorem isValid_ofLabel (i : Nat) {label : String} (h : label ≠ "") :
    isValid (ofLabel i label) := by
  obtain ⟨plain, hplain, hne, hchars⟩ := toList_ofLabel i label
  have hindex : 3 ≤ (index i).length := by
    rw [index, List.length_leftpad]
    exact Nat.le_max_left ..
  have hsome : plain.isEmpty = false := List.isEmpty_eq_false_iff.mpr (hne h)
  unfold isValid
  rw [hchars, splitFirst_append (hyphen_notMem_index i)]
  simp only [hsome, Bool.and_eq_true, List.all_eq_true, decide_eq_true_eq]
  exact ⟨⟨⟨hindex, fun _ => isDigit_of_mem_index⟩, rfl⟩, hplain⟩

/-- The index can be told from the directory name: it is what stands before the first hyphen. -/
theorem index_of_ofLabel_eq {label label' : String} (h : ofLabel i label = ofLabel j label') :
    i = j := by
  obtain ⟨plain, _, _, hi⟩ := toList_ofLabel i label
  obtain ⟨plain', _, _, hj⟩ := toList_ofLabel j label'
  have hsplit : splitFirst '-' (index i ++ '-' :: plain) = some (index i, plain) :=
    splitFirst_append (hyphen_notMem_index i)
  rw [← hi, h, hj, splitFirst_append (hyphen_notMem_index j), Option.some.injEq,
    Prod.mk.injEq] at hsplit
  have hvalue (n : Nat) : digitsFrom? 0 (index n) = some n := by
    rw [index, List.leftpad, digitsFrom?_replicate, digitsFrom?_decimal]
  have hsame := hvalue j
  rw [hsplit.1, hvalue i] at hsame
  exact Option.some.inj hsame

end DirectoryName

/-! ## Files -/

/-- A file has a relative path if its name has parts and none of them leads upwards. -/
theorem relativeParts_eq_ok {names : List String} : relativeParts file = .ok names ↔
    ".." ∉ Path.parts file ∧ Path.parts file ≠ [] ∧ names = Path.parts file := by
  unfold relativeParts
  simp only [List.contains_eq_mem, decide_eq_true_eq, List.isEmpty_iff]
  split
  next hup => exact ⟨nofun, fun h => absurd hup h.1⟩
  next hup =>
    split
    next hnil => exact ⟨nofun, fun h => absurd hnil h.2.1⟩
    next hsome => exact ⟨fun h => ⟨hup, hsome, (Except.ok.inj h).symm⟩, fun h => by rw [h.2.2]⟩

namespace PlacedFile

/-- Whether a file has the place that its name gives it: the name has parts, none of which leads
upwards, and the place is made of them. -/
structure Sound (f : PlacedFile) : Prop where
  down : ".." ∉ Path.parts f.file
  parts_ne_nil : Path.parts f.file ≠ []
  relative : f.relative = Path.ofParts (Path.parts f.file)

variable {f : PlacedFile}

theorem Sound.parts_relative (h : f.Sound) : Path.parts f.relative = Path.parts f.file := by
  rw [h.relative, Path.parts_ofParts fun _ => Path.isName_of_mem_parts]

/-- Files in different places have names with different parts. -/
theorem nodup_parts {placed : List PlacedFile} (sound : ∀ f ∈ placed, f.Sound)
    (distinct : (placed.map PlacedFile.relative).Nodup) :
    (placed.map fun f => Path.parts f.file).Nodup := by
  have hrelative : placed.map PlacedFile.relative =
      (placed.map fun f => Path.parts f.file).map Path.ofParts := by
    rw [List.map_map]
    exact List.map_congr_left fun f hf => (sound f hf).relative
  rw [hrelative] at distinct
  exact List.Nodup.of_map Path.ofParts distinct

theorem Sound.isAbsolute_relative (h : f.Sound) : Path.isAbsolute f.relative = false := by
  rw [h.relative, Path.isAbsolute_ofParts fun _ => Path.isName_of_mem_parts]

/-- Where the file is kept, seen from a directory. -/
theorem Sound.location_join (h : f.Sound) (t : FileTree) (base : String) :
    t.location (Path.join base f.relative) = t.location base ++ Path.parts f.file := by
  rw [FileTree.location_join h.isAbsolute_relative, h.parts_relative,
    Location.along_of_notMem _ h.down]

end PlacedFile

/-- A file that is placed has a sound name. -/
theorem placeFile_eq_ok {f : PlacedFile} (h : placeFile file = .ok f) :
    f.file = file ∧ f.Sound := by
  obtain ⟨names, hnames, hplaced⟩ := bind_eq_ok_iff.mp h
  obtain ⟨hup, hsome, rfl⟩ := relativeParts_eq_ok.mp hnames
  cases hplaced
  exact ⟨rfl, hup, hsome, rfl⟩

/-- Files are placed in their order, with sound names, and no two in one place. -/
theorem placeFilesFrom_eq_ok {before placed : List PlacedFile} {files : List String}
    (h : placeFilesFrom before files = .ok placed) : placed.map PlacedFile.file = files ∧
      (∀ f ∈ placed, f.Sound) ∧ (placed.map PlacedFile.relative).Nodup ∧
      ∀ f ∈ placed, ∀ other ∈ before, other.relative ≠ f.relative := by
  induction files generalizing before placed with
  | nil =>
    cases h
    exact ⟨rfl, nofun, List.nodup_nil, nofun⟩
  | cons file files ih =>
    obtain ⟨here, hhere, h⟩ := bind_eq_ok_iff.mp h
    obtain ⟨hfile, hsound⟩ := placeFile_eq_ok hhere
    split at h
    next => cases h
    next hfresh =>
      obtain ⟨rest, hrest, h⟩ := bind_eq_ok_iff.mp h
      cases h
      obtain ⟨hfiles, hall, hdistinct, hbefore⟩ := ih hrest
      refine ⟨by rw [List.map_cons, hfile, hfiles], List.forall_mem_cons.mpr ⟨hsound, hall⟩, ?_, ?_⟩
      · rw [List.map_cons, List.nodup_cons]
        refine ⟨?_, hdistinct⟩
        -- A later name was held against this one when it was placed.
        intro hmem
        obtain ⟨f, hf, hsame⟩ := List.mem_map.mp hmem
        exact hbefore f hf here List.mem_cons_self hsame.symm
      · refine List.forall_mem_cons.mpr ⟨fun other hother => ?_, fun f hf other hother => ?_⟩
        · simpa using List.find?_eq_none.mp hfresh other hother
        · exact hbefore f hf other (List.mem_cons_of_mem _ hother)

/-- The files of a snapshot have places of their own. -/
theorem placeFiles_eq_ok {placed : List PlacedFile} {files : List String}
    (h : placeFiles files = .ok placed) :
    placed.map PlacedFile.file = files ∧ (∀ f ∈ placed, f.Sound) ∧
    (placed.map PlacedFile.relative).Nodup := by
  obtain ⟨hfiles, hsound, hdistinct, _⟩ := placeFilesFrom_eq_ok h
  exact ⟨hfiles, hsound, hdistinct⟩

/-! ## Layouts -/

namespace SnapshotLayout

variable {entry : ManifestEntry} {entries : List ManifestEntry} {s : Snapshot}
    {snapshots : List Snapshot}
variable {layout : SnapshotLayout} {layouts : List SnapshotLayout}

/-- A snapshot that is laid out has a place for each listed file. -/
theorem ofEntry_eq_ok (h : ofEntry entry s = .ok layout) :
    ∃ placed, placeFiles entry.files = .ok placed ∧ layout = ⟨entry.dir, placed.zip s.values⟩ := by
  obtain ⟨placed, hplaced, heq⟩ := bind_eq_ok_iff.mp h
  exact ⟨placed, hplaced, (Except.ok.inj heq).symm⟩

/-- Snapshots are laid out one after the other. -/
theorem ofEntries_cons_eq_ok (h : ofEntries (entry :: entries) (s :: snapshots) = .ok layouts) :
    ∃ layout rest, layouts = layout :: rest ∧ ofEntry entry s = .ok layout ∧
      ofEntries entries snapshots = .ok rest := by
  obtain ⟨layout, hlayout, h⟩ := bind_eq_ok_iff.mp h
  obtain ⟨rest, hrest, heq⟩ := bind_eq_ok_iff.mp h
  exact ⟨layout, rest, (Except.ok.inj heq).symm, hlayout, hrest⟩

/-- Each layout is that of the entry and the snapshot in its place. -/
theorem of_getElem? (h : ofEntries entries snapshots = .ok layouts)
    (hlayout : layouts[i]? = some layout) :
    ∃ entry s, entries[i]? = some entry ∧ snapshots[i]? = some s ∧
      ofEntry entry s = .ok layout := by
  induction entries generalizing snapshots layouts i with
  | nil =>
    cases h
    cases hlayout
  | cons entry entries ih =>
    cases snapshots with
    | nil =>
      cases h
      cases hlayout
    | cons s snapshots =>
      obtain ⟨first, rest, rfl, hfirst, hrest⟩ := ofEntries_cons_eq_ok h
      cases i with
      | zero =>
        cases hlayout
        exact ⟨entry, s, rfl, rfl, hfirst⟩
      | succ i => exact ih hrest hlayout

/-- Each layout is that of an entry and its snapshot. -/
theorem exists_of_mem (h : ofEntries entries snapshots = .ok layouts) (hmem : layout ∈ layouts) :
    ∃ entry ∈ entries, ∃ s ∈ snapshots, ofEntry entry s = .ok layout := by
  obtain ⟨j, hj⟩ := List.getElem?_of_mem hmem
  obtain ⟨entry, s, hentry, hs, hof⟩ := of_getElem? h hj
  exact ⟨entry, List.mem_of_getElem? hentry, s, List.mem_of_getElem? hs, hof⟩

/-- Each entry has a layout. -/
theorem exists_of_getElem? (h : ofEntries entries snapshots = .ok layouts)
    (hentry : entries[i]? = some entry) (hs : snapshots[i]? = some s) :
    ∃ layout ∈ layouts, ofEntry entry s = .ok layout := by
  induction entries generalizing snapshots layouts i with
  | nil => cases hentry
  | cons first entries ih =>
    cases snapshots with
    | nil => cases hs
    | cons s₁ snapshots =>
      obtain ⟨layout, rest, rfl, hfirst, hrest⟩ := ofEntries_cons_eq_ok h
      cases i with
      | zero =>
        cases hentry
        cases hs
        exact ⟨layout, List.mem_cons_self, hfirst⟩
      | succ i =>
        obtain ⟨layout', hmem, hof⟩ := ih hrest hentry hs
        exact ⟨layout', List.mem_cons_of_mem _ hmem, hof⟩

/-- Layouts have the directories of their entries, in the same order. -/
theorem dirs_prefix (h : ofEntries entries snapshots = .ok layouts) :
    layouts.map SnapshotLayout.dir <+: entries.map ManifestEntry.dir := by
  induction entries generalizing snapshots layouts with
  | nil =>
    cases h
    exact List.prefix_refl _
  | cons entry entries ih =>
    cases snapshots with
    | nil =>
      cases h
      exact List.nil_prefix
    | cons s snapshots =>
      obtain ⟨layout, rest, rfl, hfirst, hrest⟩ := ofEntries_cons_eq_ok h
      obtain ⟨placed, _, rfl⟩ := ofEntry_eq_ok hfirst
      exact List.cons_prefix_cons.mpr ⟨rfl, ih hrest⟩

end SnapshotLayout

namespace Manifest

/-- The entries from an index on are those of the snapshots, labelled by the tests as long as there
are any. -/
theorem getElem?_entriesFrom (k : Nat) (tests : List String) (snapshots : List Snapshot) (i : Nat) :
    (entriesFrom k tests snapshots)[i]? =
      snapshots[i]?.map (.ofSnapshot (k + i) (tests[i]?.getD baselineLabel)) := by
  induction snapshots generalizing i k tests with
  | nil =>
    cases tests with
    | nil => rfl
    | cons => rfl
  | cons s snapshots ih =>
    have hnext (n : Nat) : k + 1 + n = k + (n + 1) := by omega
    cases tests with
    | nil =>
      cases i with
      | zero => rfl
      | succ i =>
        rw [entriesFrom, List.getElem?_cons_succ, ih, hnext, List.getElem?_cons_succ]
        rfl
    | cons test tests =>
      cases i with
      | zero => rfl
      | succ i => rw [entriesFrom, List.getElem?_cons_succ, ih, hnext, List.getElem?_cons_succ,
          List.getElem?_cons_succ]

/-- An entry of a manifest describes the snapshot with its index. -/
theorem entry_of_getElem? {k : Nat} {entry : ManifestEntry} {tests : List String}
    {snapshots : List Snapshot} (h : (entriesFrom k tests snapshots)[i]? = some entry) :
    ∃ label s, snapshots[i]? = some s ∧ entry = .ofSnapshot (k + i) label s := by
  rw [getElem?_entriesFrom, Option.map_eq_some_iff] at h
  obtain ⟨s, hs, rfl⟩ := h
  exact ⟨_, s, hs, rfl⟩

/-- The manifest of a result describes its snapshots in order. -/
theorem getElem?_describe (package : String) (sort : SortStrategy) (result : JobResult) (i : Nat) :
    (describe package sort result).snapshots[i]? =
      result.snapshots[i]?.map (.ofSnapshot i (result.tests[i]?.getD baselineLabel)) := by
  rw [describe, getElem?_entriesFrom, Nat.zero_add]

/-- No two snapshots have the same directory. -/
theorem nodup_dirs (tests : List String) (snapshots : List Snapshot) :
    ((entriesFrom 0 tests snapshots).map ManifestEntry.dir).Nodup := by
  rw [List.nodup_iff_getElem?_ne_getElem?]
  intro i j hlt hlength heq
  rw [List.length_map] at hlength
  rw [List.getElem?_map, List.getElem?_map] at heq
  have hj := List.getElem?_eq_getElem hlength
  have hi := List.getElem?_eq_getElem (hlt.trans hlength)
  rw [hi, hj, Option.map_some, Option.map_some, Option.some.injEq] at heq
  obtain ⟨_, _, _, hentry⟩ := entry_of_getElem? hi
  obtain ⟨_, _, _, hentry'⟩ := entry_of_getElem? hj
  rw [hentry, hentry'] at heq
  have hsame := DirectoryName.index_of_ofLabel_eq heq
  omega

/-- Directories in the manifest of a result have names of single entries. -/
theorem isEntryName_of_mem_describe {package : String} {sort : SortStrategy} {result : JobResult}
    {entry : ManifestEntry} (h : entry ∈ (describe package sort result).snapshots) :
    IsEntryName entry.dir := by
  obtain ⟨j, hj⟩ := List.getElem?_of_mem h
  obtain ⟨label, _, _, rfl⟩ := entry_of_getElem? hj
  exact DirectoryName.isEntryName_ofLabel (0 + j) label

end Manifest

/-! ## Locations -/

theorem isAbsolute_of_isEntryName (h : IsEntryName name) : Path.isAbsolute name = false := by
  rw [← String.append_empty (s := name)]
  exact h.toIsName.isAbsolute_append ""

/-- An entry of a directory is where the directory is, one name further. -/
theorem IsEntryName.location_join (h : IsEntryName name) (t : FileTree) (base : String) :
    t.location (Path.join base name) = t.location base ++ [name] := by
  have hdown : ".." ∉ [name] := fun hmem => h.down (List.mem_singleton.mp hmem).symm
  rw [FileTree.location_join (isAbsolute_of_isEntryName h), h.toIsName.parts,
    Location.along_of_notMem _ hdown]

/-- Where a file is kept below the directory of its snapshot. -/
theorem PlacedFile.Sound.location_below {f : PlacedFile} (h : f.Sound) (hdir : IsEntryName dir)
    (t : FileTree) (out : String) :
    t.location (Path.join (Path.join out dir) f.relative) =
      t.location out ++ dir :: Path.parts f.file := by
  rw [h.location_join, hdir.location_join, List.append_assoc, List.singleton_append]

theorem isEntryName_manifest : IsEntryName "manifest.json" := by
  refine ⟨⟨rfl, by decide⟩, by decide⟩

theorem Manifest.location_path (t : FileTree) (out : String) :
    t.location (Manifest.path out) = t.location out ++ ["manifest.json"] :=
  isEntryName_manifest.location_join t out

/-- No snapshot is kept where the manifest is. -/
theorem DirectoryName.ofLabel_ne_manifest (i : Nat) (label : String) :
    ofLabel i label ≠ "manifest.json" := by
  intro h
  have hhyphen := hyphen_mem_ofLabel i label
  rw [h] at hhyphen
  exact absurd hhyphen (by decide)

end CoverageReplay
