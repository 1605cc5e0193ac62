import CoverageReplay.Proofs.Snapshots.Writing

/-!
# Documents read back

Manifests link a run to what is done with its snapshots later, and statuses are all that is seen of
a job. Both are got back from their documents (`documents_read_back`): a manifest from the file that
was written for it, and a status from its text, on one line or on several.

A status is only read from a document that can be kept whole and is not nested too deep, which its
own document is (`JobStatus.isStorable_toJson`, `JobStatus.depth_toJson_le`). Its snapshots are got
back as maps, so their paths have to be in order.
-/

namespace CoverageReplay

namespace Json

/-! ## What can be kept whole -/

/-- Items can be kept whole if each of them can. -/
theorem itemsStorable_iff {items : List Json} :
    itemsStorable items ↔ ∀ v ∈ items, v.isStorable := by
  induction items with
  | nil => simp [itemsStorable]
  | cons v rest ih => rw [itemsStorable, Bool.and_eq_true, ih, List.forall_mem_cons]

/-- Fields can be kept whole if the value of each of them can. -/
theorem fieldsStorable_iff {fields : List (String × Json)} :
    fieldsStorable fields ↔ ∀ f ∈ fields, f.2.isStorable := by
  induction fields with
  | nil => simp [fieldsStorable]
  | cons f rest ih => rw [fieldsStorable, Bool.and_eq_true, ih, List.forall_mem_cons]

/-- Items are as deep as the deepest of them. -/
theorem depthOfItems_le_iff {items : List Json} {n : Nat} :
    depthOfItems items ≤ n ↔ ∀ v ∈ items, v.depth ≤ n := by
  induction items with
  | nil => simp [depthOfItems]
  | cons v rest ih => rw [depthOfItems, Nat.max_le, ih, List.forall_mem_cons]

/-- Fields are as deep as the deepest of their values. -/
theorem depthOfFields_le_iff {fields : List (String × Json)} {n : Nat} :
    depthOfFields fields ≤ n ↔ ∀ f ∈ fields, f.2.depth ≤ n := by
  induction fields with
  | nil => simp [depthOfFields]
  | cons f rest ih => rw [depthOfFields, Nat.max_le, ih, List.forall_mem_cons]

/-- Digits whose value fits 64 bits are all taken. -/
theorem takeDigits_eq {cs : List Char} {n m : Nat} (h : Text.digitsFrom? n cs = some m)
    (fits : m < 2 ^ 64) :
    n ≤ m ∧ takeDigits n cs = (m, cs.length) := by
  induction cs generalizing n with
  | nil =>
    rw [Text.digitsFrom?, Option.some.injEq] at h
    subst h
    exact ⟨Nat.le_refl n, rfl⟩
  | cons c cs ih =>
    rw [Text.digitsFrom?] at h
    obtain ⟨d, hd, hrest⟩ := Option.bind_eq_some_iff.mp h
    have hc : c.toNat - '0'.toNat = d := by
      rw [Text.digit?] at hd
      split at hd
      next => exact Option.some.inj hd
      next => cases hd
    obtain ⟨hle, htake⟩ := ih hrest
    refine ⟨by omega, ?_⟩
    rw [takeDigits, hc]
    simp only [htake]
    rw [if_pos (by omega), List.length_cons]

/-- A count of 64 bits can be kept. -/
theorem isStorable_ofNat {n : Nat} (h : n < 2 ^ 64) : (ofNat n).isStorable := by
  obtain ⟨_, htake⟩ := takeDigits_eq (Text.digitsFrom?_decimal n) h
  have htake : takeDigits 0 (Nat.toDigits 10 n) = (n, (Nat.toDigits 10 n).length) := htake
  have hexponent :
      (((Nat.toDigits 10 n).length - (Nat.toDigits 10 n).length : Nat) : Int) - (0 : Nat) + 0 =
        0 := by
    omega
  simp only [isStorable, ofNat, Number.toFloat?, htake, takeDigits, exponentOf,
    hexponent, scaleTen?]
  rfl

/-! ## Rows and fields -/

/-- An object is read back entry by entry. -/
theorem entries?_map {α : Type} {f : α → Json} {item? : Json → Option α}
    (h : ∀ a, item? (f a) = some a) (entries : List (String × α)) :
    entries? item? (.object (entries.map fun e => (e.1, f e.2))) = some entries := by
  unfold entries?
  simp only
  induction entries with
  | nil => rfl
  | cons e rest ih =>
    rw [List.map_cons, List.mapM_cons, ih, h]
    rfl

/-- A list can be kept whole if each of its items can. -/
theorem isStorable_ofList {α : Type} {f : α → Json} {xs : List α} (h : ∀ x ∈ xs, (f x).isStorable) :
    (ofList f xs).isStorable := by
  rw [ofList, isStorable, itemsStorable_iff]
  exact List.forall_mem_map.mpr h

/-- A list is one deeper than its items. -/
theorem depth_ofList_le {α : Type} {f : α → Json} {xs : List α} {n : Nat}
    (h : ∀ x ∈ xs, (f x).depth ≤ n) :
    (ofList f xs).depth ≤ n + 1 := by
  rw [ofList, depth, Nat.add_comm, Nat.add_le_add_iff_right, depthOfItems_le_iff]
  exact List.forall_mem_map.mpr h

end Json

open Json

/-! ## Files of a snapshot -/

/-- The document of the contents of a file. -/
def bytesToJson (bytes : ByteArray) : Json :=
  Json.ofList (fun b => .ofNat b.toNat) bytes.data.toList

theorem snapshotToJson_eq (s : Snapshot) :
    snapshotToJson s = .object (s.entries.map fun e => (e.1, bytesToJson e.2)) := rfl

/-- Bytes are read back. -/
theorem bytesOfJson?_bytesToJson (bytes : ByteArray) :
    bytesOfJson? (bytesToJson bytes) = some bytes := by
  have hread : list? byte? (bytesToJson bytes) = some bytes.data.toList := by
    refine list?_ofList_all fun b _ => ?_
    have hdigits : Text.digits? (Nat.toDigits 10 b.toNat) = some b.toNat := Text.digits?_decimal _
    have hb : b.toNat ≤ 255 := by have := b.toNat_lt; omega
    simp only [byte?, nat?, ofNat, hdigits, Option.bind_some, if_pos hb, Option.map_some,
      UInt8.ofNat_toNat]
  rw [bytesOfJson?, hread]
  rfl

/-- A snapshot is got back if its paths are in order. -/
theorem snapshotOfJson?_snapshotToJson {s : Snapshot} (sorted : s.keys.Pairwise (· < ·)) :
    snapshotOfJson? (snapshotToJson s) = some s := by
  rw [snapshotOfJson?, snapshotToJson_eq, entries?_map bytesOfJson?_bytesToJson, Option.map_some,
    SortedMap.ofList_entries sorted]

/-- The document of a snapshot is proper. -/
theorem proper_snapshotToJson (s : Snapshot) : (snapshotToJson s).Proper := by
  rw [snapshotToJson_eq]
  show ProperFields _
  induction s.entries with
  | nil => exact trivial
  | cons e rest ih => exact ⟨proper_ofList fun b _ => proper_ofNat b.toNat, ih⟩

theorem isStorable_snapshotToJson (s : Snapshot) : (snapshotToJson s).isStorable := by
  rw [snapshotToJson_eq, isStorable, fieldsStorable_iff, List.forall_mem_map]
  exact fun e _ => isStorable_ofList fun b _ =>
    isStorable_ofNat (Nat.lt_trans b.toNat_lt (by decide))

/-- The document of a snapshot is at most two deep. -/
theorem depth_snapshotToJson_le (s : Snapshot) : (snapshotToJson s).depth ≤ 2 := by
  rw [snapshotToJson_eq, depth, Nat.add_comm, Nat.add_le_add_iff_right (n :=
    1), depthOfFields_le_iff, List.forall_mem_map]
  exact fun e _ => depth_ofList_le fun b _ => Nat.le_refl 0

/-! ## Statuses -/

namespace JobResult

theorem proper_fields (r : JobResult) : ProperFields r.fields :=
  ⟨textsToJson_proper r.tests, proper_ofList fun s _ => proper_snapshotToJson s, trivial⟩

/-- A result is got back from its fields if the paths of its snapshots are in order. -/
theorem ofJson?_fields {r : JobResult} (sorted : ∀ s ∈ r.snapshots, s.keys.Pairwise (· < ·)) :
    ofJson? (.object r.fields) = some r := by
  have hfields : record? ["tests", "snapshots"] (.object r.fields) =
      some [some (textsToJson r.tests), some (Json.ofList snapshotToJson r.snapshots)] := rfl
  have hsnapshots : list? snapshotOfJson? (Json.ofList snapshotToJson r.snapshots) =
      some r.snapshots :=
    list?_ofList_all fun s hs => snapshotOfJson?_snapshotToJson (sorted s hs)
  unfold ofJson?
  rw [hfields]
  simp only [Option.bind_eq_bind, Option.bind_some, need, list?_textsToJson, hsnapshots]
  rfl

end JobResult

namespace JobStatus

/-- Whether the snapshots of a status are maps: their paths are in order. -/
def InOrder : JobStatus → Prop
  | complete result => ∀ s ∈ result.snapshots, s.keys.Pairwise (· < ·)
  | _ => True

instance : (s : JobStatus) → Decidable s.InOrder
  | complete result => inferInstanceAs (Decidable (∀ s ∈ result.snapshots, s.keys.Pairwise (· < ·)))
  | inProgress _ => .isTrue trivial
  | failed _ => .isTrue trivial

/-- The document of a status is proper. -/
theorem proper_toJson : ∀ s : JobStatus, s.toJson.Proper
  | inProgress _ => ⟨trivial, trivial, trivial⟩
  | complete result => ⟨trivial, result.proper_fields⟩
  | failed _ => ⟨trivial, trivial, trivial⟩

/-- The document of a status can be kept whole. -/
theorem isStorable_toJson : ∀ s : JobStatus, s.toJson.isStorable
  | inProgress _ => rfl
  | complete result => by
    refine fieldsStorable_iff.mpr ?_
    simp only [List.forall_mem_cons, JobResult.fields]
    exact ⟨rfl, isStorable_ofList fun _ _ => rfl,
      isStorable_ofList fun s _ => isStorable_snapshotToJson s, nofun⟩
  | failed _ => rfl

/-- Of all statuses the bytes of a complete one are nested deepest: in a file, a snapshot, and the
row of snapshots. -/
theorem depth_toJson_le : ∀ s : JobStatus, s.toJson.depth ≤ 4
  | inProgress _ => Nat.le_add_left 1 3
  | complete result => by
    rw [toJson, depth, Nat.add_comm, Nat.add_le_add_iff_right (n := 1), depthOfFields_le_iff]
    simp only [List.forall_mem_cons, JobResult.fields]
    exact ⟨Nat.zero_le 3, Nat.le_trans (depth_ofList_le fun _ _ => Nat.le_refl 0) (by decide),
      depth_ofList_le fun s _ => depth_snapshotToJson_le s, nofun⟩
  | failed _ => Nat.le_add_left 1 3

/-- The state that a document of a status names tells what its other fields are. -/
theorem ofState?_toJson : ∀ {s : JobStatus}, s.InOrder →
    ((split? s.toJson).bind fun (state, fields) => ofState? fields state) = some s
  | inProgress _, _ => rfl
  | complete _, h => congrArg (Option.map complete) (JobResult.ofJson?_fields h)
  | failed _, _ => rfl

/-- A status is got back from its document. -/
theorem ofJson?_toJson {s : JobStatus} (h : s.InOrder) : ofJson? s.toJson = some s := by
  have hdepth : s.toJson.depth ≤ 127 := Nat.le_trans s.depth_toJson_le (by decide)
  have hkept : (s.toJson.isStorable && s.toJson.depth ≤ 127) = true := by
    rw [s.isStorable_toJson, Bool.true_and]
    exact decide_eq_true hdepth
  rw [ofJson?, if_pos hkept, ofState?_toJson h]

end JobStatus

/-! ## Manifests in their files -/

namespace Manifest

variable {m : Manifest} {out : String} {t t' : FileTree}

/-- A manifest is loaded as it was saved. -/
theorem load_of_save (readable : m.Readable) (h : m.save out t = (.ok (), t')) :
    load out t' = .ok m := by
  have hwritten := FileAction.write_eq_ok h
  exact load_of_find? readable hwritten.locate hwritten.find?_self

/-- A directory has a place for the manifest. -/
theorem place_path (h : t.isDirectory out) : t.place (path out) = .ok (t.location (path out)) := by
  have hrelative := isAbsolute_of_isEntryName isEntryName_manifest
  obtain ⟨l, hlocate, hdirectory⟩ := FileTree.isDirectory_eq_true.mp h
  obtain ⟨hcheck, hwalk, _⟩ := FileTree.locate_eq_ok.mp hlocate
  have hpath : FileTree.checkPath (path out) = .ok () := by
    refine FileTree.checkPath_eq_ok.mpr ⟨fun hnul => ?_, Path.join_ne_empty hrelative (by decide)⟩
    rcases Path.of_mem_join hnul with hnul | hnul | hnul
    · exact (FileTree.checkPath_eq_ok.mp hcheck).1 hnul
    · exact absurd hnul (by decide)
    · exact absurd hnul (by decide)
  have hparts : Path.parts (path out) = Path.parts out ++ ["manifest.json"] := by
    rw [path, Path.parts_join hrelative, isEntryName_manifest.toIsName.parts]
  have hbase : t.base (path out) = t.base out := FileTree.base_join hrelative
  have hstep : FileTree.step l "manifest.json" = .ok (l ++ ["manifest.json"]) := rfl
  unfold FileTree.place
  simp only [hpath, ok_bind, hparts, hbase, List.dropLast_concat, hwalk,
    List.getLast?_concat, hdirectory, if_true, hstep, location_path, ← FileTree.locate_eq hlocate]

/-- A manifest can be saved into a directory unless a directory stands in its place. -/
theorem save_iff (m : Manifest) (h : t.isDirectory out) : (∃ t', m.save out t = (.ok (), t')) ↔
    t.find? (t.location out ++ ["manifest.json"]) ≠ some .directory := by
  rw [← location_path]
  constructor
  · rintro ⟨t', hsave⟩
    exact (FileAction.write_eq_ok hsave).file
  · intro hfile
    exact FileAction.exists_write _ (place_path h) hfile (Path.namesDirectory_join
      (isAbsolute_of_isEntryName isEntryName_manifest) isEntryName_manifest.toIsName)

end Manifest

/-! ## Both kinds of documents -/

/-- **What was stored is read back.** A manifest is loaded as it was saved, whatever texts it holds,
if its indices have at most 64 bits; and every directory takes it, unless another directory stands
in its place. A status whose snapshots are maps is got back from its text, whether that is on one
line or on several. -/
theorem documents_read_back :
    (∀ (m : Manifest) (out : String) (t : FileTree), m.Readable →
      (∀ t', m.save out t = (.ok (), t') → Manifest.load out t' = .ok m) ∧
      (t.isDirectory out → ((∃ t', m.save out t = (.ok (), t')) ↔
        t.find? (t.location out ++ ["manifest.json"]) ≠ some .directory))) ∧
    ∀ s : JobStatus, s.InOrder →
      (Json.read? s.toJson.compact).bind JobStatus.ofJson? = some s ∧
      (Json.read? s.toJson.pretty).bind JobStatus.ofJson? = some s := by
  refine ⟨fun m out t readable => ⟨fun t' hsave => ?_, fun hdirectory => ?_⟩,
    fun s ordered => ⟨?_, ?_⟩⟩
  · exact Manifest.load_of_save readable hsave
  · exact m.save_iff hdirectory
  · rw [read?_compact s.proper_toJson, Option.bind_some, JobStatus.ofJson?_toJson ordered]
  · rw [read?_pretty s.proper_toJson, Option.bind_some, JobStatus.ofJson?_toJson ordered]

/-- A manifest with quotes, control characters and characters of four bytes, and the largest index
there is. -/
def oddManifest : Manifest :=
  ⟨"a \"package\"\n", .netNew, ["", "\x00\\", "😀/é"],
    [⟨18446744073709551615, "\t", "000-_", ["\"", "😀.rs"]⟩]⟩

/-- A complete job with an empty file, an empty name, and all kinds of bytes. -/
def oddStatus : JobStatus :=
  .complete ⟨["\x01", "state"], [⟨[("", .empty), ("a\\", ⟨#[0, 34, 255]⟩), ("😀", ⟨#[10]⟩)]⟩, ⟨[]⟩]⟩

/-- An output directory with nothing in it. -/
def emptyOutput : FileTree := ⟨⟨[(["o"], .directory)]⟩, []⟩

/-- The manifest is loaded from an empty directory that it was saved into, and the status is got
back. -/
theorem documents_read_back_oddTexts :
    oddManifest.Readable ∧ emptyOutput.isDirectory "o" ∧
      (∃ t', oddManifest.save "o" emptyOutput = (.ok (), t') ∧
        Manifest.load "o" t' = .ok oddManifest) ∧
    oddStatus.InOrder ∧ (Json.read? oddStatus.toJson.compact).bind JobStatus.ofJson? =
      some oddStatus := by
  have hreadable : oddManifest.Readable := by decide
  have hdirectory : emptyOutput.isDirectory "o" := by decide +kernel
  have hordered : oddStatus.InOrder := by decide +kernel
  obtain ⟨hload, hsave⟩ := documents_read_back.1 oddManifest "o" emptyOutput hreadable
  obtain ⟨t', hrun⟩ := (hsave hdirectory).mpr (by decide +kernel)
  exact ⟨hreadable, hdirectory, ⟨t', hrun, hload t' hrun⟩, hordered,
    (documents_read_back.2 oddStatus hordered).1⟩

end CoverageReplay
