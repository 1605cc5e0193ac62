import CoverageReplay.Proofs.Snapshots.Confinement
import CoverageReplay.Proofs.Snapshots.Manifests

/-!
# What was written

The files of a snapshot are in its directory once they were written (`writeLayouts_eq_ok`). A run of
writing the snapshots of a result makes the output directory, removes what the manifest there lists,
writes the layouts, and then the manifest (`WritingRun`). After it the output directory holds the
manifest and all files of the snapshots (`Kept`).
-/

namespace CoverageReplay

open FileAction

variable {t t' : FileTree} {l : Location} {out package dir : String} {sort : SortStrategy}
variable {result : JobResult} {m : Manifest} {i : Nat}

/-! ## Files in their places -/

/-- What is there stays when other files are written. -/
theorem find?_kept_of_layoutRule {entries : List ManifestEntry} {e : FileEntry}
    (h : t.Becomes (LayoutRule out entries) t') (hsome : t.find? l = some e)
    (other : ∀ entry ∈ entries, ∀ file ∈ entry.files,
      l ≠ t.location out ++ entry.dir :: Path.parts file) :
    t'.find? l = some e := by
  refine h.find?_kept hsome fun u c hhere hmay hthere htouches => ?_
  cases hmay with
  | makeOut _ missing | makeBelow _ _ _ missing =>
    obtain rfl := htouches
    exact hthere missing
  | writeFile named listed =>
    obtain rfl := htouches
    exact other _ named _ listed (by rw [FileTree.location_congr hhere])

/-- An entry that names the directory and the files of a layout. -/
def SnapshotLayout.entry (layout : SnapshotLayout) : ManifestEntry :=
  ⟨0, "", layout.dir, layout.files.map (·.1.file)⟩

/-- The files of a snapshot are in its directory after they were written. -/
theorem writeFiles_eq_ok (hdir : IsEntryName dir) {files : List (PlacedFile × ByteArray)}
    (sound : ∀ f ∈ files, f.1.Sound) (distinct : (files.map fun f => Path.parts f.1.file).Nodup)
    (h : writeFiles (Path.join out dir) files t = (.ok (), t')) :
    ∀ f ∈ files, t'.find? (t.location out ++ dir :: Path.parts f.1.file) = some (.file f.2) := by
  induction files generalizing t with
  | nil => exact nofun
  | cons f rest ih =>
    obtain ⟨placed, contents⟩ := f
    have hsound := sound _ List.mem_cons_self
    have hrest : ∀ g ∈ rest, g.1.Sound := fun g hg => sound g (List.mem_cons_of_mem _ hg)
    rw [List.map_cons, List.nodup_cons] at distinct
    obtain ⟨_, u, hparents, h⟩ := bind_eq_ok h
    obtain ⟨_, v, hwrite, h⟩ := bind_eq_ok h
    have hwritten := write_eq_ok hwrite
    have hu := ((only_makeDirectoriesAlong _ _).becomes hparents).here
    have hv : v.here = t.here := hwritten.grows.here.trans hu
    have hlocation : u.location (Path.join (Path.join out dir) placed.relative) =
        t.location out ++ dir :: Path.parts placed.file := by
      rw [hsound.location_below hdir, FileTree.location_congr hu]
    have hothers := ih hrest distinct.2 h
    rw [FileTree.location_congr hv] at hothers
    rw [List.forall_mem_cons]
    refine ⟨?_, hothers⟩
    -- The other files of the snapshot have places of their own.
    have hfound := hwritten.find?_self
    rw [hlocation] at hfound
    have honly : Only (LayoutRule out [SnapshotLayout.entry ⟨dir, rest⟩])
        (writeFiles (Path.join out dir) rest) :=
      only_writeFiles List.mem_cons_self hdir fun g hg => ⟨hrest g hg, List.mem_map_of_mem hg⟩
    refine find?_kept_of_layoutRule (honly.becomes h) hfound ?_
    rintro entry hentry file hfile heq
    rw [List.mem_singleton] at hentry
    subst hentry
    obtain ⟨g, hg, rfl⟩ := List.mem_map.mp hfile
    rw [FileTree.location_congr hv, List.append_cancel_left_eq, List.cons.injEq] at heq
    exact distinct.1 (List.mem_map.mpr ⟨g, hg, heq.2.symm⟩)

/-- Whether a layout belongs to a snapshot: it has a directory name, and its files have places of
their own. -/
structure SnapshotLayout.Sound (layout : SnapshotLayout) : Prop where
  dir : IsEntryName layout.dir
  files : ∀ f ∈ layout.files, f.1.Sound
  distinct : (layout.files.map fun f => Path.parts f.1.file).Nodup

/-- A snapshot that is laid out in a directory with a name is sound. -/
theorem SnapshotLayout.sound_of_ofEntry {entry : ManifestEntry} {s : Snapshot}
    {layout : SnapshotLayout} (hdir : IsEntryName entry.dir) (h : ofEntry entry s = .ok layout) :
    layout.Sound := by
  obtain ⟨placed, hplaced, rfl⟩ := ofEntry_eq_ok h
  obtain ⟨_, hsound, hdistinct⟩ := placeFiles_eq_ok hplaced
  refine ⟨hdir, fun f hf => hsound _ (List.of_mem_zip hf).1, ?_⟩
  have hfirst : (placed.zip s.values).map Prod.fst =
      placed.take (min placed.length s.values.length) := by
    rw [List.zip_eq_zip_take_min, List.map_fst_zip (by simp)]
  have hmap := congrArg (List.map fun f : PlacedFile => Path.parts f.file) hfirst
  rw [List.map_map] at hmap
  show ((placed.zip s.values).map ((fun f : PlacedFile => Path.parts f.file) ∘ Prod.fst)).Nodup
  rw [hmap]
  exact (PlacedFile.nodup_parts hsound hdistinct).sublist ((List.take_sublist _ _).map _)

/-- The files of all snapshots are in their directories after they were written. -/
theorem writeLayouts_eq_ok {layouts : List SnapshotLayout}
    (sound : ∀ layout ∈ layouts, layout.Sound) (distinct : (layouts.map SnapshotLayout.dir).Nodup)
    (h : writeLayouts out layouts t = (.ok (), t')) :
    ∀ layout ∈ layouts, ∀ f ∈ layout.files,
      t'.find? (t.location out ++ layout.dir :: Path.parts f.1.file) = some (.file f.2) := by
  induction layouts generalizing t with
  | nil => exact nofun
  | cons layout rest ih =>
    have hsound := sound _ List.mem_cons_self
    have hrest : ∀ other ∈ rest, other.Sound :=
      fun other hother => sound other (List.mem_cons_of_mem _ hother)
    rw [List.map_cons, List.nodup_cons] at distinct
    obtain ⟨_, u, hwrite, h⟩ := bind_eq_ok h
    -- The files of this layout are written first, and the other layouts go to other directories.
    have honly :
        Only (LayoutRule out [layout.entry]) (writeFiles (Path.join out layout.dir) layout.files) :=
      only_writeFiles List.mem_cons_self hsound.dir fun f hf =>
        ⟨hsound.files f hf, List.mem_map_of_mem hf⟩
    have hu := (honly.becomes hwrite).here
    have hfound := writeFiles_eq_ok hsound.dir hsound.files hsound.distinct hwrite
    have hothers := ih hrest distinct.2 h
    rw [FileTree.location_congr hu] at hothers
    rw [List.forall_mem_cons]
    refine ⟨fun f hf => ?_, hothers⟩
    have honly' :
        Only (LayoutRule out (rest.map SnapshotLayout.entry)) (writeLayouts out rest) := by
      refine only_writeLayouts fun other hother => ?_
      have hother' := hrest other hother
      exact ⟨other.entry, List.mem_map_of_mem hother, hother'.dir, rfl, fun g hg =>
        ⟨hother'.files g hg, List.mem_map_of_mem hg⟩⟩
    refine find?_kept_of_layoutRule (honly'.becomes h) (hfound f hf) ?_
    rintro entry hentry file - heq
    obtain ⟨other, hother, rfl⟩ := List.mem_map.mp hentry
    rw [FileTree.location_congr hu, List.append_cancel_left_eq, List.cons.injEq] at heq
    exact distinct.1 (List.mem_map.mpr ⟨other, hother, heq.1.symm⟩)

/-! ## What is kept -/

/-- Whether an output directory holds a manifest and the files of the snapshots that it
describes. -/
structure Kept (out : String) (m : Manifest) (snapshots : List Snapshot) (t : FileTree) : Prop where
  manifest : t.find? (t.location out ++ ["manifest.json"]) = some (.file m.render.toUTF8)
  files : ∀ (i : Nat) (entry : ManifestEntry) (s : Snapshot), m.snapshots[i]? = some entry →
    snapshots[i]? = some s → ∀ f bytes, s.get? f = some bytes →
    t.find? (t.location out ++ entry.dir :: Path.parts f) = some (.file bytes)

/-- The places of the files of a snapshot, with their contents. -/
theorem mem_zip_of_get? {placed : List PlacedFile} {s : Snapshot} {f : String} {bytes : ByteArray}
    (hfiles : placed.map PlacedFile.file = s.keys) (h : s.get? f = some bytes) :
    ∃ g, g.file = f ∧ (g, bytes) ∈ placed.zip s.values := by
  have hmem := SortedMap.mem_of_get? h
  obtain ⟨n, hn⟩ := List.getElem?_of_mem hmem
  have hkey := congrArg (·[n]?) hfiles
  simp only [SortedMap.keys, List.getElem?_map, hn, Option.map_some] at hkey
  obtain ⟨g, hg, hfile⟩ := Option.map_eq_some_iff.mp hkey
  refine ⟨g, hfile, List.mem_of_getElem? (i := n) ?_⟩
  rw [List.getElem?_zip_eq_some]
  refine ⟨hg, ?_⟩
  rw [SortedMap.values, List.getElem?_map, hn, Option.map_some]

/-- The contents with a place are those of the file there, as the files of a snapshot have places of
their own. -/
theorem get?_of_mem_zip {placed : List PlacedFile} {s : Snapshot} {g : PlacedFile}
    {bytes : ByteArray} (hplaced : placeFiles s.keys = .ok placed)
    (h : (g, bytes) ∈ placed.zip s.values) :
    s.get? g.file = some bytes := by
  obtain ⟨hkeys, hsound, hdistinct⟩ := placeFiles_eq_ok hplaced
  have hnodup : s.keys.Nodup := by
    have hparts := PlacedFile.nodup_parts hsound hdistinct
    rw [← hkeys]
    refine List.Nodup.of_map Path.parts ?_
    rwa [List.map_map]
  have hmem : (g.file, bytes) ∈ (placed.map PlacedFile.file).zip s.values := by
    rw [List.zip_map_left]
    exact List.mem_map.mpr ⟨_, h, rfl⟩
  have hentries : s.entries = s.keys.zip s.values := List.zip_of_prod rfl rfl
  rw [hkeys, ← hentries] at hmem
  exact SortedMap.get?_of_mem hnodup hmem

/-- Whether a run of writing the snapshots of a result goes from one tree to another over these: the
output directory made, the snapshots of the run before removed, and the layouts written. The
manifest is written last. -/
structure WritingRun (out package : String) (sort : SortStrategy) (result : JobResult)
    (t made cleared filled t' : FileTree) (layouts : List SnapshotLayout) : Prop where
  laidOut : SnapshotLayout.ofEntries (Manifest.describe package sort result).snapshots
    result.snapshots = .ok layouts
  makes : makeDirectories out t = (.ok (), made)
  clears : removePrevious out made = (.ok (), cleared)
  fills : writeLayouts out layouts cleared = (.ok (), filled)
  saves :
    Written filled (Manifest.path out) (Manifest.describe package sort result).render.toUTF8 t'

/-- Writing succeeds if each of its steps does. -/
theorem writeSnapshots_eq_ok (h : writeSnapshots out package sort result t = (.ok m, t')) :
    m = Manifest.describe package sort result ∧
      ∃ made cleared filled layouts,
        WritingRun out package sort result t made cleared filled t' layouts := by
  obtain ⟨layouts, _, hof, hrest⟩ := bind_eq_ok h
  obtain ⟨hlayouts, rfl⟩ := ofExcept_eq_ok hof
  obtain ⟨_, v, hrun, hend⟩ := bind_eq_ok hrest
  cases hend
  obtain ⟨_, made, hmake, hrun₁⟩ := bind_eq_ok (mapError_eq_ok hrun)
  obtain ⟨_, cleared, hremove, hrun₂⟩ := bind_eq_ok hrun₁
  obtain ⟨_, filled, hwrite, hsave⟩ := bind_eq_ok hrun₂
  exact ⟨rfl, made, cleared, filled, layouts, hlayouts, hmake, hremove, hwrite, write_eq_ok hsave⟩

namespace WritingRun

variable {made cleared filled : FileTree} {layouts : List SnapshotLayout}
variable (h : WritingRun out package sort result t made cleared filled t' layouts)

include h

/-- All snapshots are laid out soundly. -/
theorem sound : ∀ layout ∈ layouts, layout.Sound := by
  intro layout hlayout
  obtain ⟨entry, hentry, s, _, hof⟩ := SnapshotLayout.exists_of_mem h.laidOut hlayout
  exact SnapshotLayout.sound_of_ofEntry (Manifest.isEntryName_of_mem_describe hentry) hof

theorem distinct : (layouts.map SnapshotLayout.dir).Nodup :=
  (Manifest.nodup_dirs result.tests result.snapshots).sublist
    (SnapshotLayout.dirs_prefix h.laidOut).sublist

theorem here_made : made.here = t.here := ((only_makeDirectories _).becomes h.makes).here

theorem here_cleared : cleared.here = t.here := by
  have honly : Only (WriteRule out []) (removePrevious out) := only_removePrevious
  exact (honly.becomes h.clears).here.trans h.here_made

/-- Writing the snapshots makes the changes that their layout allows. -/
theorem becomes_filled :
    cleared.Becomes (LayoutRule out (layouts.map SnapshotLayout.entry)) filled := by
  have honly :
      Only (LayoutRule out (layouts.map SnapshotLayout.entry)) (writeLayouts out layouts) :=
    only_writeLayouts fun layout hlayout =>
      ⟨layout.entry, List.mem_map_of_mem hlayout, (h.sound _ hlayout).dir,
      rfl, fun f hf => ⟨(h.sound _ hlayout).files f hf, List.mem_map_of_mem hf⟩⟩
  exact honly.becomes h.fills

theorem here_filled : filled.here = t.here := h.becomes_filled.here.trans h.here_cleared

theorem here_saved : t'.here = t.here := h.saves.grows.here.trans h.here_filled

theorem location_manifest :
    filled.location (Manifest.path out) = t.location out ++ ["manifest.json"] := by
  rw [Manifest.location_path, FileTree.location_congr h.here_filled]

/-- The files of the layouts are where they belong. -/
theorem find?_filled : ∀ layout ∈ layouts, ∀ f ∈ layout.files,
    filled.find? (t.location out ++ layout.dir :: Path.parts f.1.file) = some (.file f.2) := by
  rw [← FileTree.location_congr h.here_cleared]
  exact writeLayouts_eq_ok h.sound h.distinct h.fills

/-- All that was written is there in the end. -/
theorem kept : Kept out (Manifest.describe package sort result) result.snapshots t' := by
  refine ⟨?_, fun i entry s hentry hs f bytes hget => ?_⟩
  · rw [FileTree.location_congr h.here_saved, ← h.location_manifest]
    exact h.saves.find?_self
  · obtain ⟨layout, hlayout, hof⟩ := SnapshotLayout.exists_of_getElem? h.laidOut hentry hs
    obtain ⟨placed, hplaced, rfl⟩ := SnapshotLayout.ofEntry_eq_ok hof
    rw [Manifest.getElem?_describe, hs, Option.map_some, Option.some.injEq] at hentry
    subst hentry
    obtain ⟨g, rfl, hg⟩ := mem_zip_of_get? (placeFiles_eq_ok hplaced).1 hget
    have hfound := h.find?_filled _ hlayout (g, bytes) hg
    rw [FileTree.location_congr h.here_saved, h.saves.find?_of_ne]
    · exact hfound
    · rw [h.location_manifest, Ne, List.append_cancel_left_eq, List.cons.injEq]
      exact fun heq => DirectoryName.ofLabel_ne_manifest _ _ heq.1.symm

end WritingRun

/-- Snapshots are kept once they were written. -/
theorem kept_of_writeSnapshots (h : writeSnapshots out package sort result t = (.ok m, t')) :
    m = Manifest.describe package sort result ∧ t'.here = t.here ∧
      Kept out m result.snapshots t' := by
  obtain ⟨rfl, made, cleared, filled, layouts, hrun⟩ := writeSnapshots_eq_ok h
  exact ⟨rfl, hrun.here_saved, hrun.kept⟩

/-- A manifest is loaded where its path leads to its text. -/
theorem Manifest.load_of_find? (readable : m.Readable)
    (found : t.locate (Manifest.path out) = .ok l)
    (hfile : t.find? l = some (.file m.render.toUTF8)) : Manifest.load out t = .ok m := by
  have hread : t.readText (Manifest.path out) = .ok m.render :=
    FileTree.readText_eq_ok.mpr ⟨_, FileTree.read_eq_ok.mpr ⟨l, found, hfile⟩,
      Text.fromUTF8?_toUTF8 _⟩
  unfold Manifest.load
  rw [hread]
  show Manifest.parse? m.render = .ok m
  rw [Manifest.parse?_render, if_pos readable]

/-- Whoever reads the manifest that is kept gets what was written. -/
theorem Kept.load {snapshots : List Snapshot} (h : Kept out m snapshots t) (readable : m.Readable)
    (found : t.locate (Manifest.path out) = .ok l) : Manifest.load out t = .ok m := by
  refine Manifest.load_of_find? readable found ?_
  rw [FileTree.locate_eq found, Manifest.location_path, h.manifest]

end CoverageReplay
