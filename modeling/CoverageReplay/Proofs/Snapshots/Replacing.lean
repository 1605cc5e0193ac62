import CoverageReplay.Proofs.Snapshots.Writing

/-!
# Snapshots replaced

Whoever writes snapshots into an output directory first removes what the manifest there lists. The
invariant that carries from one run to the next is that every file in the output directory is the
manifest or would be removed (`Replaceable`): the manifest that a run writes lists all directories
that the run makes, under names that are taken for those of snapshots. So after any row of runs the
directory holds the files of the last one and no others (`written_replays_replaced`).

The path of the output directory must not lead through a snapshot in it (`Direct`). Where it does,
the path leads nowhere once that snapshot is removed, and the directories that come after it stay
(`written_replays_not_replaced`).
-/

namespace CoverageReplay

open FileAction

/-- What is written in one run: the result of a replay, and how it was asked for. -/
structure Replay where
  package : String
  sort : SortStrategy
  result : JobResult

namespace Replay

/-- The manifest of what is written. -/
def manifest (r : Replay) : Manifest := .describe r.package r.sort r.result

/-- The directory of a snapshot, named by its test, or as the baseline where there is none. -/
def directory (r : Replay) (i : Nat) : String :=
  DirectoryName.ofLabel i (r.result.tests[i]?.getD Manifest.baselineLabel)

/-- Whether the tests of a replay have names, and its snapshots have indices of at most 64 bits. -/
structure Named (r : Replay) : Prop where
  tests : "" ∉ r.result.tests
  indices : r.result.snapshots.length ≤ 2 ^ 64

end Replay

/-- Writes replays into an output directory, one after the other. -/
def writeReplays (out : String) : List Replay → FileAction CommandError Unit
  | [] => pure ()
  | r :: rest => do
    let _ ← writeSnapshots out r.package r.sort r.result
    writeReplays out rest

/-- Whether the files at or below an output directory are those of a replay and no others: the
manifest, which can be read, and the files of each snapshot below the directory of that snapshot. -/
structure HoldsOnly (out : String) (r : Replay) (t : FileTree) : Prop where
  manifest : Manifest.load out t = .ok r.manifest
  placed : ∀ s ∈ r.result.snapshots, ∀ f ∈ s.keys, relativeParts f = .ok (Path.parts f)
  files : ∀ l bytes, t.location out <+: l → (t.find? l = some (.file bytes) ↔
    (l = t.location out ++ ["manifest.json"] ∧ bytes = r.manifest.render.toUTF8) ∨
    ∃ i s f, r.result.snapshots[i]? = some s ∧ s.get? f = some bytes ∧
      l = t.location out ++ r.directory i :: Path.parts f)

variable {t t' made cleared filled : FileTree} {l : Location} {out package dir : String}
    {sort : SortStrategy}
variable {result : JobResult} {m : Manifest} {r : Replay} {entries : List ManifestEntry}
    {bytes : ByteArray}
variable {layouts : List SnapshotLayout} {files : List (PlacedFile × ByteArray)}
    {replays : List Replay}

/-! ## Removing -/

/-- Whether the way to an output directory stays outside the directories of snapshots in it. -/
def Direct (out : String) (t : FileTree) : Prop :=
  ∀ way, way <+: Path.parts out → ∀ name, DirectoryName.isValid name →
    ¬ t.location out ++ [name] <+: (t.base out).along way

/-- Whether a path is direct depends on the working directory only. -/
theorem Direct.congr (here : t'.here = t.here) (h : Direct out t) : Direct out t' := by
  intro way hway name hvalid
  rw [FileTree.location_congr here, FileTree.base_congr here]
  exact h way hway name hvalid

/-- A path without two dots leads nowhere but downwards. -/
theorem direct_of_notMem (h : ".." ∉ Path.parts out) (t : FileTree) : Direct out t := by
  intro way hway name _ hbelow
  have hdown : ".." ∉ way := fun hmem => h (hway.subset hmem)
  rw [FileTree.location, Location.along_of_notMem _ h, Location.along_of_notMem _ hdown] at hbelow
  have hlength := hbelow.length_le
  have hshort := hway.length_le
  simp only [List.length_append, List.length_singleton] at hlength
  omega

/-- Removing one snapshot leaves the way to the others open. -/
theorem Direct.isDirectory_drop (direct : Direct out t) {removed : String}
    (valid : DirectoryName.isValid removed) (hname : IsEntryName dir) (hne : dir ≠ removed)
    (h : t.isDirectory (Path.join out dir)) :
    (t.drop (t.location out ++ [removed])).isDirectory (Path.join out dir) := by
  have hrelative := isAbsolute_of_isEntryName hname
  have hhere : (t.drop (t.location out ++ [removed])).here = t.here := rfl
  refine FileTree.isDirectory_of_same hhere (fun way hway => ?_) h
  rw [Path.parts_join hrelative, hname.toIsName.parts] at hway
  rw [FileTree.base_join hrelative, FileTree.find?_drop, if_neg]
  rintro ⟨hbelow, -⟩
  rcases prefix_append_cases hway with hout | ⟨rest, rfl, hrest⟩
  · exact direct way hout removed valid hbelow
  · rcases List.prefix_cons_iff.mp hrest with rfl | ⟨last, rfl, hlast⟩
    · rw [List.append_nil] at hbelow
      exact direct _ (List.prefix_refl _) removed valid hbelow
    · rw [List.prefix_nil.mp hlast, Location.along_append, Location.along_cons, Location.along_nil,
        Location.follow, if_neg hname.down] at hbelow
      have hsame := hbelow.eq_of_length (by rw [List.length_append, List.length_append]; rfl)
      exact hne (List.singleton_inj.mp (List.append_cancel_left hsame)).symm

/-- An entry is removed if its name has the shape of a directory name and its path leads to a
directory. -/
theorem removeSnapshots_cons_eq_ok {entry : ManifestEntry}
    (h : removeSnapshots out (entry :: entries) t = (.ok (), t')) :
    (DirectoryName.isValid entry.dir ∧
      removeSnapshots out entries (t.drop (t.location out ++ [entry.dir])) = (.ok (), t')) ∨
    (¬ (DirectoryName.isValid entry.dir ∧ t.isDirectory (Path.join out entry.dir)) ∧
      removeSnapshots out entries t = (.ok (), t')) := by
  unfold removeSnapshots at h
  rw [bind_run_ok (get_run t)] at h
  split at h
  next hguard =>
    rw [Bool.and_eq_true] at hguard
    obtain ⟨_, u, hremove, hrest⟩ := bind_eq_ok h
    rcases removeDirectory_run (Path.join out entry.dir) t with ⟨fault, herror⟩ | hdrop
    · rw [herror] at hremove
      cases hremove
    · rw [hdrop, (DirectoryName.isEntryName_of_isValid hguard.1).location_join] at hremove
      cases hremove
      exact .inl ⟨hguard.1, hrest⟩
  next hguard =>
    rw [Bool.and_eq_true] at hguard
    exact .inr ⟨hguard, h⟩

/-- What is left after the directories of entries were removed was there before and is in none of
them. -/
theorem find?_of_removeSnapshots {e : FileEntry} (direct : Direct out t)
    (h : removeSnapshots out entries t = (.ok (), t')) (hsome : t'.find? l = some e) :
    t.find? l = some e ∧ ∀ entry ∈ entries, DirectoryName.isValid entry.dir →
      t.isDirectory (Path.join out entry.dir) → ¬ t.location out ++ [entry.dir] <+: l := by
  induction entries generalizing t with
  | nil =>
    cases h
    exact ⟨hsome, nofun⟩
  | cons entry rest ih =>
    rw [List.forall_mem_cons]
    rcases removeSnapshots_cons_eq_ok h with ⟨hvalid, hrest⟩ | ⟨hskip, hrest⟩
    · have hdirect : Direct out (t.drop (t.location out ++ [entry.dir])) := direct.congr rfl
      obtain ⟨hthere, houtside⟩ := ih hdirect hrest
      obtain ⟨hnot, hthere⟩ := FileTree.find?_drop_eq_some (List.concat_ne_nil _ _) hthere
      refine ⟨hthere, fun _ _ => hnot, fun other hother hother' hdirectory => ?_⟩
      -- A later entry of the same name is gone with this one, and the way to any other is still
      -- open.
      by_cases hsame : other.dir = entry.dir
      · rw [hsame]
        exact hnot
      · have hname := DirectoryName.isEntryName_of_isValid hother'
        exact houtside other hother hother' (direct.isDirectory_drop hvalid hname hsame hdirectory)
    · obtain ⟨hthere, houtside⟩ := ih direct hrest
      exact ⟨hthere, fun hvalid hdirectory => absurd ⟨hvalid, hdirectory⟩ hskip, houtside⟩

theorem grows_of_makeDirectories (h : makeDirectories out t = (.ok (), t')) : FileTree.Grows t t' :=
  ((only_makeDirectories out).becomes h).grows fun _ _ => FileRule.growing_of_making

/-- Whether a location is in the directory of a snapshot that the manifest of an output directory
lists, and the path of that directory leads there. -/
def Listed (out : String) (t : FileTree) (l : Location) : Prop :=
  ∃ m, Manifest.load out t = .ok m ∧ ∃ entry ∈ m.snapshots, DirectoryName.isValid entry.dir ∧
    t.isDirectory (Path.join out entry.dir) ∧ t.location out ++ [entry.dir] <+: l

/-- Nothing that is listed is left. -/
theorem find?_of_removePrevious {e : FileEntry} (direct : Direct out t)
    (h : removePrevious out t = (.ok (), t')) (hsome : t'.find? l = some e) :
    t.find? l = some e ∧ ¬ Listed out t l := by
  unfold removePrevious at h
  rw [bind_run_ok (get_run t)] at h
  cases hload : Manifest.load out t with
  | ok previous =>
    rw [hload] at h
    obtain ⟨hthere, houtside⟩ := find?_of_removeSnapshots direct h hsome
    refine ⟨hthere, ?_⟩
    rintro ⟨m, hm, entry, hentry, hvalid, hdirectory, hbelow⟩
    rw [hload] at hm
    cases hm
    exact houtside entry hentry hvalid hdirectory hbelow
  | error fault =>
    rw [hload] at h
    cases h
    refine ⟨hsome, ?_⟩
    rintro ⟨m, hm, _⟩
    rw [hload] at hm
    cases hm

/-- The manifest is still read after directories were made. -/
theorem Manifest.load_of_makeDirectories (hmake : makeDirectories out t = (.ok (), t'))
    (hload : load out t = .ok m) : load out t' = .ok m := by
  unfold load at hload ⊢
  split at hload
  next text hread =>
    rwa [(grows_of_makeDirectories hmake).readText (fun _ =>
      (find?_file_of_makeDirectories hmake).mpr) hread]
  next => cases hload

/-- What is listed is still listed after directories were made. -/
theorem Listed.makeDirectories (h : Listed out t l) (hmake : makeDirectories out t = (.ok (), t')) :
    Listed out t' l := by
  obtain ⟨m, hload, entry, hentry, hvalid, hdirectory, hbelow⟩ := h
  have hgrows := grows_of_makeDirectories hmake
  refine ⟨m, Manifest.load_of_makeDirectories hmake hload, entry, hentry, hvalid,
    hgrows.isDirectory hdirectory, ?_⟩
  rwa [FileTree.location_congr hgrows.here]

/-- Whether every file at or below an output directory is its manifest or listed there, the way to
the directory being direct. -/
structure Replaceable (out : String) (t : FileTree) : Prop where
  direct : Direct out t
  files : ∀ l bytes, t.location out <+: l → t.find? l = some (.file bytes) →
    l = t.location out ++ ["manifest.json"] ∨ Listed out t l

/-! ## Writing -/

/-- Writing files leaves all ways open. -/
theorem growing_writeFiles (dir : String) (files : List (PlacedFile × ByteArray)) :
    Only FileRule.growing (writeFiles dir files) := by
  induction files with
  | nil => exact only_pure ()
  | cons f rest ih =>
    unfold writeFiles
    refine Only.bind ?_ fun _ => Only.bind ?_ fun _ => ih
    · exact (only_makeDirectoriesAlong _ _).mono fun _ _ => FileRule.growing_of_making
    · exact (only_write _ _).mono fun _ _ => FileRule.growing_of_writing

/-- Writing snapshots leaves all ways open. -/
theorem growing_writeLayouts (out : String) (layouts : List SnapshotLayout) :
    Only FileRule.growing (writeLayouts out layouts) := by
  induction layouts with
  | nil => exact only_pure ()
  | cons layout rest ih =>
    unfold writeLayouts
    exact (growing_writeFiles _ _).bind fun _ => ih

/-- Once a file of a snapshot was written, the path of the directory of the snapshot leads there. -/
theorem isDirectory_of_writeFiles (hdir : IsEntryName dir) (sound : ∀ f ∈ files, f.1.Sound)
    (hne : files ≠ []) (h : writeFiles (Path.join out dir) files t = (.ok (), t')) :
    t'.isDirectory (Path.join out dir) := by
  obtain ⟨⟨placed, contents⟩, rest, rfl⟩ := List.exists_cons_of_ne_nil hne
  have hsound := sound _ List.mem_cons_self
  obtain ⟨_, u, _, h⟩ := bind_eq_ok h
  obtain ⟨_, v, hwrite, h⟩ := bind_eq_ok h
  have hbelow : Path.parts placed.relative ≠ [] := by
    rw [hsound.parts_relative]
    exact hsound.parts_ne_nil
  have hhome : Path.join out dir ≠ "" := by
    refine Path.join_ne_empty (isAbsolute_of_isEntryName hdir) ?_
    rw [hdir.toIsName.parts]
    exact List.cons_ne_nil _ _
  -- The way to the file leads over the directory, and what is written after it closes no way.
  have hgrows := ((growing_writeFiles _ _).becomes h).grows fun _ _ => id
  exact hgrows.isDirectory
    (FileTree.isDirectory_of_locate_join hsound.isAbsolute_relative hbelow hhome
      (write_eq_ok hwrite).locate)

/-- The directory of each snapshot with a file in it is there once the snapshots are written. -/
theorem isDirectory_of_writeLayouts (sound : ∀ layout ∈ layouts, layout.Sound)
    (h : writeLayouts out layouts t = (.ok (), t')) :
    ∀ layout ∈ layouts, layout.files ≠ [] → t'.isDirectory (Path.join out layout.dir) := by
  induction layouts generalizing t with
  | nil => exact nofun
  | cons layout rest ih =>
    obtain ⟨_, u, hwrite, h⟩ := bind_eq_ok h
    rw [List.forall_mem_cons] at sound ⊢
    refine ⟨fun hne => ?_, ih sound.2 h⟩
    have hgrows := ((growing_writeLayouts _ _).becomes h).grows fun _ _ => id
    exact hgrows.isDirectory (isDirectory_of_writeFiles sound.1.dir sound.1.files hne hwrite)

namespace WritingRun

variable (h : WritingRun out package sort result t made cleared filled t' layouts)

include h

/-- What was removed was all but the manifest. -/
theorem eq_manifest_of_cleared (hreplace : Replaceable out t) (below : t.location out <+: l)
    (hfile : cleared.find? l = some (.file bytes)) : l = t.location out ++ ["manifest.json"] := by
  obtain ⟨hmade, hnot⟩ := find?_of_removePrevious (hreplace.direct.congr h.here_made) h.clears hfile
  rcases hreplace.files l bytes below
    ((find?_file_of_makeDirectories h.makes).mp hmade) with hl | hlisted
  · exact hl
  · exact absurd (hlisted.makeDirectories h.makes) hnot

/-- After the layouts were written there are their files and at most the manifest. -/
theorem file_filled (hreplace : Replaceable out t) (below : t.location out <+: l)
    (hfile : filled.find? l = some (.file bytes)) :
    l = t.location out ++ ["manifest.json"] ∨
      ∃ layout ∈ layouts, ∃ f ∈ layout.files,
        l = t.location out ++ layout.dir :: Path.parts f.1.file ∧ f.2 = bytes := by
  by_cases hold : cleared.find? l = some (.file bytes)
  · exact .inl (h.eq_manifest_of_cleared hreplace below hold)
  · obtain ⟨u, hbefore, hmay⟩ := h.becomes_filled.put_of_find? hfile hold
    have hhere := hbefore.here.trans h.here_cleared
    -- Only files are looked for, so of all that may be put only a file of a layout remains.
    cases hmay with
    | writeFile named listed =>
      obtain ⟨layout, hlayout, rfl⟩ := List.mem_map.mp named
      obtain ⟨f, hf, rfl⟩ := List.mem_map.mp listed
      have hl := FileTree.location_congr hhere out
      have hfound := h.find?_filled layout hlayout f hf
      rw [← hl] at hfound
      have hsame := hfound.symm.trans hfile
      rw [Option.some.injEq, FileEntry.file.injEq] at hsame
      exact .inr ⟨layout, hlayout, f, hf, by rw [hl]; rfl, hsame⟩

/-- In the end there are the manifest and the files of the layouts, and no others. -/
theorem file_saved (hreplace : Replaceable out t) (below : t.location out <+: l)
    (hfile : t'.find? l = some (.file bytes)) :
    (l = t.location out ++ ["manifest.json"] ∧
      bytes = (Manifest.describe package sort result).render.toUTF8) ∨
    ∃ layout ∈ layouts, ∃ f ∈ layout.files,
      l = t.location out ++ layout.dir :: Path.parts f.1.file ∧ f.2 = bytes := by
  by_cases hl : l = t.location out ++ ["manifest.json"]
  · have hsaved := h.saves.find?_self
    rw [h.location_manifest, ← hl, hfile, Option.some.injEq, FileEntry.file.injEq] at hsaved
    exact .inl ⟨hl, hsaved⟩
  · rw [h.saves.find?_of_ne (by rw [h.location_manifest]; exact Ne.symm hl)] at hfile
    exact .inr ((h.file_filled hreplace below hfile).resolve_left hl)

end WritingRun

/-! ## One run -/

namespace Replay

theorem getElem?_manifest (r : Replay) (i : Nat) : r.manifest.snapshots[i]? =
    r.result.snapshots[i]?.map (.ofSnapshot i (r.result.tests[i]?.getD Manifest.baselineLabel)) :=
  Manifest.getElem?_describe ..

/-- Each snapshot of a replay has its entry. -/
theorem entry_of_snapshot {i : Nat} {s : Snapshot} (hs : r.result.snapshots[i]? = some s) :
    r.manifest.snapshots[i]? =
      some (.ofSnapshot i (r.result.tests[i]?.getD Manifest.baselineLabel) s) := by
  rw [getElem?_manifest, hs, Option.map_some]

/-- The directories of a replay are taken for those of snapshots. -/
theorem Named.isValid_directory (h : r.Named) (i : Nat) :
    DirectoryName.isValid (r.directory i) := by
  refine DirectoryName.isValid_ofLabel i ?_
  cases htest : r.result.tests[i]? with
  | none => decide
  | some test =>
    rintro rfl
    exact h.tests (List.mem_of_getElem? htest)

/-- The manifest of a replay can be read if its indices are words. -/
theorem readable_manifest (indices : r.result.snapshots.length ≤ 2 ^ 64) : r.manifest.Readable := by
  intro entry hentry
  obtain ⟨i, hi⟩ := List.getElem?_of_mem hentry
  rw [getElem?_manifest, Option.map_eq_some_iff] at hi
  obtain ⟨s, hs, rfl⟩ := hi
  have hlt := (List.getElem?_eq_some_iff.mp hs).1
  show i < 2 ^ 64
  omega

theorem Named.readable (h : r.Named) : r.manifest.Readable := readable_manifest h.indices

end Replay

namespace WritingRun

variable (h : WritingRun out r.package r.sort r.result t made cleared filled t' layouts)

include h

/-- A layout has the directory and the files of the snapshot in its place. -/
theorem exists_of_layout {layout : SnapshotLayout} (hlayout : layout ∈ layouts) :
    ∃ i s placed, r.result.snapshots[i]? = some s ∧ placeFiles s.keys = .ok placed ∧
      layout = ⟨r.directory i, placed.zip s.values⟩ := by
  obtain ⟨i, hi⟩ := List.getElem?_of_mem hlayout
  obtain ⟨entry, s, hentry, hs, hof⟩ := SnapshotLayout.of_getElem? h.laidOut hi
  rw [Manifest.getElem?_describe, hs, Option.map_some, Option.some.injEq] at hentry
  subst hentry
  obtain ⟨placed, hplaced, rfl⟩ := SnapshotLayout.ofEntry_eq_ok hof
  exact ⟨i, s, placed, hs, hplaced, rfl⟩

/-- All files of a replay that was written have relative paths. -/
theorem relativeParts {s : Snapshot} {f : String} (hs : s ∈ r.result.snapshots) (hf : f ∈ s.keys) :
    relativeParts f = .ok (Path.parts f) := by
  obtain ⟨i, hi⟩ := List.getElem?_of_mem hs
  obtain ⟨_, _, hof⟩ := SnapshotLayout.exists_of_getElem? h.laidOut (Replay.entry_of_snapshot hi) hi
  obtain ⟨placed, hplaced, _⟩ := SnapshotLayout.ofEntry_eq_ok hof
  obtain ⟨hfiles, hsound, _⟩ := placeFiles_eq_ok hplaced
  have hmem : f ∈ placed.map PlacedFile.file := hfiles ▸ hf
  obtain ⟨g, hg, rfl⟩ := List.mem_map.mp hmem
  exact relativeParts_eq_ok.mpr ⟨(hsound g hg).down, (hsound g hg).parts_ne_nil, rfl⟩

theorem load (named : r.Named) : Manifest.load out t' = .ok r.manifest :=
  h.kept.load named.readable h.saves.locate

/-- What is written into a directory that can be replaced is all that it holds. -/
theorem holdsOnly (named : r.Named) (hreplace : Replaceable out t) : HoldsOnly out r t' := by
  refine ⟨h.load named, fun s hs f hf => h.relativeParts hs hf, fun l bytes below => ?_⟩
  rw [FileTree.location_congr h.here_saved] at below ⊢
  constructor
  · intro hfile
    rcases h.file_saved hreplace below hfile with hmanifest | ⟨layout, hlayout, ⟨g, b⟩,
      hg, rfl, rfl⟩
    · exact .inl hmanifest
    · obtain ⟨i, s, placed, hs, hplaced, rfl⟩ := h.exists_of_layout hlayout
      exact .inr ⟨i, s, g.file, hs, get?_of_mem_zip hplaced hg, rfl⟩
  · rw [← FileTree.location_congr h.here_saved]
    rintro (⟨rfl, rfl⟩ | ⟨i, s, f, hs, hget, rfl⟩)
    · exact h.kept.manifest
    · exact h.kept.files i _ s (Replay.entry_of_snapshot hs) hs f bytes hget

/-- The next run removes all that this one wrote. -/
theorem replaceable (named : r.Named) (hreplace : Replaceable out t) : Replaceable out t' := by
  refine ⟨hreplace.direct.congr h.here_saved, fun l bytes below hfile => ?_⟩
  rw [FileTree.location_congr h.here_saved] at below ⊢
  rcases h.file_saved hreplace below hfile with ⟨hl, _⟩ | ⟨layout, hlayout, f, hf, rfl, _⟩
  · exact .inl hl
  · have hfilled :=
      isDirectory_of_writeLayouts h.sound h.fills layout hlayout (List.ne_nil_of_mem hf)
    have hdirectory := h.saves.grows.isDirectory hfilled
    obtain ⟨i, s, placed, hs, _, rfl⟩ := h.exists_of_layout hlayout
    have hentry := List.mem_of_getElem? (Replay.entry_of_snapshot hs)
    refine .inr ⟨_, h.load named, _, hentry, named.isValid_directory i, hdirectory, ?_⟩
    rw [FileTree.location_congr h.here_saved]
    exact prefix_append_cons _ _ _

end WritingRun

/-! ## Many runs -/

/-- Between two runs all that is in the output directory is replaceable. -/
theorem replaceable_of_writeReplays (named : ∀ r ∈ replays, r.Named) (hreplace : Replaceable out t)
    (h : writeReplays out replays t = (.ok (), t')) : Replaceable out t' := by
  induction replays generalizing t with
  | nil =>
    cases h
    exact hreplace
  | cons r rest ih =>
    rw [List.forall_mem_cons] at named
    obtain ⟨_, u, hwrite, hrest⟩ := bind_eq_ok h
    obtain ⟨_, _, _, _, _, hrun⟩ := writeSnapshots_eq_ok hwrite
    exact ih named.2 (hrun.replaceable named.1 hreplace) hrest

/-- The last of some replays is written after the others. -/
theorem writeReplays_concat_eq_ok (h : writeReplays out (replays ++ [r]) t = (.ok (), t')) :
    ∃ u m, writeReplays out replays t = (.ok (), u) ∧
      writeSnapshots out r.package r.sort r.result u = (.ok m, t') := by
  induction replays generalizing t with
  | nil =>
    obtain ⟨m, u, hwrite, hrest⟩ := bind_eq_ok h
    cases hrest
    exact ⟨t, m, rfl, hwrite⟩
  | cons first rest ih =>
    obtain ⟨_, v, hfirst, hrest⟩ := bind_eq_ok h
    obtain ⟨u, m, hbefore, hwrite⟩ := ih hrest
    refine ⟨u, m, ?_, hwrite⟩
    rw [writeReplays, bind_run_ok hfirst]
    exact hbefore

/-- Each run replaces what the runs before it wrote. If there is no file in the output directory at
first and the way to it does not lead through the directory of a snapshot, then after any row of
runs that succeed its files are those of the last run: the manifest, which is read as it was
written, and the files of each snapshot below the directory of that snapshot. -/
theorem written_replays_replaced {earlier : List Replay} {last : Replay} (direct : Direct out t)
    (fresh : ∀ l bytes, t.location out <+: l → t.find? l ≠ some (.file bytes))
    (named : ∀ r ∈ earlier ++ [last], r.Named)
    (written : writeReplays out (earlier ++ [last]) t = (.ok (), t')) : HoldsOnly out last t' := by
  have hstart : Replaceable out t :=
    ⟨direct, fun l bytes below hfile => absurd hfile (fresh l bytes below)⟩
  obtain ⟨u, m, hbefore, hwrite⟩ := writeReplays_concat_eq_ok written
  obtain ⟨_, _, _, _, _, hrun⟩ := writeSnapshots_eq_ok hwrite
  refine hrun.holdsOnly (named last (List.mem_append_right _ (List.mem_singleton_self _))) ?_
  exact replaceable_of_writeReplays (fun r hr => named r (List.mem_append_left _ hr)) hstart hbefore

/-- A replay of two files. -/
def twoFiles : Replay :=
  ⟨"p", .hardcoded, ["t"], [⟨[("a", ⟨#[1]⟩), ("b", ⟨#[2]⟩)]⟩, ⟨[("a", ⟨#[1]⟩), ("b", ⟨#[2]⟩)]⟩]⟩

/-- A replay of one file with the same test. -/
def oneFile : Replay := ⟨"p", .hardcoded, ["t"], [⟨[("a", ⟨#[3]⟩)]⟩, ⟨[("a", ⟨#[3]⟩)]⟩]⟩

/-- Both replays have names. -/
theorem named_oneFile_twoFiles : ∀ r ∈ [twoFiles] ++ [oneFile], r.Named := by
  have htwo : twoFiles.Named := ⟨by decide, by decide⟩
  have hone : oneFile.Named := ⟨by decide, by decide⟩
  exact List.forall_mem_cons.mpr ⟨htwo, List.forall_mem_singleton.mpr hone⟩

/-- The empty tree has no files. -/
theorem find?_empty_ne_file (l : Location) (contents : ByteArray) :
    FileTree.empty.find? l ≠ some (.file contents) := by
  cases l with
  | nil => exact nofun
  | cons => exact nofun

/-- Writes snapshots over those of a manifest that is known. -/
def writeOver (out : String) (previous : Manifest) (layouts : List SnapshotLayout) (m : Manifest) :
    FileAction FileFault Unit := do
  makeDirectories out
  removeSnapshots out previous.snapshots
  writeLayouts out layouts
  m.save out

/-- Over a manifest that is known the snapshots are written as without looking at it. -/
theorem writeSnapshots_run {previous : Manifest} (hload : Manifest.load out t = .ok previous)
    (laidOut : SnapshotLayout.ofEntries r.manifest.snapshots r.result.snapshots = .ok layouts)
    (h : writeOver out previous layouts r.manifest t = (.ok (), t')) :
    writeSnapshots out r.package r.sort r.result t = (.ok r.manifest, t') := by
  obtain ⟨_, u, hmake, hrest⟩ := bind_eq_ok h
  have hprevious : removePrevious out u = removeSnapshots out previous.snapshots u := by
    unfold removePrevious
    rw [bind_run_ok (get_run u), Manifest.load_of_makeDirectories hmake hload]
  have hrun :
    (do makeDirectories out; removePrevious out; writeLayouts out layouts; r.manifest.save out :
      FileAction FileFault Unit) t = (.ok (), t') := by
    rw [bind_run_ok hmake, bind_run, hprevious, ← bind_run]
    exact hrest
  have hlaid : SnapshotLayout.ofEntries (Manifest.describe r.package r.sort r.result).snapshots
      r.result.snapshots = .ok layouts := laidOut
  unfold writeSnapshots
  simp only [hlaid]
  rw [bind_run_ok (ofExcept_run_ok layouts t)]
  exact bind_run_ok (mapError_run_ok hrun)

/-- The tree after the larger replay was written. -/
def writtenFirst (out : String) : FileTree :=
  (writeSnapshots out twoFiles.package twoFiles.sort twoFiles.result .empty).2

/-- The layouts of the smaller replay. -/
def oneFileLayouts : List SnapshotLayout :=
  [⟨"000-t", [(⟨"a", "a"⟩, ⟨#[3]⟩)]⟩, ⟨"001-baseline", [(⟨"a", "a"⟩, ⟨#[3]⟩)]⟩]

/-- The tree after the smaller replay was written over the larger one. -/
def writtenBoth (out : String) : FileTree :=
  (writeOver out twoFiles.manifest oneFileLayouts oneFile.manifest (writtenFirst out)).2

/-- Both replays are written if the larger one is, its manifest is found, and the smaller one is
written over it. -/
theorem writeReplays_twoFiles_oneFile
    (hfirst : (writeSnapshots out twoFiles.package twoFiles.sort twoFiles.result
      .empty).1.toOption = some twoFiles.manifest)
    (hfound : (writtenFirst out).locate (Manifest.path out) = .ok l)
    (hover : (writeOver out twoFiles.manifest oneFileLayouts oneFile.manifest
      (writtenFirst out)).1.toOption = some ()) :
    writeReplays out ([twoFiles] ++ [oneFile]) .empty = (.ok (), writtenBoth out) := by
  have hwritten : writeSnapshots out twoFiles.package twoFiles.sort twoFiles.result .empty =
      (.ok twoFiles.manifest, writtenFirst out) := eq_of_toOption hfirst
  -- What was written is what is read, so the text of the manifest is not parsed here.
  have hkept := (kept_of_writeSnapshots hwritten).2.2
  have hload := hkept.load (named_oneFile_twoFiles twoFiles List.mem_cons_self).readable hfound
  have hlaidOut : SnapshotLayout.ofEntries oneFile.manifest.snapshots oneFile.result.snapshots =
      .ok oneFileLayouts := rfl
  have hsecond := writeSnapshots_run hload hlaidOut (eq_of_toOption hover)
  rw [List.singleton_append, writeReplays, bind_run_ok hwritten, writeReplays, bind_run_ok hsecond]
  rfl

theorem written_replays_replaced_oneFile :
    Direct "o" .empty ∧
    (∀ l bytes, FileTree.empty.location "o" <+: l → FileTree.empty.find? l ≠ some (.file bytes)) ∧
    (∀ r ∈ [twoFiles] ++ [oneFile], r.Named) ∧
    writeReplays "o" ([twoFiles] ++ [oneFile]) .empty = (.ok (), writtenBoth "o") ∧
    HoldsOnly "o" oneFile (writtenBoth "o") := by
  have hdirect : Direct "o" .empty := direct_of_notMem (by decide) _
  have hfound : (writtenFirst "o").locate (Manifest.path "o") = .ok ["o", "manifest.json"] := by
    decide +kernel
  have hwritten := writeReplays_twoFiles_oneFile (by decide +kernel) hfound (by decide +kernel)
  have hfresh (l : Location) (bytes : ByteArray) (_ : FileTree.empty.location "o" <+: l) :
      FileTree.empty.find? l ≠ some (.file bytes) := find?_empty_ne_file l bytes
  exact ⟨hdirect, hfresh, named_oneFile_twoFiles, hwritten,
    written_replays_replaced hdirect hfresh named_oneFile_twoFiles hwritten⟩

/-- Through the directory of a snapshot the second run does not find the directory of the baseline
any more once it has removed that of the test, and a file of the first run stays. -/
theorem written_replays_not_replaced :
    (∀ r ∈ [twoFiles] ++ [oneFile], r.Named) ∧
    (∀ l bytes, FileTree.empty.location "o/000-t/.." <+: l →
      FileTree.empty.find? l ≠ some (.file bytes)) ∧
    writeReplays "o/000-t/.." ([twoFiles] ++ [oneFile]) .empty =
      (.ok (), writtenBoth "o/000-t/..") ∧
    (writtenBoth "o/000-t/..").find? ["o", "001-baseline", "b"] = some (.file ⟨#[2]⟩) ∧
    ¬ HoldsOnly "o/000-t/.." oneFile (writtenBoth "o/000-t/..") := by
  have hfound : (writtenFirst "o/000-t/..").locate (Manifest.path "o/000-t/..") =
      .ok ["o", "manifest.json"] := by
    decide +kernel
  have hwritten := writeReplays_twoFiles_oneFile (by decide +kernel) hfound (by decide +kernel)
  have hlocation : (writtenBoth "o/000-t/..").location "o/000-t/.." = ["o"] := by decide +kernel
  have hstale : (writtenBoth "o/000-t/..").find? ["o", "001-baseline", "b"] =
      some (.file ⟨#[2]⟩) := by
    decide +kernel
  refine ⟨named_oneFile_twoFiles, fun l bytes _ =>
    find?_empty_ne_file l bytes, hwritten, hstale, fun hholds => ?_⟩
  rcases (hholds.files _ _ (by rw [hlocation]; decide)).mp hstale with ⟨hl, _⟩ | ⟨i, s, f,
    hs, hget, _⟩
  · rw [hlocation] at hl
    exact absurd hl (by decide)
  · -- The second replay has no file with the bytes that were left.
    have hall : ∀ s ∈ oneFile.result.snapshots, ∀ e ∈ s.entries, e.2 ≠ ⟨#[2]⟩ := by decide +kernel
    exact hall s (List.mem_of_getElem? hs) (f, ⟨#[2]⟩) (SortedMap.mem_of_get? hget) rfl

end CoverageReplay
