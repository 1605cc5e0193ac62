import CoverageReplay.Proofs.Snapshots.Writing

/-!
# Snapshots restored

Checking out snapshots of relative files leaves an output directory as it was written as long as no
file belongs at or below it (`Kept.checkout`), and the snapshot that is checked out is restored file
by file (`Kept.restored`).
-/

namespace CoverageReplay

open FileAction

variable {t t' t₁ t₂ u : FileTree} {l : Location} {out package root dir : String}
    {sort : SortStrategy}
variable {result : JobResult} {m : Manifest} {paths : List String} {i : Nat}

/-! ## Checking out -/

/-- A checkout leaves all ways open. -/
theorem grows_of_checkoutRule {files : List String} (h : t.Becomes (CheckoutRule root files) t') :
    FileTree.Grows t t' := by
  refine h.grows fun u c hmay => ?_
  cases hmay with
  | makeRoot _ _ _ missing | makeAbove _ _ missing => exact FileTree.grows_set_directory missing
  | copyFile _ _ _ free contents => exact FileTree.grows_set_file contents free

/-- A file with a relative name is copied below the root. -/
theorem targetBase_of_relative {file : String} (h : Path.isAbsolute file = false) (t : FileTree)
    (root : String) : targetBase t root file = t.location root := by
  unfold targetBase
  rw [h, if_neg Bool.false_ne_true]

/-- What is there stays if none of the files that are checked out belongs there. -/
theorem find?_kept_of_checkoutRule {files : List String} {e : FileEntry}
    (h : t.Becomes (CheckoutRule root files) t')
    (relative : ∀ file ∈ files, Path.isAbsolute file = false) (hsome : t.find? l = some e)
    (other : ∀ file ∈ files, ".." ∉ Path.parts file → l ≠ t.location root ++ Path.parts file) :
    t'.find? l = some e := by
  refine (checkedOutWithin_of_becomes h).kept l e hsome fun file hfile hdown => ?_
  rw [targetBase_of_relative (relative file hfile)]
  exact other file hfile hdown

section Copies

variable {f : PlacedFile} {placed : List PlacedFile}

/-- Copying gives a file the contents of its source and leaves the other files of the directory that
its source is in as they are, as long as the file belongs neither at nor below that directory. -/
theorem copyFile_eq_ok (sound : f.Sound) (relative : Path.isAbsolute f.file = false)
    (clear : ¬ t.location dir <+: t.location root ++ Path.parts f.file)
    (hparents : makeParents (f.target root) t = (.ok (), u))
    (hcopy : copy (Path.join dir f.relative) (f.target root) u = (.ok (), t')) :
    t'.here = t.here ∧
      (∀ below e, t.find? (t.location dir ++ below) = some e →
        t'.find? (t.location dir ++ below) = some e) ∧
      ∀ bytes, t.find? (t.location dir ++ Path.parts f.file) = some (.file bytes) →
        t'.locate (f.target root) = .ok (t.location root ++ Path.parts f.file) ∧
          t'.find? (t.location root ++ Path.parts f.file) = some (.file bytes) := by
  have hlisted : f.file ∈ [f.file] := List.mem_cons_self
  have hu := (only_makeParents_target sound hlisted).becomes hparents
  have ht' := hu.trans ((only_copy_target sound hlisted).becomes hcopy)
  have hkept {w : FileTree} (hw : t.Becomes (CheckoutRule root [f.file]) w) {below : List String}
      {e : FileEntry} (hsome : t.find? (t.location dir ++ below) = some e) :
      w.find? (t.location dir ++ below) = some e := by
    refine find?_kept_of_checkoutRule hw (List.forall_mem_singleton.mpr relative) hsome ?_
    rintro file hfile - heq
    rw [List.mem_singleton] at hfile
    subst hfile
    exact clear (heq ▸ List.prefix_append _ _)
  refine ⟨ht'.here, fun below e => hkept ht', fun bytes hbytes => ?_⟩
  have hsource : u.location (Path.join dir f.relative) = t.location dir ++ Path.parts f.file := by
    rw [sound.location_join, FileTree.location_congr hu.here]
  have htarget : u.location (f.target root) = t.location root ++ Path.parts f.file := by
    rw [sound.location_target, targetBase_of_relative relative, FileTree.location_congr hu.here]
  rw [← htarget]
  refine copied hcopy ?_ (by rw [hsource]; exact hkept hu hbytes)
  rw [hsource, htarget]
  exact fun heq => clear (heq ▸ List.prefix_append _ _)

/-- Copying gives each file the contents of its source, as long as no file belongs at or below the
directory that the sources are in. -/
theorem copyFiles_eq_ok (sound : ∀ f ∈ placed, f.Sound)
    (distinct : (placed.map fun f => Path.parts f.file).Nodup)
    (relative : ∀ f ∈ placed, Path.isAbsolute f.file = false)
    (clear : ∀ f ∈ placed, ¬ t.location dir <+: t.location root ++ Path.parts f.file)
    (h : copyFiles dir root placed t = (.ok paths, t')) :
    paths = placed.map (PlacedFile.target root) ∧
      ∀ f ∈ placed, ∀ bytes, t.find? (t.location dir ++ Path.parts f.file) = some (.file bytes) →
        t'.read (f.target root) = .ok bytes := by
  -- The induction is for every tree, since each copy starts from the tree that the one before left.
  induction placed generalizing t paths with
  | nil =>
    cases h
    exact ⟨rfl, nofun⟩
  | cons f rest ih =>
    rw [List.forall_mem_cons] at sound relative clear
    rw [List.map_cons, List.nodup_cons] at distinct
    obtain ⟨_, u, hparents, h⟩ := bind_eq_ok h
    obtain ⟨_, v, hcopy, h⟩ := bind_eq_ok h
    obtain ⟨others, _, hothers, h⟩ := bind_eq_ok h
    cases h
    obtain ⟨hhere, hkept, hcopied⟩ := copyFile_eq_ok sound.1 relative.1 clear.1 hparents hcopy
    have honly :=
      (only_copyFiles fun g hg => ⟨sound.2 g hg, List.mem_map_of_mem hg⟩).becomes hothers
    have hclear : ∀ g ∈ rest, ¬ v.location dir <+: v.location root ++ Path.parts g.file := by
      rw [FileTree.location_congr hhere, FileTree.location_congr hhere]
      exact clear.2
    obtain ⟨hpaths, hread⟩ := ih sound.2 distinct.2 relative.2 hclear hothers
    refine ⟨by rw [hpaths, List.map_cons], List.forall_mem_cons.mpr ⟨fun bytes hbytes => ?_, ?_⟩⟩
    · -- The files after this one belong elsewhere.
      obtain ⟨hlocate, hfind⟩ := hcopied bytes hbytes
      refine FileTree.read_eq_ok.mpr ⟨_, (grows_of_checkoutRule honly).locate hlocate, ?_⟩
      refine find?_kept_of_checkoutRule honly (List.forall_mem_map.mpr relative.2) hfind ?_
      rintro file hfile - heq
      obtain ⟨g, hg, rfl⟩ := List.mem_map.mp hfile
      rw [FileTree.location_congr hhere, List.append_cancel_left_eq] at heq
      exact distinct.1 (List.mem_map.mpr ⟨g, hg, heq.symm⟩)
    · intro g hg bytes hbytes
      refine hread g hg bytes ?_
      rw [FileTree.location_congr hhere]
      exact hkept _ _ hbytes

end Copies

/-- Checking out succeeds if the snapshot is listed in a directory of its own and its files can be
copied. -/
theorem checkoutSnapshot_eq_ok (h : checkoutSnapshot out i root t = (.ok paths, t')) :
    ∃ entry placed, listedEntry out i t = .ok entry ∧ DirectoryName.isValid entry.dir ∧
      placeFiles entry.files = .ok placed ∧
      copyFiles (Path.join out entry.dir) root placed t = (.ok paths, t') := by
  obtain ⟨m, _, hlook, h⟩ := bind_eq_ok h
  obtain ⟨hload, rfl⟩ := look_eq_ok hlook
  obtain ⟨entry, _, hof, h⟩ := bind_eq_ok h
  obtain ⟨hentry, rfl⟩ := ofExcept_eq_ok hof
  have hlisted : listedEntry out i t = .ok entry := bind_eq_ok_iff.mpr ⟨m, hload, hentry⟩
  split at h
  next hvalid =>
    obtain ⟨placed, _, hof, h⟩ := bind_eq_ok h
    obtain ⟨hplaced, rfl⟩ := ofExcept_eq_ok hof
    exact ⟨entry, placed, hlisted, hvalid, hplaced, mapError_eq_ok h⟩
  next => cases h

/-- A listed snapshot in a directory of its own whose files have places is checked out by copying
them. -/
theorem checkoutSnapshot_of_listed {entry : ManifestEntry} {placed : List PlacedFile}
    (root : String) (listed : listedEntry out i t = .ok entry)
    (valid : DirectoryName.isValid entry.dir) (hplaced : placeFiles entry.files = .ok placed) :
    checkoutSnapshot out i root t =
      mapError .io (copyFiles (Path.join out entry.dir) root placed) t := by
  obtain ⟨m, hload, hentry⟩ := bind_eq_ok_iff.mp listed
  unfold checkoutSnapshot
  rw [bind_run_ok (look_run_ok hload), hentry, bind_run_ok (ofExcept_run_ok entry t),
    if_pos valid, hplaced, bind_run_ok (ofExcept_run_ok placed t)]

/-- The path that a file with a relative name is restored to. -/
def restoredPath (root file : String) : String := Path.join root (Path.ofParts (Path.parts file))

theorem PlacedFile.Sound.target_eq {f : PlacedFile} (h : f.Sound)
    (relative : Path.isAbsolute f.file = false) (root : String) :
    f.target root = restoredPath root f.file := by
  rw [PlacedFile.target, relative, if_neg Bool.false_ne_true, h.relative, restoredPath]

/-- A restored file lies at its parts from the root. -/
theorem location_restoredPath {file : String} (down : ".." ∉ Path.parts file) (t : FileTree)
    (root : String) :
    t.location (restoredPath root file) = t.location root ++ Path.parts file := by
  have hnames : ∀ name ∈ Path.parts file, Path.IsName name := fun _ => Path.isName_of_mem_parts
  rw [restoredPath, FileTree.location_join (Path.isAbsolute_ofParts hnames),
    Path.parts_ofParts hnames, Location.along_of_notMem _ down]

/-- The path of a restored file has the parts of the root and its own. -/
theorem parts_restoredPath (root file : String) :
    Path.parts (restoredPath root file) = Path.parts root ++ Path.parts file := by
  have hnames : ∀ name ∈ Path.parts file, Path.IsName name := fun _ => Path.isName_of_mem_parts
  rw [restoredPath, Path.parts_join (Path.isAbsolute_ofParts hnames), Path.parts_ofParts hnames]

/-- Files with names of different parts are restored to different paths. -/
theorem nodup_restoredPaths {placed : List PlacedFile}
    (distinct : (placed.map fun f => Path.parts f.file).Nodup) (root : String) :
    (placed.map fun f => restoredPath root f.file).Nodup := by
  refine List.Nodup.of_map Path.parts ?_
  have hparts : (placed.map fun f => restoredPath root f.file).map Path.parts =
      (placed.map fun f => Path.parts f.file).map (Path.parts root ++ ·) := by
    simp only [List.map_map, Function.comp_def, parts_restoredPath]
  rw [hparts]
  exact List.Nodup.map (fun _ _ heq => List.append_cancel_left heq) distinct

/-! ## What stays kept -/

/-- Whether no file of a result is restored at or below an output directory. -/
def ClearOf (t : FileTree) (out root : String) (result : JobResult) : Prop :=
  ∀ s ∈ result.snapshots, ∀ f ∈ s.keys, ¬ t.location out <+: t.location (restoredPath root f)

section Kept

variable (described : m = Manifest.describe package sort result) (h : Kept out m result.snapshots t)

include described h

/-- Whoever reads the manifest finds the entries that were written. -/
theorem Kept.exists_of_listedEntry {entry : ManifestEntry}
    (hlisted : listedEntry out i t = .ok entry) :
    ∃ s, result.snapshots[i]? = some s ∧ entry.files = s.keys ∧ ∀ f bytes, s.get? f = some bytes →
      t.find? (t.location out ++ entry.dir :: Path.parts f) = some (.file bytes) := by
  obtain ⟨found, hload, hentry⟩ := bind_eq_ok_iff.mp hlisted
  unfold Manifest.load at hload
  split at hload
  next text hread =>
    obtain ⟨contents, hcontents, htext⟩ := FileTree.readText_eq_ok.mp hread
    have hfile := FileTree.find?_of_read hcontents
    rw [Manifest.location_path, h.manifest, Option.some.injEq, FileEntry.file.injEq] at hfile
    rw [← hfile, Text.fromUTF8?_toUTF8, Option.some.injEq] at htext
    rw [← htext] at hload
    obtain rfl := Manifest.eq_of_parse?_render hload
    unfold Manifest.snapshot? at hentry
    split at hentry
    next other hother =>
      cases hentry
      have hdescribed := hother
      rw [described] at hdescribed
      obtain ⟨label, s, hs, hof⟩ := Manifest.entry_of_getElem? hdescribed
      exact ⟨s, hs, by rw [hof]; rfl, h.files i entry s hother hs⟩
    next => cases hentry
  next => cases hload

/-- A listed file belongs to one of the snapshots. -/
theorem Kept.listedFiles {file : String} (hlisted : file ∈ listedFiles out i t) :
    ∃ s ∈ result.snapshots, file ∈ s.keys := by
  unfold CoverageReplay.listedFiles at hlisted
  split at hlisted
  next entry hentry =>
    obtain ⟨s, hs, hfiles, _⟩ := h.exists_of_listedEntry described hentry
    exact ⟨s, List.mem_of_getElem? hs, hfiles ▸ hlisted⟩
  next => cases hlisted

/-- What is at or below the output directory stays when a snapshot is checked out. -/
theorem Kept.find?_checkout
    (relative : ∀ s ∈ result.snapshots, ∀ f ∈ s.keys, Path.isAbsolute f = false)
    (clear : ClearOf t out root result) {e : FileEntry} (below : t.location out <+: l)
    (hsome : t.find? l = some e) : (checkoutSnapshot out i root t).2.find? l = some e := by
  have hlisted {file : String} (hfile : file ∈ CoverageReplay.listedFiles out i t) :
      ∃ s ∈ result.snapshots, file ∈ s.keys := h.listedFiles described hfile
  refine find?_kept_of_checkoutRule (only_checkoutSnapshot out i root t) (fun file hfile =>
    ?_) hsome ?_
  · obtain ⟨s, hs, hkey⟩ := hlisted hfile
    exact relative s hs file hkey
  · rintro file hfile hdown rfl
    obtain ⟨s, hs, hkey⟩ := hlisted hfile
    rw [← location_restoredPath hdown] at below
    exact clear s hs file hkey below

/-- What was written is still there after a checkout that stays clear of it. -/
theorem Kept.checkout (relative : ∀ s ∈ result.snapshots, ∀ f ∈ s.keys, Path.isAbsolute f = false)
    (clear : ClearOf t out root result) :
    Kept out m result.snapshots (checkoutSnapshot out i root t).2 := by
  have hhere := (only_checkoutSnapshot out i root t).here
  refine ⟨?_, fun j entry s hentry hs f bytes hget => ?_⟩
  · rw [FileTree.location_congr hhere]
    exact h.find?_checkout described relative clear (List.prefix_append _ _) h.manifest
  · rw [FileTree.location_congr hhere]
    have hfile := h.files j entry s hentry hs f bytes hget
    exact h.find?_checkout described relative clear (List.prefix_append _ _) hfile

end Kept

/-- The entries of what is kept are listed if the manifest can be found and read. -/
theorem Kept.listedEntry {snapshots : List Snapshot} {entry : ManifestEntry}
    (h : Kept out m snapshots t) (readable : m.Readable)
    (found : t.locate (Manifest.path out) = .ok l) (hentry : m.snapshots[i]? = some entry) :
    listedEntry out i t = .ok entry := by
  refine bind_eq_ok_iff.mpr ⟨m, h.load readable found, ?_⟩
  unfold Manifest.snapshot?
  rw [hentry]

/-- A kept snapshot can be checked out if the manifest can be found and read and the files can be
copied. -/
theorem Kept.checkoutSnapshot_run {snapshots : List Snapshot} {entry : ManifestEntry}
    {placed : List PlacedFile} (h : Kept out m snapshots t) (readable : m.Readable)
    (found : t.locate (Manifest.path out) = .ok l) (hentry : m.snapshots[i]? = some entry)
    (valid : DirectoryName.isValid entry.dir) (hplaced : placeFiles entry.files = .ok placed)
    (copied : copyFiles (Path.join out entry.dir) root placed t = (.ok paths, t')) :
    checkoutSnapshot out i root t = (.ok paths, t') := by
  rw [checkoutSnapshot_of_listed root (h.listedEntry readable found hentry) valid hplaced,
    mapError_run_ok copied]

/-! ## Restoring -/

/-- The tree after some snapshots were checked out, each over a working tree of its own, whatever
came of it. -/
def afterCheckouts (out : String) : List (Nat × String) → FileTree → FileTree
  | [], t => t
  | (index, root) :: rest, t => afterCheckouts out rest (checkoutSnapshot out index root t).2

/-- Whether a snapshot has been restored over a working tree: the paths written are those of its
files in order, each has the bytes that the snapshot has for it, and nothing else that was there is
different. -/
structure Restored (t : FileTree) (root : String) (s : Snapshot) (paths : List String)
    (t' : FileTree) : Prop where
  written : paths = s.keys.map (restoredPath root)
  distinct : paths.Nodup
  contents : ∀ f bytes, s.get? f = some bytes → t'.read (restoredPath root f) = .ok bytes
  others : ∀ l e, t.find? l = some e → l ∉ paths.map t.location → t'.find? l = some e

/-- What was written is still there after any number of such checkouts, and nothing else has changed
where it lies. -/
theorem Kept.afterCheckouts (described : m = Manifest.describe package sort result)
    (relative : ∀ s ∈ result.snapshots, ∀ f ∈ s.keys, Path.isAbsolute f = false)
    {earlier : List (Nat × String)} (clear : ∀ c ∈ earlier, ClearOf t out c.2 result)
    (h : Kept out m result.snapshots t) :
    (afterCheckouts out earlier t).here = t.here ∧
      Kept out m result.snapshots (afterCheckouts out earlier t) ∧
      ∀ l e, t.location out <+: l → t.find? l = some e →
        (afterCheckouts out earlier t).find? l = some e := by
  induction earlier generalizing t with
  | nil => exact ⟨rfl, h, fun _ _ _ => id⟩
  | cons c rest ih =>
    obtain ⟨index, root⟩ := c
    rw [List.forall_mem_cons] at clear
    have hhere := (only_checkoutSnapshot out index root t).here
    have hnext := h.checkout described (i := index) relative clear.1
    have hclear : ∀ c ∈ rest, ClearOf (checkoutSnapshot out index root t).2 out c.2 result := by
      intro c hc s hs f hf
      rw [FileTree.location_congr hhere, FileTree.location_congr hhere]
      exact clear.2 c hc s hs f hf
    obtain ⟨hhere', hkept, hbelow⟩ := ih hclear hnext
    refine ⟨hhere'.trans hhere, hkept, fun l e hl hsome => hbelow l e ?_ ?_⟩
    · rwa [FileTree.location_congr hhere]
    · exact h.find?_checkout described relative clear.1 hl hsome

/-- A snapshot that is checked out of what was kept is restored. -/
theorem Kept.restored (described : m = Manifest.describe package sort result)
    (h : Kept out m result.snapshots t)
    (relative : ∀ s ∈ result.snapshots, ∀ f ∈ s.keys, Path.isAbsolute f = false)
    (clear : ClearOf t out root result)
    (checkedOut : checkoutSnapshot out i root t = (.ok paths, t')) :
    ∃ s, result.snapshots[i]? = some s ∧ Restored t root s paths t' := by
  obtain ⟨entry, placed, hlisted, hvalid, hplaced, hcopy⟩ := checkoutSnapshot_eq_ok checkedOut
  obtain ⟨s, hs, hfiles, hcontents⟩ := h.exists_of_listedEntry described hlisted
  have hmem := List.mem_of_getElem? hs
  obtain ⟨hkeys, hsound, hdistinct⟩ := placeFiles_eq_ok hplaced
  rw [hfiles] at hkeys
  have hkey {f : PlacedFile} (hf : f ∈ placed) : f.file ∈ s.keys := hkeys ▸ List.mem_map_of_mem hf
  have hrelative : ∀ f ∈ placed, Path.isAbsolute f.file = false :=
    fun f hf => relative s hmem _ (hkey hf)
  have htarget : ∀ f ∈ placed, f.target root = restoredPath root f.file := fun f hf =>
    (hsound f hf).target_eq (hrelative f hf) root
  have hhome : t.location (Path.join out entry.dir) = t.location out ++ [entry.dir] :=
    (DirectoryName.isEntryName_of_isValid hvalid).location_join t out
  -- The directory of the snapshot is below the output directory, so no target is inside it.
  have hclear : ∀ f ∈ placed,
      ¬ t.location (Path.join out entry.dir) <+: t.location root ++ Path.parts f.file := by
    intro f hf hbelow
    rw [hhome, ← location_restoredPath (hsound f hf).down] at hbelow
    exact clear s hmem _ (hkey hf) ((List.prefix_append _ _).trans hbelow)
  have hparts := PlacedFile.nodup_parts hsound hdistinct
  obtain ⟨hpaths, hread⟩ := copyFiles_eq_ok hsound hparts hrelative hclear hcopy
  have hwritten : paths = s.keys.map (restoredPath root) := by
    rw [hpaths, ← hkeys, List.map_map]
    exact List.map_congr_left htarget
  refine ⟨s, hs, hwritten, ?_, fun f bytes hget => ?_, fun l e hsome hother => ?_⟩
  · rw [hwritten, ← hkeys, List.map_map]
    exact nodup_restoredPaths hparts root
  · obtain ⟨g, rfl, hg⟩ := mem_zip_of_get? hkeys hget
    have hplacedMem := (List.of_mem_zip hg).1
    rw [← htarget g hplacedMem]
    refine hread g hplacedMem bytes ?_
    rw [hhome, List.append_assoc, List.singleton_append]
    exact hcontents g.file bytes hget
  · -- Whatever else is below the root stays: only targets and the directories above them change.
    have honly := (only_copyFiles fun f hf => ⟨hsound f hf, hkey hf⟩).becomes hcopy
    refine find?_kept_of_checkoutRule honly (relative s hmem) hsome ?_
    rintro file hfile hdown rfl
    refine hother (List.mem_map.mpr ⟨restoredPath root file, ?_,
      location_restoredPath hdown t root⟩)
    rw [hwritten]
    exact List.mem_map_of_mem hfile

/-- Snapshots come back as they were written. If the files of a result have relative names and none
of them belongs at or below the output directory, then checking out a snapshot restores it over the
working tree, whatever snapshots were checked out before and over which working trees, and all that
is in the output directory stays as it was written. -/
theorem written_snapshots_restored {earlier : List (Nat × String)}
    (relative : ∀ s ∈ result.snapshots, ∀ f ∈ s.keys, Path.isAbsolute f = false)
    (clear : ClearOf t out root result) (clearBefore : ∀ c ∈ earlier, ClearOf t out c.2 result)
    (written : writeSnapshots out package sort result t = (.ok m, t₁))
    (checkedOut : checkoutSnapshot out i root (afterCheckouts out earlier t₁) = (.ok paths, t₂)) :
    ∃ s, result.snapshots[i]? = some s ∧ Restored (afterCheckouts out earlier t₁) root s paths t₂ ∧
      ∀ l e, t₁.location out <+: l → t₁.find? l = some e → t₂.find? l = some e := by
  obtain ⟨described, hhere, hkept⟩ := kept_of_writeSnapshots written
  have hclear {u : FileTree} (hu : u.here = t.here) {root : String}
    (h : ClearOf t out root result) :
      ClearOf u out root result := by
    intro s hs f hf
    rw [FileTree.location_congr hu, FileTree.location_congr hu]
    exact h s hs f hf
  obtain ⟨hhere', hkept', hbelow⟩ := hkept.afterCheckouts described relative fun c hc =>
    hclear hhere (clearBefore c hc)
  have hclear' := hclear (hhere'.trans hhere) clear
  obtain ⟨s, hs, hrestored⟩ := hkept'.restored described relative hclear' checkedOut
  refine ⟨s, hs, hrestored, fun l e hl hsome => ?_⟩
  have hl' : (afterCheckouts out earlier t₁).location out <+: l := by
    rwa [FileTree.location_congr hhere']
  have hstay := hkept'.find?_checkout described relative hclear' (i := i) hl' (hbelow l e hl hsome)
  rwa [checkedOut] at hstay

/-- A test and the baseline, with different contents of one file. -/
def oneFileTwice : JobResult := ⟨["t"], [⟨[("a", ⟨#[1]⟩)]⟩, ⟨[("a", ⟨#[2]⟩)]⟩]⟩

/-- The tree that keeps both snapshots in the directory `o`. -/
def keptTwice : FileTree := (writeSnapshots "o" "p" .hardcoded oneFileTwice .empty).2

theorem writeSnapshots_oneFileTwice : writeSnapshots "o" "p" .hardcoded oneFileTwice .empty =
    (.ok (Manifest.describe "p" .hardcoded oneFileTwice), keptTwice) := by
  unfold keptTwice
  refine eq_of_toOption ?_
  decide +kernel

/-- The tree after the baseline was checked out over the directory `r`. -/
def baselineCopied : FileTree :=
  (copyFiles (Path.join "o" "001-baseline") "r" [⟨"a", "a"⟩] keptTwice).2

/-- First the baseline is checked out, and then, over it, the snapshot of the test. -/
theorem written_snapshots_restored_oneFileTwice : ∃ m t₁ paths t₂,
    writeSnapshots "o" "p" .hardcoded oneFileTwice .empty = (.ok m, t₁) ∧
    checkoutSnapshot "o" 0 "r" (afterCheckouts "o" [(1, "r")] t₁) = (.ok paths, t₂) ∧
    ∃ s, oneFileTwice.snapshots[0]? = some s ∧
      Restored (afterCheckouts "o" [(1, "r")] t₁) "r" s paths t₂ ∧
      ∀ l e, t₁.location "o" <+: l → t₁.find? l = some e → t₂.find? l = some e := by
  have hwritten := writeSnapshots_oneFileTwice
  have hkept := (kept_of_writeSnapshots hwritten).2.2
  have hreadable : (Manifest.describe "p" .hardcoded oneFileTwice).Readable := by decide +kernel
  have hrelative : ∀ s ∈ oneFileTwice.snapshots, ∀ f ∈ s.keys, Path.isAbsolute f = false := by
    decide +kernel
  have hclear : ClearOf .empty "o" "r" oneFileTwice ∧ ClearOf keptTwice "o" "r" oneFileTwice := by
    unfold ClearOf
    decide +kernel
  have hplaced : placeFiles ["a"] = .ok [⟨"a", "a"⟩] := by decide +kernel
  -- The baseline comes first.
  have hbaseline : (Manifest.describe "p" .hardcoded oneFileTwice).snapshots[1]? =
      some ⟨1, "baseline", "001-baseline", ["a"]⟩ := by
    decide +kernel
  have hfound : keptTwice.locate (Manifest.path "o") = .ok ["o", "manifest.json"] := by
    decide +kernel
  have hcopied : copyFiles (Path.join "o" "001-baseline") "r" [⟨"a", "a"⟩] keptTwice =
      (.ok ["r/a"], baselineCopied) := by
    unfold baselineCopied
    refine eq_of_toOption ?_
    decide +kernel
  have hfirst :=
    hkept.checkoutSnapshot_run hreadable hfound hbaseline (by decide +kernel) hplaced hcopied
  have hbefore : afterCheckouts "o" [(1, "r")] keptTwice = baselineCopied := by
    rw [afterCheckouts, hfirst, afterCheckouts]
  -- Then comes the snapshot of the test.
  have hkept' : Kept "o" (Manifest.describe "p" .hardcoded oneFileTwice) oneFileTwice.snapshots
      baselineCopied := by
    have hstays := hkept.checkout rfl (i := 1) hrelative hclear.2
    simpa only [hfirst] using hstays
  have htest : (Manifest.describe "p" .hardcoded oneFileTwice).snapshots[0]? =
      some ⟨0, "t", "000-t", ["a"]⟩ := by
    decide +kernel
  have hfound' : baselineCopied.locate (Manifest.path "o") = .ok ["o", "manifest.json"] := by
    decide +kernel
  have hcopied' : copyFiles (Path.join "o" "000-t") "r" [⟨"a", "a"⟩] baselineCopied =
      (.ok ["r/a"], (copyFiles (Path.join "o" "000-t") "r" [⟨"a", "a"⟩] baselineCopied).2) := by
    refine eq_of_toOption ?_
    decide +kernel
  have hsecond :=
    hkept'.checkoutSnapshot_run hreadable hfound' htest (by decide +kernel) hplaced hcopied'
  rw [← hbefore] at hsecond
  exact ⟨_, _, _, _, hwritten, hsecond, written_snapshots_restored hrelative hclear.1
    (List.forall_mem_singleton.mpr hclear.1) hwritten hsecond⟩

end CoverageReplay
