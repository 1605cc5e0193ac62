import CoverageReplay.Proofs.Files.Changes
import CoverageReplay.Proofs.Files.Reads
import CoverageReplay.Proofs.Snapshots.Names
import CoverageReplay.Snapshots.Checkout
import CoverageReplay.Snapshots.Write

/-!
# Where snapshots may be written

Writing the snapshots of a result keeps to `WriteRule` and checking one out to `CheckoutRule`,
whatever the files are, the manifest among them, and also when they fail on the way.
-/

namespace CoverageReplay

open FileAction

variable {t t' u : FileTree} {l : Location} {out package root : String} {sort : SortStrategy}
variable {result : JobResult}

/-- A way on two lists of names ends on the first one or goes on along the second. -/
theorem prefix_append_cases {way first second : List String} (h : way <+: first ++ second) :
    way <+: first ∨ ∃ rest, way = first ++ rest ∧ rest <+: second := by
  rcases List.prefix_or_prefix_of_prefix h (List.prefix_append first second) with hshort | ⟨rest,
    rfl⟩
  · exact .inl hshort
  · exact .inr ⟨rest, rfl, (List.prefix_append_right_inj first).mp h⟩

/-- A name is on the way to what lies behind it. -/
theorem prefix_append_cons (front : List String) (name : String) (rest : List String) :
    front ++ [name] <+: front ++ name :: rest := by
  rw [List.append_cons front name rest]
  exact List.prefix_append _ _

/-! ## Writing -/

/-- What writing the files of some entries below an output directory may change. -/
inductive LayoutRule (out : String) (entries : List ManifestEntry) (t : FileTree) :
    FileChange → Prop
  /-- The output directory is made, or a directory above it. -/
  | makeOut {way : List String} (above : way <+: Path.parts out)
      (missing : t.find? ((t.base out).along way) = none) :
      LayoutRule out entries t (.put ((t.base out).along way) .directory)
  /-- The directory of a snapshot is made, or one below it that leads to a file. -/
  | makeBelow {entry : ManifestEntry} {file : String} {way : List String} (named : entry ∈ entries)
      (listed : file ∈ entry.files) (above : way <+: (Path.parts file).dropLast)
      (missing : t.find? (t.location out ++ entry.dir :: way) = none) :
      LayoutRule out entries t (.put (t.location out ++ entry.dir :: way) .directory)
  /-- A file is written below the directory of its snapshot. -/
  | writeFile {entry : ManifestEntry} {file : String} (named : entry ∈ entries)
    (listed : file ∈ entry.files) (down : ".." ∉ Path.parts file) (below : Path.parts file ≠ [])
    (contents : ByteArray) :
      LayoutRule out entries t (.put (t.location out ++ entry.dir :: Path.parts file)
        (.file contents))

/-- What writing the snapshots of some entries into an output directory may change. -/
inductive WriteRule (out : String) (entries : List ManifestEntry) (t : FileTree) : FileChange → Prop
  /-- A directory in the output directory is removed. -/
  | remove {name : String} (valid : DirectoryName.isValid name)
      (directory : t.isDirectoryAt (t.location out ++ [name])) :
      WriteRule out entries t (.drop (t.location out ++ [name]))
  /-- The files of the snapshots are written. -/
  | layout {c : FileChange} (h : LayoutRule out entries t c) : WriteRule out entries t c
  /-- The manifest is written. -/
  | writeManifest (contents : ByteArray) :
      WriteRule out entries t (.put (t.location out ++ ["manifest.json"]) (.file contents))

section Write

variable {entries : List ManifestEntry}

/-- Making the output directory keeps to the rule for writing. -/
theorem only_makeDirectories_out : Only (WriteRule out entries) (makeDirectories out) := by
  refine (only_makeDirectories out).mono ?_
  rintro u c ⟨way, hway, hmissing, rfl⟩
  exact .layout (.makeOut hway hmissing)

/-- Removing the snapshots of a manifest keeps to the rule for writing. -/
theorem only_removeSnapshots (previous : List ManifestEntry) :
    Only (WriteRule out entries) (removeSnapshots out previous) := by
  induction previous with
  | nil => exact only_pure ()
  | cons entry rest ih =>
    unfold removeSnapshots
    intro t
    rw [bind_run_ok (get_run t)]
    split
    next hguard =>
      rw [Bool.and_eq_true] at hguard
      obtain ⟨hvalid, hdirectory⟩ := hguard
      have hname := DirectoryName.isEntryName_of_isValid hvalid
      have hat := t.isDirectoryAt_of_isDirectory hdirectory
      rcases removeDirectory_run (Path.join out entry.dir) t with ⟨fault, hrun⟩ | hrun
      · rw [bind_run_error hrun]
        exact .refl t
      · rw [bind_run_ok hrun]
        rw [hname.location_join] at hat ⊢
        exact .trans (.single (.remove hvalid hat)) (ih _)
    next => exact ih t

/-- Removing what was there keeps to the rule for writing. -/
theorem only_removePrevious : Only (WriteRule out entries) (removePrevious out) := by
  refine only_get.bind fun u => ?_
  split
  next previous _ => exact only_removeSnapshots previous.snapshots
  next => exact only_pure ()

/-- The way to a file leads over the output directory and the directory of its snapshot. -/
theorem only_makeParents_below {entry : ManifestEntry} (named : entry ∈ entries)
    (hdir : IsEntryName entry.dir) {f : PlacedFile} (h : f.Sound) (listed : f.file ∈ entry.files) :
    Only (LayoutRule out entries)
      (makeParents (Path.join (Path.join out entry.dir) f.relative)) := by
  have hrelative := h.isAbsolute_relative
  have hentry := isAbsolute_of_isEntryName hdir
  have hbase (u : FileTree) :
      u.base (Path.join (Path.join out entry.dir) f.relative) = u.base out := by
    rw [FileTree.base_join hrelative, FileTree.base_join hentry]
  have hparts : Path.parts (Path.join (Path.join out entry.dir) f.relative) =
      Path.parts out ++ entry.dir :: Path.parts f.file := by
    rw [Path.parts_join hrelative, Path.parts_join hentry, hdir.toIsName.parts, h.parts_relative,
      List.append_assoc, List.singleton_append]
  have hdown : ".." ∉ entry.dir :: Path.parts f.file := by
    rw [List.mem_cons, not_or]
    exact ⟨hdir.down.symm, h.down⟩
  refine (only_makeDirectoriesAlong _ _).mono ?_
  rintro u c ⟨way, hway, hmissing, rfl⟩
  rw [hbase] at hmissing ⊢
  rw [hparts, List.dropLast_append_cons] at hway
  -- A directory on the way is the output directory or above it, or it is below the one of the
  -- entry.
  rcases prefix_append_cases hway with hout | ⟨below, rfl, hbelow⟩
  · exact .makeOut hout hmissing
  · cases below with
    | nil =>
      rw [List.append_nil] at hmissing ⊢
      exact .makeOut (List.prefix_refl _) hmissing
    | cons name below =>
      have hnames : ".." ∉ name :: below :=
        fun hup => hdown (List.mem_of_mem_dropLast (hbelow.subset hup))
      rw [List.dropLast_cons_of_ne_nil h.parts_ne_nil] at hbelow
      obtain ⟨rfl, habove⟩ := List.cons_prefix_cons.mp hbelow
      rw [Location.along_append, Location.along_of_notMem _ hnames] at hmissing ⊢
      exact .makeBelow named listed habove hmissing

/-- Writing a file of a snapshot keeps to the rule for its layout. -/
theorem only_write_below {entry : ManifestEntry} (named : entry ∈ entries)
    (hdir : IsEntryName entry.dir) {f : PlacedFile} (h : f.Sound) (listed : f.file ∈ entry.files)
    (contents : ByteArray) :
    Only (LayoutRule out entries)
      (write (Path.join (Path.join out entry.dir) f.relative) contents) := by
  refine (only_write _ contents).mono ?_
  rintro u c ⟨_, bytes, rfl⟩
  rw [h.location_below hdir]
  exact .writeFile named listed h.down h.parts_ne_nil bytes

/-- Writing the files of a snapshot keeps to the rule for their layout. -/
theorem only_writeFiles {entry : ManifestEntry} (named : entry ∈ entries)
    (hdir : IsEntryName entry.dir) {files : List (PlacedFile × ByteArray)}
    (sound : ∀ f ∈ files, f.1.Sound ∧ f.1.file ∈ entry.files) :
    Only (LayoutRule out entries) (writeFiles (Path.join out entry.dir) files) := by
  induction files with
  | nil => exact only_pure ()
  | cons f rest ih =>
    obtain ⟨placed, contents⟩ := f
    obtain ⟨hsound, hlisted⟩ := sound _ List.mem_cons_self
    have hrest := ih fun g hg => sound g (List.mem_cons_of_mem _ hg)
    unfold writeFiles
    exact (only_makeParents_below named hdir hsound hlisted).bind fun _ =>
      (only_write_below named hdir hsound hlisted contents).bind fun _ => hrest

/-- Writing snapshots keeps to the rule for their layout. -/
theorem only_writeLayouts {layouts : List SnapshotLayout}
    (sound : ∀ layout ∈ layouts, ∃ entry ∈ entries, IsEntryName entry.dir ∧ layout.dir = entry.dir ∧
      ∀ f ∈ layout.files, f.1.Sound ∧ f.1.file ∈ entry.files) :
    Only (LayoutRule out entries) (writeLayouts out layouts) := by
  induction layouts with
  | nil => exact only_pure ()
  | cons layout rest ih =>
    obtain ⟨entry, hentry, hname, hdir, hfiles⟩ := sound layout List.mem_cons_self
    unfold writeLayouts
    refine Only.bind ?_ fun _ => ih fun other hother => sound other (List.mem_cons_of_mem _ hother)
    rw [hdir]
    exact only_writeFiles hentry hname hfiles

/-- Saving the manifest keeps to the rule for writing. -/
theorem only_save (m : Manifest) : Only (WriteRule out entries) (m.save out) := by
  refine (only_write _ _).mono ?_
  rintro u c ⟨_, contents, rfl⟩
  rw [Manifest.location_path]
  exact .writeManifest contents

end Write

/-- Writing the snapshots of a result keeps to the rule, also when it fails. -/
theorem only_writeSnapshots :
    Only (WriteRule out (Manifest.describe package sort result).snapshots)
      (writeSnapshots out package sort result) := by
  refine Only.ofExcept_bind fun layouts hlayouts =>
    Only.bind (Only.mapError ?_ _) fun _ => only_pure _
  refine only_makeDirectories_out.bind fun _ => only_removePrevious.bind fun _ => ?_
  refine Only.bind ?_ fun _ => only_save _
  refine (only_writeLayouts fun layout hlayout => ?_).mono fun _ _ => .layout
  obtain ⟨entry, hentry, s, _, hof⟩ := SnapshotLayout.exists_of_mem hlayouts hlayout
  obtain ⟨placed, hplaced, rfl⟩ := SnapshotLayout.ofEntry_eq_ok hof
  obtain ⟨hfiles, hsound, _⟩ := placeFiles_eq_ok hplaced
  refine ⟨entry, hentry, Manifest.isEntryName_of_mem_describe hentry, rfl, fun f hf => ?_⟩
  have hmem : f.1 ∈ placed := (List.of_mem_zip hf).1
  exact ⟨hsound _ hmem, hfiles ▸ List.mem_map_of_mem hmem⟩

/-- Whether what is different between two trees was written to an output directory, for the
snapshots of some entries. -/
structure WrittenWithin (out : String) (entries : List ManifestEntry) (t t' : FileTree) : Prop where
  changes : t.Becomes (WriteRule out entries) t'
  /-- What is gone was in a directory of the output directory. -/
  gone : ∀ l, (t.find? l).isSome → t'.find? l = none →
    ∃ name, DirectoryName.isValid name ∧ IsEntryName name ∧ t.location out ++ [name] <+: l
  /-- What is new or different is on the way to the output directory, the manifest, or in a
  directory of a snapshot. -/
  written : ∀ l e, t'.find? l = some e → t.find? l ≠ some e →
    (e = .directory ∧ ∃ way, way <+: Path.parts out ∧ l = (t.base out).along way) ∨
      l = t.location out ++ ["manifest.json"] ∨
      ∃ entry ∈ entries, IsEntryName entry.dir ∧ t.location out ++ [entry.dir] <+: l

/-- Changes that the rule for writing allows stay within the output directory. -/
theorem writtenWithin_of_becomes {entries : List ManifestEntry}
    (names : ∀ entry ∈ entries, IsEntryName entry.dir) (h : t.Becomes (WriteRule out entries) t') :
    WrittenWithin out entries t t' := by
  refine ⟨h, fun l hsome hnone => ?_, fun l e hsome hne => ?_⟩
  · obtain ⟨u, dropped, hbefore, hmay, hbelow⟩ := h.drop_of_find? hsome hnone
    have hhere := hbefore.here
    cases hmay with
    | remove valid _ =>
      rw [FileTree.location_congr hhere] at hbelow
      exact ⟨_, valid, DirectoryName.isEntryName_of_isValid valid, hbelow⟩
    | layout hlayout => cases hlayout
  · obtain ⟨u, hbefore, hmay⟩ := h.put_of_find? hsome hne
    have hhere := hbefore.here
    cases hmay with
    | layout hlayout =>
      cases hlayout with
      | makeOut above _ => exact .inl ⟨rfl, _, above, by rw [FileTree.base_congr hhere]⟩
      | makeBelow named | writeFile named =>
        rw [FileTree.location_congr hhere]
        exact .inr (.inr ⟨_, named, names _ named, prefix_append_cons _ _ _⟩)
    | writeManifest => exact .inr (.inl (by rw [FileTree.location_congr hhere]))

/-! ## Checking out -/

/-- Where the path of a file counts from when its snapshot is checked out: the root of the tree for
an absolute name, and that of the working tree for a relative one. -/
def targetBase (t : FileTree) (root file : String) : Location :=
  if Path.isAbsolute file then [] else t.location root

/-- What checking out files over a working tree may change. -/
inductive CheckoutRule (root : String) (files : List String) (t : FileTree) : FileChange → Prop
  /-- The root of the working tree is made, or a directory above it. -/
  | makeRoot {file : String} {way : List String} (listed : file ∈ files)
      (relative : Path.isAbsolute file = false) (above : way <+: Path.parts root)
      (missing : t.find? ((t.base root).along way) = none) :
      CheckoutRule root files t (.put ((t.base root).along way) .directory)
  /-- A directory above a file is made. -/
  | makeAbove {file : String} {way : List String} (listed : file ∈ files)
      (above : way <+: (Path.parts file).dropLast)
      (missing : t.find? (targetBase t root file ++ way) = none) :
      CheckoutRule root files t (.put (targetBase t root file ++ way) .directory)
  /-- A file is written where its name says. -/
  | copyFile {file : String} (listed : file ∈ files) (down : ".." ∉ Path.parts file)
      (below : Path.parts file ≠ [])
      (free : t.find? (targetBase t root file ++ Path.parts file) ≠ some .directory)
      (contents : ByteArray) :
      CheckoutRule root files t (.put (targetBase t root file ++ Path.parts file) (.file contents))

section Checkout

variable {files : List String} {f : PlacedFile} {placed : List PlacedFile}

/-- Where a file is copied to depends on the working directory only. -/
theorem targetBase_congr (h : t.here = u.here) (root file : String) :
    targetBase t root file = targetBase u root file := by
  unfold targetBase
  rw [FileTree.location_congr h]

/-- The target of a file is at its parts from where it is copied to. -/
theorem PlacedFile.Sound.location_target (h : f.Sound) (t : FileTree) (root : String) :
    t.location (f.target root) = targetBase t root f.file ++ Path.parts f.file := by
  unfold PlacedFile.target targetBase
  split
  next habsolute =>
    rw [FileTree.location, FileTree.base, if_pos habsolute, Location.along_of_notMem _ h.down]
  next => exact h.location_join t root

/-- The way to a file leads over the root of the working tree, or is made of the names of the
file. -/
theorem only_makeParents_target (h : f.Sound) (listed : f.file ∈ files) :
    Only (CheckoutRule root files) (makeParents (f.target root)) := by
  refine (only_makeDirectoriesAlong _ _).mono ?_
  rintro u c ⟨way, hway, hmissing, rfl⟩
  have hdown {below : List String} (hbelow : below <+: (Path.parts f.file).dropLast) :
      ".." ∉ below :=
    fun hmem => h.down (List.mem_of_mem_dropLast (hbelow.subset hmem))
  unfold PlacedFile.target at hway hmissing ⊢
  -- An absolute name has its directories where it says, a relative one below the root.
  by_cases habsolute : Path.isAbsolute f.file
  · rw [if_pos habsolute] at hway
    simp only [if_pos habsolute] at hmissing ⊢
    have hbase : u.base f.file = targetBase u root f.file := by
      rw [FileTree.base, targetBase, if_pos habsolute, if_pos habsolute]
    rw [hbase, Location.along_of_notMem _ (hdown hway)] at hmissing ⊢
    exact .makeAbove listed hway hmissing
  · have hrelative := h.isAbsolute_relative
    rw [if_neg habsolute, Path.parts_join hrelative, h.parts_relative,
      List.dropLast_append_of_ne_nil h.parts_ne_nil] at hway
    simp only [if_neg habsolute] at hmissing ⊢
    rw [FileTree.base_join hrelative] at hmissing ⊢
    rcases prefix_append_cases hway with hroot | ⟨below, rfl, hbelow⟩
    · exact .makeRoot listed (by simpa using habsolute) hroot hmissing
    · have hbase : (u.base root).along (Path.parts root) = targetBase u root f.file := by
        rw [targetBase, if_neg habsolute, FileTree.location]
      rw [Location.along_append, hbase, Location.along_of_notMem _ (hdown hbelow)] at hmissing ⊢
      exact .makeAbove listed hbelow hmissing

/-- Copying a file keeps to the rule for a checkout. -/
theorem only_copy_target (h : f.Sound) (listed : f.file ∈ files) {source : String} :
    Only (CheckoutRule root files) (copy source (f.target root)) := by
  refine (only_copy _ _).mono ?_
  rintro u c ⟨hfile, contents, rfl⟩
  rw [h.location_target] at hfile ⊢
  exact .copyFile listed h.down h.parts_ne_nil hfile contents

/-- Copying files keeps to the rule for a checkout. -/
theorem only_copyFiles {dir : String} (sound : ∀ f ∈ placed, f.Sound ∧ f.file ∈ files) :
    Only (CheckoutRule root files) (copyFiles dir root placed) := by
  induction placed with
  | nil => exact only_pure []
  | cons f rest ih =>
    obtain ⟨hsound, hlisted⟩ := sound f List.mem_cons_self
    unfold copyFiles
    exact (only_makeParents_target hsound hlisted).bind fun _ =>
      (only_copy_target hsound hlisted).bind fun _ =>
      (ih fun g hg => sound g (List.mem_cons_of_mem f hg)).bind fun _ => only_pure _

/-- Files are copied alike in trees that agree on the sources. -/
theorem alike_copyFiles {seen : Location → Prop} {dir : String} (agree : FileTree.AgreeOn seen t u)
    (sources : ∀ f ∈ placed, seen (t.location (Path.join dir f.relative))) :
    Alike seen t u (copyFiles dir root placed t) (copyFiles dir root placed u) := by
  induction placed generalizing t u with
  | nil => exact .unchanged agree _
  | cons f rest ih =>
    unfold copyFiles
    refine Alike.bind (.makeParents agree _) fun _ t₁ u₁ h₁ hhere₁ => ?_
    refine Alike.bind (.copy h₁ _ _ ?_) fun _ t₂ u₂ h₂ hhere₂ => ?_
    · rw [FileTree.location_congr hhere₁]
      exact sources f List.mem_cons_self
    · refine Alike.bind (ih h₂ fun g hg => ?_) fun paths t₃ u₃ h₃ _ => .unchanged h₃ _
      rw [FileTree.location_congr (hhere₂.trans hhere₁)]
      exact sources g (List.mem_cons_of_mem f hg)

end Checkout

/-- Whether what is different between two trees was copied to where files belong, `root` being the
root of the working tree. -/
structure CheckedOutWithin (root : String) (files : List String) (t t' : FileTree) : Prop where
  changes : t.Becomes (CheckoutRule root files) t'
  /-- What was there stays, unless it is where a file belongs whose name does not lead upwards. -/
  kept : ∀ l e, t.find? l = some e →
    (∀ file ∈ files, ".." ∉ Path.parts file → l ≠ targetBase t root file ++ Path.parts file) →
    t'.find? l = some e
  /-- What is new or different is such a file, or a directory above it that was missing. -/
  written : ∀ l e, t'.find? l = some e → t.find? l ≠ some e →
    (∃ file ∈ files, ".." ∉ Path.parts file ∧ Path.parts file ≠ [] ∧
      l = targetBase t root file ++ Path.parts file ∧ e ≠ .directory) ∨
    (e = .directory ∧ t.find? l = none ∧ ∃ file ∈ files,
      (∃ way, way <+: (Path.parts file).dropLast ∧ l = targetBase t root file ++ way) ∨
      (Path.isAbsolute file = false ∧ ∃ way, way <+: Path.parts root ∧ l = (t.base root).along way))

/-- Nothing is dropped, so what a change finds missing was missing from the start. -/
theorem find?_eq_none_of_becomes {files : List String} (h : t.Becomes (CheckoutRule root files) u)
    (hnone : u.find? l = none) : t.find? l = none := by
  by_contra hsome
  obtain ⟨_, _, _, hmay, _⟩ := h.drop_of_find? (Option.isSome_iff_ne_none.mpr hsome) hnone
  cases hmay

/-- Changes that the rule for a checkout allows stay within its targets. -/
theorem checkedOutWithin_of_becomes {files : List String}
    (h : t.Becomes (CheckoutRule root files) t') :
    CheckedOutWithin root files t t' := by
  refine ⟨h, fun l e hsome huntouched => h.find?_kept hsome fun u c hhere hmay hthere htouches =>
    ?_, fun l e hsome hne => ?_⟩
  · -- Directories are made only where nothing was, so what is changed is a target.
    cases hmay with
    | makeRoot _ _ _ missing | makeAbove _ _ missing =>
      obtain rfl := htouches
      exact hthere missing
    | copyFile listed down =>
      obtain rfl := htouches
      exact huntouched _ listed down (by rw [targetBase_congr hhere])
  · -- What was not there before was put there by one of the changes.
    obtain ⟨u, hbefore, hmay⟩ := h.put_of_find? hsome hne
    cases hmay with
    | makeRoot listed relative above missing =>
      refine .inr ⟨rfl, find?_eq_none_of_becomes hbefore missing, _, listed,
        .inr ⟨relative, _, above, ?_⟩⟩
      rw [FileTree.base_congr hbefore.here]
    | makeAbove listed above missing =>
      refine .inr ⟨rfl, find?_eq_none_of_becomes hbefore missing, _, listed, .inl ⟨_, above, ?_⟩⟩
      rw [targetBase_congr hbefore.here]
    | copyFile listed down below =>
      refine .inl ⟨_, listed, down, below, ?_, fun heq => ?_⟩
      · rw [targetBase_congr hbefore.here]
      · cases heq

/-- The entry of a snapshot in the manifest of an output directory. -/
def listedEntry (out : String) (index : Nat) (t : FileTree) : Except CommandError ManifestEntry :=
  do
  (← Manifest.load out t).snapshot? index

/-- The files that the manifest of an output directory lists for a snapshot. -/
def listedFiles (out : String) (index : Nat) (t : FileTree) : List String :=
  match listedEntry out index t with
  | .ok entry => entry.files
  | .error _ => []

/-- The files that checking out a snapshot may read: the manifest, and those in one directory beside
it. -/
def CheckoutReads (t : FileTree) (out dir : String) (l : Location) : Prop :=
  l = t.location out ++ ["manifest.json"] ∨ t.location out ++ [dir] <+: l

section Checkout

variable {index : Nat}

/-- A checkout keeps to its rule, also when it fails. -/
theorem only_checkoutSnapshot (out : String) (index : Nat) (root : String) (t : FileTree) :
    t.Becomes (CheckoutRule root (listedFiles out index t))
      (checkoutSnapshot out index root t).2 := by
  unfold checkoutSnapshot listedFiles listedEntry
  cases hload : Manifest.load out t with
  | error e =>
    rw [bind_run_error (look_run_error hload)]
    exact .refl t
  | ok manifest =>
    rw [bind_run_ok (look_run_ok hload)]
    show t.Becomes (CheckoutRule root (match manifest.snapshot? index with
      | .ok entry => entry.files
      | .error _ => [])) _
    refine Only.ofExcept_bind (fun entry hentry => ?_) t
    rw [hentry]
    show Only (CheckoutRule root entry.files) _
    split
    next =>
      refine Only.ofExcept_bind fun placed hplaced =>
        Only.mapError (only_copyFiles fun f hf => ?_) _
      obtain ⟨hfiles, hsound, _⟩ := placeFiles_eq_ok hplaced
      exact ⟨hsound f hf, hfiles ▸ List.mem_map_of_mem hf⟩
    next => exact only_throw _

/-- Checking out a snapshot reads the manifest and files in one directory beside it, that of the
snapshot. -/
theorem exists_alike_checkoutSnapshot (out : String) (index : Nat) (root : String) (t : FileTree) :
    ∃ dir, IsEntryName dir ∧
      (∀ entry, listedEntry out index t = .ok entry → DirectoryName.isValid entry.dir →
        dir = entry.dir) ∧
      ∀ u, FileTree.AgreeOn (CheckoutReads t out dir) t u →
        Alike (CheckoutReads t out dir) t u
          (checkoutSnapshot out index root t) (checkoutSnapshot out index root u) := by
  -- A checkout that reads no directory of a snapshot reads the manifest only, so any name does.
  obtain ⟨dir, hname, hdir⟩ : ∃ dir, IsEntryName dir ∧
      ∀ entry, listedEntry out index t = .ok entry → DirectoryName.isValid entry.dir →
        dir = entry.dir := by
    cases hlisted : listedEntry out index t with
    | error e => exact ⟨_, isEntryName_manifest, nofun⟩
    | ok entry =>
      by_cases hvalid : DirectoryName.isValid entry.dir
      · exact ⟨_, DirectoryName.isEntryName_of_isValid hvalid, fun _ h _ =>
          congrArg _ (Except.ok.inj h)⟩
      · exact ⟨_, isEntryName_manifest, fun _ h hother => absurd (Except.ok.inj h ▸ hother) hvalid⟩
  refine ⟨dir, hname, hdir, fun u agree => ?_⟩
  have hsame : Manifest.load out u = Manifest.load out t := by
    unfold Manifest.load
    rw [agree.readText (.inl (Manifest.location_path t out))]
  unfold listedEntry at hdir
  unfold checkoutSnapshot
  -- Both trees hold the same manifest, so both checkouts fail alike or go on with the same entry.
  cases hload : Manifest.load out t with
  | error e =>
    rw [bind_run_error (look_run_error hload), bind_run_error (look_run_error (hsame.trans hload))]
    exact .unchanged agree _
  | ok manifest =>
    rw [bind_run_ok (look_run_ok hload), bind_run_ok (look_run_ok (hsame.trans hload))]
    rw [hload] at hdir
    refine .ofExcept_bind agree fun entry hentry => ?_
    split
    next hvalid =>
      refine .ofExcept_bind agree fun placed hplaced =>
        .mapError (alike_copyFiles agree fun f hf => .inr ?_) _
      obtain rfl := hdir entry hentry hvalid
      rw [((placeFiles_eq_ok hplaced).2.1 f hf).location_join, hname.location_join]
      exact List.prefix_append _ _
    next => exact .unchanged agree _

end Checkout

/-- Snapshots are written to and read from where they belong. Writing those of a result removes only
directories of the output directory, and creates or changes only the way to it, the manifest, and
what is below the directories that the new manifest names. Checking one out reads only the manifest
and what is below one directory beside it, writes relative names only below the root of the working
tree and absolute ones only where they say, without two dots either way, and makes only directories
above those. So it is whatever the files are, those of the output directory among them, and also
when the action fails on the way. -/
theorem snapshots_confined (t : FileTree) (out : String) :
    (∀ package sort result, WrittenWithin out (Manifest.describe package sort result).snapshots t
      (writeSnapshots out package sort result t).2) ∧
    ∀ index root, CheckedOutWithin root (listedFiles out index t) t
      (checkoutSnapshot out index root t).2 ∧
      ∃ dir, IsEntryName dir ∧
        (∀ entry, listedEntry out index t = .ok entry → DirectoryName.isValid entry.dir →
          dir = entry.dir) ∧
        ∀ u, FileTree.AgreeOn (CheckoutReads t out dir) t u → Alike (CheckoutReads t out dir) t u
          (checkoutSnapshot out index root t) (checkoutSnapshot out index root u) := by
  refine ⟨fun package sort result => ?_,
    fun index root => ⟨?_, exists_alike_checkoutSnapshot out index root t⟩⟩
  · exact writtenWithin_of_becomes (fun _ => Manifest.isEntryName_of_mem_describe)
      (only_writeSnapshots t)
  · exact checkedOutWithin_of_becomes (only_checkoutSnapshot out index root t)

end CoverageReplay
