import CoverageReplay.Proofs.Snapshots.Restoring

/-!
# What is refused before anything changes

Files can be kept beside each other if each name has parts, none of them leads upwards, and no two
have the same relative form (`Placeable`). All names of all snapshots are placed before the first
change, so a result with names that cannot be kept is refused with the files as they were, and so is
checking out a snapshot whose entry cannot be found or used (`CheckoutRefusal`). Whatever fails
later is a fault of the files (`writeSnapshots_decides`, `checkoutSnapshot_decides`).
-/

namespace CoverageReplay

open FileAction

variable {t t' : FileTree} {file out package reason root : String} {before files : List String}
    {index : Nat}
variable {sort : SortStrategy} {result : JobResult}

/-! ## Files beside each other -/

/-- The relative path that a file name stands for: its parts, joined by slashes. -/
def relativeForm (file : String) : String := Path.ofParts (Path.parts file)

/-- A file in the place that its name gives it. -/
def PlacedFile.ofName (file : String) : PlacedFile := ⟨file, relativeForm file⟩

/-- Whether files can be kept beside each other. -/
structure Placeable (files : List String) : Prop where
  down : ∀ file ∈ files, ".." ∉ Path.parts file
  named : ∀ file ∈ files, Path.parts file ≠ []
  distinct : (files.map relativeForm).Nodup

/-- Why files cannot be kept beside each other, and what is said of it: the first one that cannot be
kept beside those before it leads upwards, names nothing, or has the relative form of one of
them. -/
inductive Unplaceable : List String → String → Prop
  | upwards {before after : List String} {file : String} (fine : Placeable before)
      (up : ".." ∈ Path.parts file) :
      Unplaceable (before ++ file :: after) ("refusing path with '..': " ++ file)
  | nameless {before after : List String} {file : String} (fine : Placeable before)
      (empty : Path.parts file = []) :
      Unplaceable (before ++ file :: after) ("empty file path " ++ Text.quote file)
  | taken {before after : List String} {file other : String} (fine : Placeable before)
    (earlier : other ∈ before) (same : relativeForm other = relativeForm file) :
      Unplaceable (before ++ file :: after)
        (other ++ " and " ++ file ++ " both map to " ++ relativeForm file)

theorem placeable_nil : Placeable [] := ⟨nofun, nofun, List.nodup_nil⟩

/-- One more file has a place if its name goes down and no other file has its relative form. -/
theorem Placeable.concat (h : Placeable before) (down : ".." ∉ Path.parts file)
    (named : Path.parts file ≠ [])
    (fresh : ∀ other ∈ before, relativeForm other ≠ relativeForm file) :
    Placeable (before ++ [file]) := by
  refine ⟨?_, ?_, ?_⟩
  · exact List.forall_mem_append.mpr ⟨h.down, List.forall_mem_singleton.mpr down⟩
  · exact List.forall_mem_append.mpr ⟨h.named, List.forall_mem_singleton.mpr named⟩
  · rw [List.map_append, List.map_singleton, List.nodup_append]
    refine ⟨h.distinct, List.nodup_singleton _, fun form hform last hlast => ?_⟩
    obtain ⟨other, hother, rfl⟩ := List.mem_map.mp hform
    rw [List.mem_singleton.mp hlast]
    exact fresh other hother

/-- Files that are refused have no places. -/
theorem Unplaceable.not_placeable (h : Unplaceable files reason) : ¬ Placeable files := by
  intro hplaceable
  cases h with
  | upwards _ up => exact hplaceable.down _ (List.mem_append_right _ List.mem_cons_self) up
  | nameless _ empty => exact hplaceable.named _ (List.mem_append_right _ List.mem_cons_self) empty
  | taken _ earlier same =>
    have hdistinct := hplaceable.distinct
    rw [List.map_append, List.map_cons, List.nodup_append] at hdistinct
    exact hdistinct.2.2 _ (List.mem_map_of_mem earlier) _ List.mem_cons_self same

/-- A name that goes down to something is placed. -/
theorem placeFile_of_down (down : ".." ∉ Path.parts file) (named : Path.parts file ≠ []) :
    placeFile file = .ok (.ofName file) := by
  unfold placeFile
  rw [relativeParts_eq_ok.mpr ⟨down, named, rfl⟩]
  rfl

/-- Behind files that have places, either all others get theirs or the first that cannot is
refused. -/
theorem placeFilesFrom_decides (h : Placeable before) (files : List String) :
    (placeFilesFrom (before.map PlacedFile.ofName).reverse files =
        .ok (files.map PlacedFile.ofName) ∧
      Placeable (before ++ files)) ∨
    ∃ reason, placeFilesFrom (before.map PlacedFile.ofName).reverse files =
        .error (.output reason) ∧
      Unplaceable (before ++ files) reason := by
  -- The induction carries the names placed so far, which are kept last first.
  induction files generalizing before with
  | nil => exact .inl ⟨rfl, by rwa [List.append_nil]⟩
  | cons file rest ih =>
    unfold placeFilesFrom
    by_cases hup : ".." ∈ Path.parts file
    · refine .inr ⟨_, ?_, .upwards h hup⟩
      simp only [placeFile, relativeParts, List.contains_eq_mem, hup, decide_true, if_true]
      rfl
    by_cases hempty : Path.parts file = []
    · refine .inr ⟨_, ?_, .nameless h hempty⟩
      simp [placeFile, relativeParts, hempty]
      rfl
    rw [placeFile_of_down hup hempty, ok_bind]
    -- The names before are all placeable, so a clash is with the relative form of one of them.
    cases hfind : (before.map PlacedFile.ofName).reverse.find? fun other =>
        other.relative = (PlacedFile.ofName file).relative with
    | some other =>
      have hsame : other.relative = (PlacedFile.ofName file).relative := by
        simpa using List.find?_some hfind
      have hmem := List.mem_of_find?_eq_some hfind
      rw [List.mem_reverse] at hmem
      obtain ⟨name, hname, rfl⟩ := List.mem_map.mp hmem
      exact .inr ⟨_, rfl, .taken h hname hsame⟩
    | none =>
      have hfresh : ∀ other ∈ before, relativeForm other ≠ relativeForm file := by
        intro other hother
        have hne : ¬ (PlacedFile.ofName other).relative = (PlacedFile.ofName file).relative := by
          simpa using List.find?_eq_none.mp hfind (.ofName other)
            (List.mem_reverse.mpr (List.mem_map_of_mem hother))
        exact hne
      have hnext := ih (h.concat hup hempty hfresh)
      rw [List.map_append, List.map_singleton, List.reverse_append, List.reverse_singleton,
        List.singleton_append, List.append_assoc, List.singleton_append] at hnext
      rcases hnext with ⟨hrest, hall⟩ | ⟨reason, hrest, hbad⟩
      · exact .inl ⟨by rw [hrest]; rfl, hall⟩
      · exact .inr ⟨reason, by rw [hrest]; rfl, hbad⟩

/-- Either all files are placed or the first that cannot be is refused. -/
theorem placeFiles_decides (files : List String) :
    (placeFiles files = .ok (files.map PlacedFile.ofName) ∧ Placeable files) ∨
    ∃ reason, placeFiles files = .error (.output reason) ∧ Unplaceable files reason :=
  placeFilesFrom_decides placeable_nil files

/-- Files have places if they can be kept beside each other, in the order in which they are
given. -/
theorem placeFiles_eq_ok_iff {placed : List PlacedFile} :
    placeFiles files = .ok placed ↔ Placeable files ∧ placed = files.map PlacedFile.ofName := by
  rcases placeFiles_decides files with ⟨hplaced, hfine⟩ | ⟨reason, hrefused, hbad⟩
  · rw [hplaced, Except.ok.injEq]
    exact ⟨fun h => ⟨hfine, h.symm⟩, fun h => h.2.symm⟩
  · rw [hrefused]
    exact ⟨nofun, fun h => absurd h.1 hbad.not_placeable⟩

/-! ## Writing -/

/-- The first entry belongs to the first snapshot. -/
theorem Manifest.entriesFrom_cons (index : Nat) (tests : List String) (s : Snapshot)
    (rest : List Snapshot) :
    entriesFrom index tests (s :: rest) =
      .ofSnapshot index (tests.head?.getD baselineLabel) s ::
        entriesFrom (index + 1) tests.tail rest := by
  cases tests with
  | nil => rfl
  | cons => rfl

/-- Either all snapshots are laid out or the first that cannot is refused. -/
theorem SnapshotLayout.ofEntries_decides (index : Nat) (tests : List String)
    (snapshots : List Snapshot) :
    (∃ layouts, ofEntries (Manifest.entriesFrom index tests snapshots) snapshots = .ok layouts ∧
      ∀ s ∈ snapshots, Placeable s.keys) ∨
    ∃ reason, ofEntries (Manifest.entriesFrom index tests snapshots) snapshots =
      .error (.output reason) ∧
      ∃ s ∈ snapshots, Unplaceable s.keys reason := by
  induction snapshots generalizing index tests with
  | nil =>
    refine .inl ⟨[], ?_, nofun⟩
    cases tests with
    | nil => rfl
    | cons => rfl
  | cons s rest ih =>
    rw [Manifest.entriesFrom_cons]
    unfold ofEntries ofEntry
    have hfiles (label : String) : (ManifestEntry.ofSnapshot index label s).files = s.keys := rfl
    simp only [hfiles, List.forall_mem_cons, List.exists_mem_cons_iff]
    rcases placeFiles_decides s.keys with ⟨hplaced, hfine⟩ | ⟨reason, hrefused, hbad⟩
    · rw [hplaced]
      rcases ih (index + 1) tests.tail with ⟨layouts, hrest, hall⟩ | ⟨reason, hrest, hbad⟩
      · exact .inl ⟨_, by rw [hrest]; rfl, hfine, hall⟩
      · exact .inr ⟨reason, by rw [hrest]; rfl, .inr hbad⟩
    · exact .inr ⟨reason, by rw [hrefused]; rfl, .inl hbad⟩

/-- Where only faults of the files are met, nothing else goes wrong. -/
theorem fault_of_mapError {α : Type} (a : FileAction FileFault α) (t : FileTree) :
    (∃ v t', (mapError .io a : FileAction CommandError α) t = (.ok v, t')) ∨
      ∃ fault t', (mapError .io a : FileAction CommandError α) t = (.error (.io fault), t') := by
  unfold mapError
  cases a t with
  | mk outcome t' =>
    cases outcome with
    | ok v => exact .inl ⟨v, t', rfl⟩
    | error fault => exact .inr ⟨fault, t', rfl⟩

/-- Writing snapshots is refused before anything changes, or all names can be kept, and then only a
fault of the files stops it. -/
theorem writeSnapshots_decides (out package : String) (sort : SortStrategy) (result : JobResult)
    (t : FileTree) :
    ((∀ s ∈ result.snapshots, Placeable s.keys) ∧
      ((∃ m t', writeSnapshots out package sort result t = (.ok m, t')) ∨
        ∃ fault t', writeSnapshots out package sort result t = (.error (.io fault), t'))) ∨
    ∃ reason, writeSnapshots out package sort result t = (.error (.output reason), t) ∧
      ∃ s ∈ result.snapshots, Unplaceable s.keys reason := by
  unfold writeSnapshots Manifest.describe
  rcases SnapshotLayout.ofEntries_decides 0 result.tests result.snapshots with
    ⟨layouts, hlaid, hfine⟩ | ⟨reason, hrefused, hbad⟩
  · refine .inl ⟨hfine, ?_⟩
    simp only [hlaid]
    rw [bind_run_ok (ofExcept_run_ok layouts t)]
    exact (fault_of_mapError _ t).imp (fun ⟨_, t', hrun⟩ => ⟨_, t', bind_run_ok hrun⟩)
      fun ⟨fault, t', hrun⟩ => ⟨fault, t', bind_run_error hrun⟩
  · refine .inr ⟨reason, ?_, hbad⟩
    simp only [hrefused]
    rfl

/-! ## Checking out -/

/-- Whether an error refuses what was asked for, so that it is no fault of the files met on the
way. -/
def CommandError.IsRejection : CommandError → Prop
  | .invalidArgument _ | .json _ | .output _ => True
  | _ => False

/-- Why checking out a snapshot is refused. -/
inductive CheckoutRefusal (t : FileTree) (out : String) (index : Nat) : CommandError → Prop
  | missing {fault : FileFault} (unread : t.readText (Manifest.path out) = .error fault) :
      CheckoutRefusal t out index (.invalidArgument (Manifest.path out ++ ": " ++ fault.message))
  | malformed {text reason : String} (read : t.readText (Manifest.path out) = .ok text)
      (unparsed : Manifest.parse? text = .error (.json reason)) :
        CheckoutRefusal t out index (.json reason)
  | beyond {m : Manifest} (loaded : Manifest.load out t = .ok m)
    (end_le : m.snapshots.length ≤ index) :
      CheckoutRefusal t out index (.invalidArgument ("snapshot index " ++ toString index ++
        " out of range (run has " ++ toString m.snapshots.length ++ " snapshots)"))
  | foreign {entry : ManifestEntry} (listed : listedEntry out index t = .ok entry)
      (shape : ¬ DirectoryName.isValid entry.dir) :
      CheckoutRefusal t out index
        (.output ("manifest names snapshot directory " ++ Text.quote entry.dir ++
          " outside " ++ out))
  | unplaceable {entry : ManifestEntry} {reason : String}
    (listed : listedEntry out index t = .ok entry)
      (shape : DirectoryName.isValid entry.dir) (files : Unplaceable entry.files reason) :
      CheckoutRefusal t out index (.output reason)

namespace CheckoutRefusal

variable {e : CommandError} {entry : ManifestEntry}

theorem isRejection (h : CheckoutRefusal t out index e) : e.IsRejection := by
  cases h with
  | missing | malformed | beyond | foreign | unplaceable => exact trivial

/-- A listed entry with a directory and files of the right shape is not refused. -/
theorem not_of_listed (listed : listedEntry out index t = .ok entry)
    (shape : DirectoryName.isValid entry.dir) (fine : Placeable entry.files) :
    ¬ CheckoutRefusal t out index e := by
  obtain ⟨m, hload, hentry⟩ := bind_eq_ok_iff.mp listed
  intro h
  cases h with
  | missing unread =>
    rw [Manifest.load, unread] at hload
    cases hload
  | malformed read unparsed =>
    rw [Manifest.load, read] at hload
    cases unparsed.symm.trans hload
  | beyond loaded end_le =>
    cases loaded.symm.trans hload
    rw [Manifest.snapshot?, List.getElem?_eq_none end_le] at hentry
    cases hentry
  | foreign other foreign =>
    cases other.symm.trans listed
    exact foreign shape
  | unplaceable other _ files =>
    cases other.symm.trans listed
    exact files.not_placeable fine

end CheckoutRefusal

/-- A manifest that is not loaded cannot be read or is malformed. -/
theorem CheckoutRefusal.of_load {e : CommandError} (h : Manifest.load out t = .error e) :
    CheckoutRefusal t out index e := by
  unfold Manifest.load at h
  split at h
  next text hread =>
    have hparse := h
    unfold Manifest.parse? at h
    split at h
    next => cases h
    next =>
      cases h
      exact .malformed hread hparse
  next fault hread =>
    cases h
    exact .missing hread

/-- A checkout of a snapshot that the manifest does not have is refused. -/
theorem CheckoutRefusal.of_snapshot? {e : CommandError} {m : Manifest}
    (loaded : Manifest.load out t = .ok m) (h : m.snapshot? index = .error e) :
    CheckoutRefusal t out index e := by
  unfold Manifest.snapshot? at h
  split at h
  next => cases h
  next hnone =>
    cases h
    exact .beyond loaded (List.getElem?_eq_none_iff.mp hnone)

/-- Checking out a snapshot is refused before anything changes, or its entry is found and can be
used, and then only a fault of the files stops it. -/
theorem checkoutSnapshot_decides (out : String) (index : Nat) (root : String) (t : FileTree) :
    (∃ e, CheckoutRefusal t out index e ∧ checkoutSnapshot out index root t = (.error e, t)) ∨
    ((∀ e, ¬ CheckoutRefusal t out index e) ∧
      ((∃ paths t', checkoutSnapshot out index root t = (.ok paths, t')) ∨
        ∃ fault t', checkoutSnapshot out index root t = (.error (.io fault), t'))) := by
  cases hload : Manifest.load out t with
  | error e => exact .inl ⟨e, .of_load hload, bind_run_error (look_run_error hload)⟩
  | ok m =>
    have hrun : checkoutSnapshot out index root t = _ := bind_run_ok (look_run_ok hload)
    cases hentry : m.snapshot? index with
    | error e =>
      rw [hentry] at hrun
      exact .inl ⟨e, .of_snapshot? hload hentry, hrun⟩
    | ok entry =>
      have hlisted : listedEntry out index t = .ok entry := bind_eq_ok_iff.mpr ⟨m, hload, hentry⟩
      rw [hentry, bind_run_ok (ofExcept_run_ok entry t)] at hrun
      by_cases hvalid : DirectoryName.isValid entry.dir
      · rcases placeFiles_decides entry.files with ⟨hplaced, hfine⟩ | ⟨reason, hrefused, hbad⟩
        · rw [checkoutSnapshot_of_listed root hlisted hvalid hplaced]
          exact .inr ⟨fun _ => CheckoutRefusal.not_of_listed hlisted hvalid hfine,
            fault_of_mapError _ t⟩
        · rw [if_pos hvalid, hrefused] at hrun
          exact .inl ⟨_, .unplaceable hlisted hvalid hbad, hrun⟩
      · rw [if_neg hvalid] at hrun
        exact .inl ⟨_, .foreign hlisted hvalid, hrun⟩

/-- Every rejection comes before the first change. Files are placed exactly if they can be kept
beside each other, and then in the order in which they are given. Writing snapshots fails for its
layout exactly if the files of one of them cannot be kept beside each other, and checking out a
snapshot fails other than by a fault of the files exactly if it is refused; either way the files are
as they were. -/
theorem rejections_change_nothing (t : FileTree) (out : String) :
    (∀ files placed, placeFiles files = .ok placed ↔
      Placeable files ∧ placed = files.map PlacedFile.ofName) ∧
    (∀ package sort result,
      (∀ reason t', writeSnapshots out package sort result t = (.error (.output reason), t') →
        t' = t ∧ ∃ s ∈ result.snapshots, Unplaceable s.keys reason) ∧
      ((∃ s ∈ result.snapshots, ¬ Placeable s.keys) →
        ∃ reason, writeSnapshots out package sort result t = (.error (.output reason), t))) ∧
    ∀ index root,
      (∀ e t', e.IsRejection → checkoutSnapshot out index root t = (.error e, t') →
        t' = t ∧ CheckoutRefusal t out index e) ∧
      ((∃ e, CheckoutRefusal t out index e) →
        ∃ e, CheckoutRefusal t out index e ∧
          checkoutSnapshot out index root t = (.error e, t)) := by
  refine ⟨fun files placed => placeFiles_eq_ok_iff, fun package sort result =>
    ?_, fun index root => ?_⟩
  · rcases writeSnapshots_decides out package sort result t with ⟨hfine, hrun⟩ | ⟨reason,
      hrefused, hbad⟩
    · refine ⟨fun reason t' herror => ?_, fun ⟨s, hs, hbad⟩ => absurd (hfine s hs) hbad⟩
      rcases hrun with ⟨_, _, hrun⟩ | ⟨_, _, hrun⟩
      · cases hrun.symm.trans herror
      · cases hrun.symm.trans herror
    · refine ⟨fun _ t' herror => ?_, fun _ => ⟨reason, hrefused⟩⟩
      cases hrefused.symm.trans herror
      exact ⟨rfl, hbad⟩
  · rcases checkoutSnapshot_decides out index root t with ⟨e, hrefusal, hrefused⟩ | ⟨hnone, hrun⟩
    · refine ⟨fun _ t' _ herror => ?_, fun _ => ⟨e, hrefusal, hrefused⟩⟩
      cases hrefused.symm.trans herror
      exact ⟨rfl, hrefusal⟩
    · refine ⟨fun e t' hrejection herror => ?_, fun ⟨e, hrefusal⟩ => absurd hrefusal (hnone e)⟩
      rcases hrun with ⟨_, _, hrun⟩ | ⟨_, _, hrun⟩
      · cases hrun.symm.trans herror
      · cases hrun.symm.trans herror
        exact hrejection.elim

/-- A result whose baseline has an absolute and a relative name of one relative form. -/
def sameForm : JobResult :=
  ⟨["t"], [⟨[("a", ⟨#[1]⟩)]⟩, ⟨[("/x/a", ⟨#[1]⟩), ("x/a", ⟨#[2]⟩)]⟩]⟩

/-- An output directory with a file of an earlier run and no manifest. -/
def leftOver : FileTree :=
  ⟨⟨[(["o"], .directory), (["o", "000-t"], .directory), (["o", "000-t", "b"], .file ⟨#[3]⟩)]⟩, []⟩

/-- The baseline is refused before the directory of the test is written over, and so is checking
out. -/
theorem rejections_change_nothing_sameForm :
    (∃ reason, writeSnapshots "o" "p" .hardcoded sameForm leftOver =
      (.error (.output reason), leftOver)) ∧
    ∃ e, CheckoutRefusal leftOver "o" 0 e ∧
      checkoutSnapshot "o" 0 "r" leftOver = (.error e, leftOver) := by
  obtain ⟨_, hwriting, hcheckout⟩ := rejections_change_nothing leftOver "o"
  have hbad : ∃ s ∈ sameForm.snapshots, ¬ Placeable s.keys := by
    refine ⟨_, List.mem_cons_of_mem _ List.mem_cons_self, fun hplaceable => ?_⟩
    exact absurd hplaceable.distinct (by decide +kernel)
  have hmissing : leftOver.readText (Manifest.path "o") = .error .notFound := by decide +kernel
  exact ⟨(hwriting "p" .hardcoded sameForm).2 hbad, (hcheckout 0 "r").2 ⟨_, .missing hmissing⟩⟩

end CoverageReplay
