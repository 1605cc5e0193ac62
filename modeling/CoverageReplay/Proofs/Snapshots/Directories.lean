import CoverageReplay.Proofs.Snapshots.Rejections
import CoverageReplay.Proofs.Snapshots.Replacing

/-!
# Directories of snapshots

The name of a snapshot directory is taken for one exactly if its label is not empty
(`DirectoryName.isValid_ofLabel_iff`). What a run writes under such a label can be checked out, and
the next run into the same directory removes it (`labelled_snapshots_usable`). What it writes under
the empty label is refused and stays (`unlabelled_snapshot_stuck`).
-/

namespace CoverageReplay

open FileAction

variable {t t' made cleared filled : FileTree} {l : Location} {out dir : String}
    {r : Replay} {i : Nat}
variable {s : Snapshot} {layouts : List SnapshotLayout} {files : List (PlacedFile × ByteArray)}

/-- The name of a directory is recognised exactly if its label is not empty. -/
theorem DirectoryName.isValid_ofLabel_iff (i : Nat) (label : String) :
    isValid (ofLabel i label) ↔ label ≠ "" := by
  refine ⟨?_, isValid_ofLabel i⟩
  rintro hvalid rfl
  have hchars : (ofLabel i "").toList = index i ++ ['-'] := String.toList_ofList
  unfold isValid at hvalid
  rw [hchars, Text.splitFirst_append (hyphen_notMem_index i)] at hvalid
  simp at hvalid

/-- The label of a snapshot: its test, or that of the baseline where there is none. -/
def Replay.label (r : Replay) (i : Nat) : String := r.result.tests[i]?.getD Manifest.baselineLabel

/-! ## Reading what was written -/

/-- The paths of the files of a snapshot lead to them once they were written. -/
theorem exists_locate_of_writeFiles (h : writeFiles dir files t = (.ok (), t')) :
    ∀ f ∈ files, ∃ l, t'.locate (Path.join dir f.1.relative) = .ok l := by
  induction files generalizing t with
  | nil => exact nofun
  | cons f rest ih =>
    obtain ⟨_, u, _, h⟩ := bind_eq_ok h
    obtain ⟨_, v, hwrite, h⟩ := bind_eq_ok h
    have hgrows := ((growing_writeFiles _ _).becomes h).grows fun _ _ => id
    exact List.forall_mem_cons.mpr ⟨⟨_, hgrows.locate (write_eq_ok hwrite).locate⟩, ih h⟩

/-- Each file of the snapshots can be located once they are written. -/
theorem exists_locate_of_writeLayouts (h : writeLayouts out layouts t = (.ok (), t')) :
    ∀ layout ∈ layouts, ∀ f ∈ layout.files,
      ∃ l, t'.locate (Path.join (Path.join out layout.dir) f.1.relative) = .ok l := by
  induction layouts generalizing t with
  | nil => exact nofun
  | cons layout rest ih =>
    obtain ⟨_, u, hwrite, h⟩ := bind_eq_ok h
    have hgrows := ((growing_writeLayouts _ _).becomes h).grows fun _ _ => id
    refine List.forall_mem_cons.mpr ⟨fun f hf => ?_, ih h⟩
    obtain ⟨l, hl⟩ := exists_locate_of_writeFiles hwrite f hf
    exact ⟨l, hgrows.locate hl⟩

/-- Whether a snapshot that was written can be used: it is listed with its directory and files,
checking it out copies all of these and is never refused, and they can be read where they are
kept. -/
structure Usable (t : FileTree) (out : String) (i : Nat) (dir : String) (s : Snapshot) : Prop where
  listed : ∃ entry, listedEntry out i t = .ok entry ∧ entry.dir = dir ∧ entry.files = s.keys
  copied : ∀ root, checkoutSnapshot out i root t =
    mapError .io (copyFiles (Path.join out dir) root (s.keys.map .ofName)) t
  accepted : ∀ root e t', checkoutSnapshot out i root t = (.error e, t') → ¬ e.IsRejection
  readable : ∀ f bytes, s.get? f = some bytes →
    t.read (Path.join (Path.join out dir) (relativeForm f)) = .ok bytes

namespace WritingRun

variable (h : WritingRun out r.package r.sort r.result t made cleared filled t' layouts)

include h

/-- Each snapshot has a layout, with the files that have contents in it. -/
theorem exists_layout (hs : r.result.snapshots[i]? = some s) :
    ∃ placed, placeFiles s.keys = .ok placed ∧ ⟨r.directory i, placed.zip s.values⟩ ∈ layouts := by
  obtain ⟨layout, hlayout, hof⟩ :=
    SnapshotLayout.exists_of_getElem? h.laidOut (Replay.entry_of_snapshot hs) hs
  obtain ⟨placed, hplaced, rfl⟩ := SnapshotLayout.ofEntry_eq_ok hof
  exact ⟨placed, hplaced, hlayout⟩

/-- The entry that is listed for an index describes the snapshot with this index. -/
theorem listedEntry_eq_ok (indices : r.result.snapshots.length ≤ 2 ^ 64)
    (hs : r.result.snapshots[i]? = some s) :
    listedEntry out i t' = .ok (.ofSnapshot i (r.label i) s) :=
  h.kept.listedEntry (Replay.readable_manifest indices) h.saves.locate (Replay.entry_of_snapshot hs)

/-- What is read of a file of a snapshot is what it holds. -/
theorem read_eq_ok (hs : r.result.snapshots[i]? = some s) {f : String} {bytes : ByteArray}
    (hget : s.get? f = some bytes) :
    t'.read (Path.join (Path.join out (r.directory i)) (relativeForm f)) = .ok bytes := by
  obtain ⟨placed, hplaced, hlayout⟩ := h.exists_layout hs
  obtain ⟨hkeys, hsound, _⟩ := placeFiles_eq_ok hplaced
  obtain ⟨g, rfl, hg⟩ := mem_zip_of_get? hkeys hget
  have hgsound := hsound g (List.of_mem_zip hg).1
  obtain ⟨l, hl⟩ := exists_locate_of_writeLayouts h.fills _ hlayout (g, bytes) hg
  have hsaved := h.saves.grows.locate hl
  have hrelative : relativeForm g.file = g.relative := hgsound.relative.symm
  rw [hrelative]
  refine FileTree.read_eq_ok.mpr ⟨l, hsaved, ?_⟩
  rw [FileTree.locate_eq hsaved, hgsound.location_below (h.sound _ hlayout).dir]
  exact h.kept.files i _ s (Replay.entry_of_snapshot hs) hs g.file bytes hget

/-- A snapshot with a label is usable once it was written. -/
theorem usable (indices : r.result.snapshots.length ≤ 2 ^ 64) (hs : r.result.snapshots[i]? = some s)
    (labelled : r.label i ≠ "") : Usable t' out i (r.directory i) s := by
  have hlisted := h.listedEntry_eq_ok indices hs
  have hvalid := DirectoryName.isValid_ofLabel i labelled
  obtain ⟨placed, hplaced, _⟩ := h.exists_layout hs
  have hcopied (root : String) : checkoutSnapshot out i root t' =
      mapError .io (copyFiles (Path.join out (r.directory i)) root (s.keys.map .ofName)) t' := by
    have hdir : (ManifestEntry.ofSnapshot i (r.label i) s).dir = r.directory i := rfl
    rw [← (placeFiles_eq_ok_iff.mp hplaced).2, ← hdir]
    exact checkoutSnapshot_of_listed root hlisted hvalid hplaced
  refine ⟨⟨_, hlisted, rfl, rfl⟩, hcopied, fun root e u herror => ?_, fun f bytes =>
    h.read_eq_ok hs⟩
  rw [hcopied] at herror
  rcases fault_of_mapError (copyFiles (Path.join out (r.directory i)) root (s.keys.map .ofName))
    t' with
    ⟨_, _, hrun⟩ | ⟨_, _, hrun⟩
  · cases hrun.symm.trans herror
  · cases hrun.symm.trans herror
    exact id

/-- The directory of a snapshot with a file is there once it was written. -/
theorem isDirectory_directory (hs : r.result.snapshots[i]? = some s) {f : String}
    (hf : f ∈ s.keys) :
    t'.isDirectory (Path.join out (r.directory i)) := by
  obtain ⟨placed, hplaced, hlayout⟩ := h.exists_layout hs
  obtain ⟨bytes, hget⟩ := Option.isSome_iff_exists.mp (SortedMap.contains_iff_mem_keys.mpr hf)
  obtain ⟨g, _, hg⟩ := mem_zip_of_get? (placeFiles_eq_ok hplaced).1 hget
  have hfilled := isDirectory_of_writeLayouts h.sound h.fills _ hlayout (List.ne_nil_of_mem hg)
  exact h.saves.grows.isDirectory hfilled

/-! ## Removing what was written -/

/-- What the layouts name are the directories and files of the snapshots. -/
theorem exists_of_named {entry : ManifestEntry} {file : String}
    (named : entry ∈ layouts.map SnapshotLayout.entry) (listed : file ∈ entry.files) :
    ∃ (j : Nat) (s : Snapshot), r.result.snapshots[j]? = some s ∧ file ∈ s.keys ∧
      entry.dir = r.directory j := by
  obtain ⟨layout, hlayout, rfl⟩ := List.mem_map.mp named
  obtain ⟨f, hf, rfl⟩ := List.mem_map.mp listed
  obtain ⟨j, s, placed, hs, hplaced, rfl⟩ := h.exists_of_layout hlayout
  refine ⟨j, s, hs, ?_, rfl⟩
  rw [← (placeFiles_eq_ok hplaced).1]
  exact List.mem_map_of_mem (List.of_mem_zip hf).1

/-- What is found after a run where a snapshot was listed before it leads to a file of the run. -/
theorem exists_of_listed {e : FileEntry} (direct : Direct out t) (listed : Listed out t l)
    (hsome : t'.find? l = some e) :
    ∃ (j : Nat) (s : Snapshot) (f : String), r.result.snapshots[j]? = some s ∧ f ∈ s.keys ∧
      l <+: t.location out ++ r.directory j :: Path.parts f := by
  -- What lay in a listed directory was removed, so what is there now has been written since.
  have hremoved : cleared.find? l ≠ some e := fun hold =>
    (find?_of_removePrevious (direct.congr h.here_made) h.clears hold).2
      (listed.makeDirectories h.makes)
  obtain ⟨_, _, entry, _, hvalid, _, hbelow⟩ := listed
  have hne : t.location out ++ ["manifest.json"] ≠ l := by
    rintro rfl
    rw [List.prefix_append_right_inj, List.cons_prefix_cons] at hbelow
    rw [hbelow.1] at hvalid
    exact absurd hvalid (by decide)
  rw [h.saves.find?_of_ne (h.location_manifest ▸ hne)] at hsome
  obtain ⟨u, hbefore, hmay⟩ := h.becomes_filled.put_of_find? hsome hremoved
  have hhere := hbefore.here.trans h.here_cleared
  -- Only the new layouts write below the output directory.
  cases hmay with
  | makeOut above =>
    rw [FileTree.base_congr hhere] at hbelow
    exact absurd hbelow (direct _ above _ hvalid)
  | makeBelow named inEntry above =>
    obtain ⟨j, s, hs, hf, hdir⟩ := h.exists_of_named named inEntry
    refine ⟨j, s, _, hs, hf, ?_⟩
    rw [FileTree.location_congr hhere, hdir, List.prefix_append_right_inj, List.cons_prefix_cons]
    exact ⟨rfl, above.trans (List.dropLast_prefix _)⟩
  | writeFile named inEntry =>
    obtain ⟨j, s, hs, hf, hdir⟩ := h.exists_of_named named inEntry
    refine ⟨j, s, _, hs, hf, ?_⟩
    rw [FileTree.location_congr hhere, hdir]

end WritingRun

/-- The name of a snapshot directory is taken for one exactly if the label is not empty, and it
tells the index. A snapshot that was written under such a label can be used, and once the next run
is written into the same directory, to which the way is direct, all that is found where the snapshot
was leads to a file of that run. -/
theorem labelled_snapshots_usable {m : Manifest} (indices : r.result.snapshots.length ≤ 2 ^ 64)
    (written : writeSnapshots out r.package r.sort r.result t = (.ok m, t')) :
    (∀ i label, DirectoryName.isValid (DirectoryName.ofLabel i label) ↔ label ≠ "") ∧
    (∀ i j label label', i ≠ j → DirectoryName.ofLabel i label ≠ DirectoryName.ofLabel j label') ∧
    ∀ i s, r.result.snapshots[i]? = some s → r.label i ≠ "" →
      Usable t' out i (r.directory i) s ∧
      ∀ (next : Replay) m' t'', Direct out t → s.keys ≠ [] →
        writeSnapshots out next.package next.sort next.result t' = (.ok m', t'') →
        ∀ l e, t.location out ++ [r.directory i] <+: l → t''.find? l = some e →
          ∃ (j : Nat) (s' : Snapshot) (f : String), next.result.snapshots[j]? = some s' ∧
            f ∈ s'.keys ∧ l <+: t.location out ++ next.directory j :: Path.parts f := by
  obtain ⟨rfl, made, cleared, filled, layouts, hrun⟩ := writeSnapshots_eq_ok written
  refine ⟨DirectoryName.isValid_ofLabel_iff, fun i j label label' hne heq =>
    ?_, fun i s hs labelled => ?_⟩
  · exact hne (DirectoryName.index_of_ofLabel_eq heq)
  · refine ⟨hrun.usable indices hs labelled, fun next m' t'' direct hkeys hnext l e below hsome =>
      ?_⟩
    obtain ⟨_, _, _, _, _, hrun'⟩ := writeSnapshots_eq_ok hnext
    obtain ⟨f, hf⟩ := List.exists_mem_of_ne_nil _ hkeys
    have hload := hrun.kept.load (Replay.readable_manifest indices) hrun.saves.locate
    have hentry := List.mem_of_getElem? (Replay.entry_of_snapshot hs)
    rw [← FileTree.location_congr hrun.here_saved] at below ⊢
    have hlisted : Listed out t' l :=
      ⟨_, hload, _, hentry, DirectoryName.isValid_ofLabel i labelled,
      hrun.isDirectory_directory hs hf, below⟩
    exact hrun'.exists_of_listed (direct.congr hrun.here_saved) hlisted hsome

/-- The snapshot of the test of two files can be used, and the replay of one file removes it. -/
theorem labelled_snapshots_usable_twoFiles : ∃ m u m',
    twoFiles.result.snapshots.length ≤ 2 ^ 64 ∧
    writeSnapshots "o" twoFiles.package twoFiles.sort twoFiles.result .empty = (.ok m, u) ∧
    writeSnapshots "o" oneFile.package oneFile.sort oneFile.result u = (.ok m', writtenBoth "o") ∧
    ∃ s, twoFiles.result.snapshots[0]? = some s ∧ Usable u "o" 0 "000-t" s ∧
      ∀ l e, ["o", "000-t"] <+: l → (writtenBoth "o").find? l = some e →
        ∃ (j : Nat) (s' : Snapshot) (f : String), oneFile.result.snapshots[j]? = some s' ∧
          f ∈ s'.keys ∧ l <+: ["o"] ++ oneFile.directory j :: Path.parts f := by
  have hfound : (writtenFirst "o").locate (Manifest.path "o") = .ok ["o", "manifest.json"] := by
    decide +kernel
  have hboth := writeReplays_twoFiles_oneFile (by decide +kernel) hfound (by decide +kernel)
  obtain ⟨u, m', hbefore, hsecond⟩ := writeReplays_concat_eq_ok hboth
  obtain ⟨m, _, hfirst, hrest⟩ := bind_eq_ok hbefore
  cases hrest
  have hindices : twoFiles.result.snapshots.length ≤ 2 ^ 64 := by decide
  obtain ⟨_, _, husable⟩ := labelled_snapshots_usable hindices hfirst
  obtain ⟨husable, hremoved⟩ := husable 0 _ rfl (by decide)
  have hdirect : Direct "o" .empty := direct_of_notMem (by decide) _
  exact ⟨m, u, m', hindices, hfirst, hsecond, _, rfl, husable,
    hremoved oneFile m' _ hdirect (by decide) hsecond⟩

/-- A replay of one file with a test that has no name. -/
def unlabelled : Replay := ⟨"p", .hardcoded, [""], [⟨[("a", ⟨#[1]⟩)]⟩, ⟨[("a", ⟨#[1]⟩)]⟩]⟩

/-- The tree after it was written. -/
def writtenUnlabelled : FileTree :=
  (writeSnapshots "o" unlabelled.package unlabelled.sort unlabelled.result .empty).2

/-- The tree after a replay with a named test was written over it. -/
def overUnlabelled : FileTree :=
  (writeOver "o" unlabelled.manifest oneFileLayouts oneFile.manifest writtenUnlabelled).2

/-- The name that the empty label gives is not taken for that of a snapshot directory: the snapshot
is written, but checking it out is refused, and the next run leaves it where it is. -/
theorem unlabelled_snapshot_stuck :
    ¬ DirectoryName.isValid (DirectoryName.ofLabel 0 "") ∧
    writeSnapshots "o" unlabelled.package unlabelled.sort unlabelled.result .empty =
      (.ok unlabelled.manifest, writtenUnlabelled) ∧
    (∀ root, ∃ e, e.IsRejection ∧
      checkoutSnapshot "o" 0 root writtenUnlabelled = (.error e, writtenUnlabelled)) ∧
    writeSnapshots "o" oneFile.package oneFile.sort oneFile.result writtenUnlabelled =
      (.ok oneFile.manifest, overUnlabelled) ∧
    overUnlabelled.find? ["o", "000-", "a"] = some (.file ⟨#[1]⟩) := by
  have hshape : ¬ DirectoryName.isValid (DirectoryName.ofLabel 0 "") := by decide
  have hwritten : writeSnapshots "o" unlabelled.package unlabelled.sort unlabelled.result .empty =
      (.ok unlabelled.manifest, writtenUnlabelled) := by
    refine eq_of_toOption ?_
    decide +kernel
  obtain ⟨_, _, _, _, _, hrun⟩ := writeSnapshots_eq_ok hwritten
  have hindices : unlabelled.result.snapshots.length ≤ 2 ^ 64 := by decide
  have hload := hrun.kept.load (Replay.readable_manifest hindices) hrun.saves.locate
  have hlaidOut : SnapshotLayout.ofEntries oneFile.manifest.snapshots oneFile.result.snapshots =
      .ok oneFileLayouts := rfl
  have hover : writeOver "o" unlabelled.manifest oneFileLayouts oneFile.manifest writtenUnlabelled =
      (.ok (), overUnlabelled) := by
    unfold overUnlabelled
    refine eq_of_toOption ?_
    decide +kernel
  have hnext := writeSnapshots_run hload hlaidOut hover
  refine ⟨hshape, hwritten, fun root => ?_, hnext, by decide +kernel⟩
  have hlisted := hrun.listedEntry_eq_ok (i := 0) hindices rfl
  rcases checkoutSnapshot_decides "o" 0 root writtenUnlabelled with ⟨e, hrefusal,
    hrefused⟩ | ⟨hnone, _⟩
  · exact ⟨e, hrefusal.isRejection, hrefused⟩
  · exact absurd (.foreign hlisted hshape) (hnone _)

end CoverageReplay
