import CoverageReplay.Proofs.Snapshots.Restoring

/-!
# Files copied to one place

The files of a snapshot have places of their own in its directory, but they are copied elsewhere:
relative names below the root of the working tree and absolute ones to where they say. So two files
are copied to one place exactly if the absolute name of one is the name of the other as seen from
the root (`Coincide`, `PlacedFile.Sound.location_target_eq_iff`). All others stay as they were
copied while the rest of the snapshot is (`copied_files_stay`). Where names do coincide, the file
that comes later overwrites the other (`coinciding_overwritten`).
-/

namespace CoverageReplay

open FileAction

variable {t t' u : FileTree} {out root dir : String} {index : Nat} {entry : ManifestEntry}
    {f g : PlacedFile}
variable {placed first second : List PlacedFile} {paths : List String}

/-! ## Places -/

/-- Whether a name is absolute and says where another one, which is relative, belongs in a working
tree. -/
structure Coincide (t : FileTree) (root name other : String) : Prop where
  absolute : Path.isAbsolute name
  relative : Path.isAbsolute other = false
  parts : Path.parts name = t.location root ++ Path.parts other

/-- Files with different places in the directory of their snapshot are copied to one place exactly
if their names coincide. -/
theorem PlacedFile.Sound.location_target_eq_iff (hf : f.Sound) (hg : g.Sound)
    (apart : Path.parts f.file ≠ Path.parts g.file) :
    t.location (f.target root) = t.location (g.target root) ↔
      Coincide t root f.file g.file ∨ Coincide t root g.file f.file := by
  rw [hf.location_target, hg.location_target]
  unfold targetBase
  -- An absolute name is its own target, a relative one is below the root. Two of one kind differ
  -- here; one of each kind may coincide.
  cases habsolute : Path.isAbsolute f.file with
  | false =>
    cases habsolute' : Path.isAbsolute g.file with
    | false =>
      simp only [Bool.false_eq_true, if_false, List.append_cancel_left_eq]
      refine ⟨fun h => absurd h apart, ?_⟩
      rintro (h | h)
      · exact absurd (habsolute.symm.trans h.absolute) Bool.false_ne_true
      · exact absurd (habsolute'.symm.trans h.absolute) Bool.false_ne_true
    | true =>
      simp only [Bool.false_eq_true, if_false, if_true, List.nil_append]
      refine ⟨fun h => .inr ⟨habsolute', habsolute, h.symm⟩, ?_⟩
      rintro (h | h)
      · exact absurd (habsolute.symm.trans h.absolute) Bool.false_ne_true
      · exact h.parts.symm
  | true =>
    cases habsolute' : Path.isAbsolute g.file with
    | false =>
      simp only [Bool.false_eq_true, if_false, if_true, List.nil_append]
      refine ⟨fun h => .inl ⟨habsolute, habsolute', h⟩, ?_⟩
      rintro (h | h)
      · exact h.parts
      · exact absurd (habsolute'.symm.trans h.absolute) Bool.false_ne_true
    | true =>
      simp only [if_true, List.nil_append]
      refine ⟨fun h => absurd h apart, ?_⟩
      rintro (h | h)
      · exact absurd (h.relative.symm.trans habsolute') Bool.false_ne_true
      · exact absurd (h.relative.symm.trans habsolute) Bool.false_ne_true

/-! ## Copies that follow each other -/

/-- After the first files were copied the others are copied as they would be on their own. -/
theorem copyFiles_append_tree (h : copyFiles dir root first t = (.ok paths, u)) :
    (copyFiles dir root (first ++ second) t).2 = (copyFiles dir root second u).2 := by
  induction first generalizing t paths with
  | nil =>
    cases h
    rfl
  | cons f rest ih =>
    obtain ⟨_, v, hparents, h⟩ := bind_eq_ok h
    obtain ⟨_, w, hcopy, h⟩ := bind_eq_ok h
    obtain ⟨others, _, hothers, h⟩ := bind_eq_ok h
    cases h
    rw [List.cons_append, copyFiles, bind_run_ok hparents, bind_run_ok hcopy, bind_pure_tree]
    exact ih hothers

/-- A file that was copied is where its name says. -/
theorem exists_file_of_copyFiles (h : copyFiles dir root (first ++ [f]) t = (.ok paths, u)) :
    ∃ bytes, u.find? (u.location (f.target root)) = some (.file bytes) := by
  induction first generalizing t paths with
  | nil =>
    obtain ⟨_, v, hparents, h⟩ := bind_eq_ok h
    obtain ⟨_, w, hcopy, h⟩ := bind_eq_ok h
    obtain ⟨others, _, hothers, h⟩ := bind_eq_ok h
    cases h
    cases hothers
    obtain ⟨_, emptied, contents, _, _, _, hwritten⟩ := copy_eq_ok hcopy
    refine ⟨contents, ?_⟩
    rw [FileTree.location_congr hwritten.grows.here]
    exact hwritten.find?_self
  | cons g rest ih =>
    obtain ⟨_, v, hparents, h⟩ := bind_eq_ok h
    obtain ⟨_, w, hcopy, h⟩ := bind_eq_ok h
    obtain ⟨others, _, hothers, h⟩ := bind_eq_ok h
    cases h
    exact ih hothers

/-- A copied file stays while others are copied that belong elsewhere. -/
theorem find?_copyFiles {bytes : ByteArray} (sound : ∀ g ∈ placed, g.Sound)
    (copied : t.find? (t.location (f.target root)) = some (.file bytes))
    (elsewhere : ∀ g ∈ placed, t.location (f.target root) ≠ t.location (g.target root)) :
    (copyFiles dir root placed t).2.find? (t.location (f.target root)) = some (.file bytes) := by
  have honly : Only (CheckoutRule root (placed.map PlacedFile.file)) (copyFiles dir root placed) :=
    only_copyFiles fun g hg => ⟨sound g hg, List.mem_map_of_mem hg⟩
  refine (checkedOutWithin_of_becomes (honly t)).kept _ _ copied fun file hfile _ heq => ?_
  obtain ⟨g, hg, rfl⟩ := List.mem_map.mp hfile
  rw [← (sound g hg).location_target] at heq
  exact elsewhere g hg heq

/-! ## Checking out -/

/-- Two files of a snapshot are copied to one place exactly if their names coincide. What a file was
copied as stays while the rest of the snapshot is checked out, also if that fails, unless its name
coincides with that of a file after it. -/
theorem copied_files_stay (root : String) (listed : listedEntry out index t = .ok entry)
    (shape : DirectoryName.isValid entry.dir) (placing : placeFiles entry.files = .ok placed) :
    (∀ (i j : Nat) (f g : PlacedFile), i < j → placed[i]? = some f → placed[j]? = some g →
      (t.location (f.target root) = t.location (g.target root) ↔
        Coincide t root f.file g.file ∨ Coincide t root g.file f.file)) ∧
    ∀ before f after paths u, placed = before ++ f :: after →
      copyFiles (Path.join out entry.dir) root (before ++ [f]) t = (.ok paths, u) →
      (∀ g ∈ after, ¬ (Coincide t root f.file g.file ∨ Coincide t root g.file f.file)) →
      ∃ bytes, u.find? (t.location (f.target root)) = some (.file bytes) ∧
        (checkoutSnapshot out index root t).2.find? (t.location (f.target root)) =
          some (.file bytes) := by
  obtain ⟨_, hsound, hdistinct⟩ := placeFiles_eq_ok placing
  have hparts := PlacedFile.nodup_parts hsound hdistinct
  refine ⟨fun i j f g hlt hf hg => ?_, fun before f after paths u hplaced hcopied happart => ?_⟩
  · refine (hsound f (List.mem_of_getElem? hf)).location_target_eq_iff
      (hsound g (List.mem_of_getElem? hg)) ?_
    have hlength : j < (placed.map fun f => Path.parts f.file).length := by
      rw [List.length_map]
      exact (List.getElem?_eq_some_iff.mp hg).1
    have hne := List.nodup_iff_getElem?_ne_getElem?.mp hparts i j hlt hlength
    rw [List.getElem?_map, List.getElem?_map, hf, hg] at hne
    exact fun heq => hne (congrArg some heq)
  · subst hplaced
    rw [List.append_cons, List.forall_mem_append] at hsound
    obtain ⟨hsoundFirst, hsoundAfter⟩ := hsound
    rw [List.map_append, List.map_cons, List.nodup_append] at hparts
    -- The files up to this one are copied, then those after it, which have other targets.
    have honly : Only (CheckoutRule root ((before ++ [f]).map PlacedFile.file))
        (copyFiles (Path.join out entry.dir) root (before ++ [f])) :=
      only_copyFiles fun g hg => ⟨hsoundFirst g hg, List.mem_map_of_mem hg⟩
    have hhere := (honly.becomes hcopied).here
    obtain ⟨bytes, hbytes⟩ := exists_file_of_copyFiles hcopied
    rw [checkoutSnapshot_of_listed root listed shape placing, mapError_tree, List.append_cons,
      copyFiles_append_tree hcopied, ← FileTree.location_congr hhere]
    refine ⟨bytes, hbytes, find?_copyFiles hsoundAfter hbytes fun g hg heq => ?_⟩
    have hne : Path.parts f.file ≠ Path.parts g.file := by
      intro hsame
      exact (List.nodup_cons.mp hparts.2.1).1 (List.mem_map.mpr ⟨g, hg, hsame.symm⟩)
    have hf : f.Sound := hsoundFirst f (List.mem_append_right _ List.mem_cons_self)
    rw [FileTree.location_congr hhere, FileTree.location_congr hhere,
      hf.location_target_eq_iff (hsoundAfter g hg) hne] at heq
    exact happart g hg heq

/-- A result with two files of one name, once absolute and once as seen from the directory `/r`. -/
def mixedNames : JobResult :=
  ⟨["t"], [⟨[("/r/a", ⟨#[1]⟩), ("a", ⟨#[2]⟩)]⟩, ⟨[("/r/a", ⟨#[1]⟩), ("a", ⟨#[2]⟩)]⟩]⟩

/-- The entry of its first snapshot. -/
def mixedEntry : ManifestEntry := ⟨0, "t", "000-t", ["/r/a", "a"]⟩

/-- The places of the files of that snapshot. -/
def mixedPlaces : List PlacedFile := [⟨"/r/a", "r/a"⟩, ⟨"a", "a"⟩]

/-- The tree that keeps both snapshots in the directory `o`. -/
def keptMixed : FileTree := (writeSnapshots "o" "p" .hardcoded mixedNames .empty).2

theorem writeSnapshots_mixedNames : writeSnapshots "o" "p" .hardcoded mixedNames .empty =
    (.ok (Manifest.describe "p" .hardcoded mixedNames), keptMixed) := by
  unfold keptMixed
  refine eq_of_toOption ?_
  decide +kernel

theorem placeFiles_mixedEntry : placeFiles mixedEntry.files = .ok mixedPlaces := by decide +kernel

theorem listedEntry_mixedEntry : listedEntry "o" 0 keptMixed = .ok mixedEntry := by
  have hkept := (kept_of_writeSnapshots writeSnapshots_mixedNames).2.2
  have hfound : keptMixed.locate (Manifest.path "o") = .ok ["o", "manifest.json"] := by
    decide +kernel
  exact hkept.listedEntry (by decide +kernel) hfound (by decide +kernel)

/-- Over a working tree elsewhere the file with the absolute name stays as it was copied. -/
theorem copied_files_stay_mixedNames :
    listedEntry "o" 0 keptMixed = .ok mixedEntry ∧ DirectoryName.isValid mixedEntry.dir ∧
    placeFiles mixedEntry.files = .ok mixedPlaces ∧
    ∃ bytes, (checkoutSnapshot "o" 0 "w" keptMixed).2.find? ["r", "a"] = some (.file bytes) := by
  have hshape : DirectoryName.isValid mixedEntry.dir := by decide
  refine ⟨listedEntry_mixedEntry, hshape, placeFiles_mixedEntry, ?_⟩
  obtain ⟨_, hstays⟩ := copied_files_stay "w" listedEntry_mixedEntry hshape placeFiles_mixedEntry
  have hcopied : copyFiles (Path.join "o" "000-t") "w" ([] ++ [⟨"/r/a", "r/a"⟩]) keptMixed =
      (.ok ["/r/a"], (copyFiles (Path.join "o" "000-t") "w" [⟨"/r/a", "r/a"⟩] keptMixed).2) := by
    refine eq_of_toOption ?_
    decide +kernel
  have hlocation : keptMixed.location "w" = ["w"] := by decide +kernel
  have happart : ∀ g ∈ [(⟨"a", "a"⟩ : PlacedFile)],
      ¬ (Coincide keptMixed "w" "/r/a" g.file ∨ Coincide keptMixed "w" g.file "/r/a") := by
    refine List.forall_mem_singleton.mpr ?_
    rintro (h | h)
    · have hparts := h.parts
      rw [hlocation] at hparts
      exact absurd hparts (by decide)
    · exact absurd h.absolute (by decide)
  obtain ⟨bytes, _, hbytes⟩ := hstays [] ⟨"/r/a", "r/a"⟩ [⟨"a", "a"⟩] _ _ rfl hcopied happart
  exact ⟨bytes, hbytes⟩

/-- Over the working tree `/r` both files are copied to one place, and only the second one is there
in the end, though each has a place of its own in the output directory. -/
theorem coinciding_overwritten :
    listedEntry "o" 0 keptMixed = .ok mixedEntry ∧ placeFiles mixedEntry.files = .ok mixedPlaces ∧
    (∃ t', checkoutSnapshot "o" 0 "/r" keptMixed = (.ok ["/r/a", "/r/a"], t') ∧
      t'.read "/r/a" = .ok ⟨#[2]⟩) ∧
    ¬ ∀ t out index root paths t', checkoutSnapshot out index root t = (.ok paths, t') →
      (paths.map t.location).Nodup := by
  have hcopied : copyFiles (Path.join "o" mixedEntry.dir) "/r" mixedPlaces keptMixed =
      (.ok ["/r/a", "/r/a"],
        (copyFiles (Path.join "o" mixedEntry.dir) "/r" mixedPlaces keptMixed).2) := by
    refine eq_of_toOption ?_
    decide +kernel
  have hrun :=
    checkoutSnapshot_of_listed "/r" listedEntry_mixedEntry (by decide) placeFiles_mixedEntry
  rw [mapError_run_ok hcopied] at hrun
  refine ⟨listedEntry_mixedEntry, placeFiles_mixedEntry, ⟨_, hrun, by decide +kernel⟩,
    fun hdistinct => ?_⟩
  have hnodup := hdistinct _ _ _ _ _ _ hrun
  rw [List.map_cons, List.nodup_cons] at hnodup
  exact hnodup.1 List.mem_cons_self

end CoverageReplay
