import CoverageReplay.Files.Tree
import CoverageReplay.Proofs.Except
import CoverageReplay.Proofs.Files.Paths
import CoverageReplay.Proofs.SortedMap

/-!
# Where paths lead

Without links, where a path leads is a matter of its text: names lead downwards and two dots lead
upwards, whatever the tree holds. The tree only decides whether the way can be gone. So each way of
resolving a path that succeeds gives `FileTree.location` of that path (`locate_eq`, `place_eq`), and
the location of a relative path seen from a directory goes on from the location of that directory
(`location_join`).

A way that can be gone once can be gone later, as long as no directory and no file on it went away
(`Grows.locate`).
-/

namespace CoverageReplay

variable {t t' : FileTree} {l l' : Location} {names : List String} {name path base : String}

/-- Where a name leads from a location. -/
def Location.follow (l : Location) (name : String) : Location :=
  if name = ".." then l.dropLast else l ++ [name]

/-- Where names lead from a location, one after the other. -/
def Location.along (l : Location) (names : List String) : Location := names.foldl follow l

namespace Location

@[simp] theorem along_nil (l : Location) : l.along [] = l := rfl

@[simp] theorem along_cons (l : Location) (name : String) (names : List String) :
    l.along (name :: names) = (l.follow name).along names := rfl

theorem along_append (l : Location) (first second : List String) :
    l.along (first ++ second) = (l.along first).along second := List.foldl_append

/-- Names that do not lead upwards lead below where they start. -/
theorem along_of_notMem (l : Location) (h : ".." ∉ names) : l.along names = l ++ names := by
  induction names generalizing l with
  | nil => rw [along_nil, List.append_nil]
  | cons name names ih =>
    rw [List.mem_cons, not_or] at h
    rw [along_cons, follow, if_neg (Ne.symm h.1), ih _ h.2, List.append_assoc,
      List.singleton_append]

end Location

namespace FileTree

/-- Where a path leads. -/
def location (t : FileTree) (path : String) : Location := (t.base path).along (Path.parts path)

/-! ## What locations hold after a change -/

@[simp] theorem find?_nil (t : FileTree) : t.find? [] = some .directory := rfl

/-- A tree with an entry put at a location holds it there, the root apart, and is as before
elsewhere. -/
theorem find?_set (t : FileTree) (l : Location) (e : FileEntry) (l' : Location) :
    (t.set l e).find? l' = if l = l' ∧ l ≠ [] then some e else t.find? l' := by
  unfold find? set
  rw [SortedMap.get?_insert]
  by_cases heq : l = l'
  · subst heq
    cases l with
    | nil => simp
    | cons => simp
  · simp only [heq, false_and, if_false]

theorem find?_set_of_ne (e : FileEntry) (h : l ≠ l') : (t.set l e).find? l' = t.find? l' := by
  rw [find?_set, if_neg fun hput => h hput.1]

theorem find?_set_self (e : FileEntry) (h : l ≠ []) : (t.set l e).find? l = some e := by
  rw [find?_set, if_pos ⟨rfl, h⟩]

/-- An entry is found among those kept if it is kept. -/
theorem find?_filter {entries : List (Location × FileEntry)} (keep : Location → Bool) :
    SortedMap.find? l (entries.filter fun e => keep e.1) =
      if keep l then SortedMap.find? l entries else none := by
  induction entries with
  | nil => simp [SortedMap.find?]
  | cons e rest ih =>
    obtain ⟨key, entry⟩ := e
    by_cases hkey : key = l
    · subst hkey
      by_cases hkeep : keep key
      · simp [SortedMap.find?, hkeep]
      · simp [hkeep, ih]
    · by_cases hkeep : keep key
      · simp [SortedMap.find?, hkeep, hkey, ih]
      · simp [SortedMap.find?, hkeep, hkey, ih]

/-- Nothing is left at or below a dropped location, the root apart, and elsewhere all stays. -/
theorem find?_drop (t : FileTree) (l l' : Location) :
    (t.drop l).find? l' = if l <+: l' ∧ l' ≠ [] then none else t.find? l' := by
  unfold find? drop
  rw [SortedMap.get?, find?_filter fun other => !l.isPrefixOf other]
  by_cases hbelow : l <+: l'
  · have hdropped : ¬ (!l.isPrefixOf l') = true := by
      rwa [Bool.not_eq_true', Bool.not_eq_false, List.isPrefixOf_iff_prefix]
    rw [if_neg hdropped]
    cases l' with
    | nil => simp [hbelow]
    | cons => simp [hbelow]
  · have hkept : (!l.isPrefixOf l') = true := by
      rwa [Bool.not_eq_true', ← Bool.not_eq_true, List.isPrefixOf_iff_prefix]
    rw [if_pos hkept]
    simp only [hbelow, false_and, if_false, SortedMap.get?]

/-- What is left after a location was dropped is not below it and was there before. -/
theorem find?_drop_eq_some {dropped : Location} {e : FileEntry} (hdropped : dropped ≠ [])
    (h : (t.drop dropped).find? l = some e) : ¬ dropped <+: l ∧ t.find? l = some e := by
  rw [find?_drop] at h
  split at h
  next => cases h
  next hkept =>
    refine ⟨fun hbelow => hkept ⟨hbelow, ?_⟩, h⟩
    rintro rfl
    exact hdropped (List.prefix_nil.mp hbelow)

/-! ## Paths resolved -/

/-- Where a path counts from depends on the working directory alone. -/
theorem base_congr (h : t.here = t'.here) (path : String) : t.base path = t'.base path := by
  unfold FileTree.base
  rw [h]

theorem location_congr (h : t.here = t'.here) (path : String) :
    t.location path = t'.location path := by
  unfold location
  rw [base_congr h]

theorem base_join (relative : Path.isAbsolute path = false) :
    t.base (Path.join base path) = t.base base := by
  unfold FileTree.base
  rw [Path.isAbsolute_join relative]

/-- A relative path seen from a directory leads on from where the directory is. -/
theorem location_join (relative : Path.isAbsolute path = false) :
    t.location (Path.join base path) = (t.location base).along (Path.parts path) := by
  rw [location, base_join relative, Path.parts_join relative, Location.along_append, location]

/-- A step that can be made follows its name. -/
theorem step_eq (h : step l name = .ok l') : l' = l.follow name := by
  unfold step at h
  unfold Location.follow
  split at h
  next hup =>
    injection h with h
    rw [if_pos hup, h]
  next hup =>
    split at h
    next => cases h
    next =>
      injection h with h
      rw [if_neg hup, h]

/-- A step of a walk goes from a directory to something that is there. -/
theorem walk_cons_eq_ok {rest : List String} :
    t.walk l (name :: rest) = .ok l' ↔
      t.isDirectoryAt l ∧
        ∃ next, step l name = .ok next ∧ (t.find? next).isSome ∧ t.walk next rest = .ok l' := by
  rw [walk]
  split
  next hdirectory =>
    rw [bind_eq_ok_iff]
    simp only [hdirectory, true_and]
    refine exists_congr fun next => and_congr_right fun _ => ?_
    cases t.find? next with
    | none => exact ⟨nofun, fun h => nomatch h.1⟩
    | some e => exact ⟨fun hrest => ⟨rfl, hrest⟩, And.right⟩
  next hfile => exact ⟨nofun, fun h => absurd h.1 hfile⟩

/-- A way that can be walked can be walked one step further, if that step can be made. -/
theorem walk_concat {above : Location} (h : t.walk l names = .ok above)
    (hdirectory : t.isDirectoryAt above) (hstep : step above name = .ok l')
    (hfind : (t.find? l').isSome) :
    t.walk l (names ++ [name]) = .ok l' := by
  induction names generalizing l with
  | nil =>
    cases h
    exact walk_cons_eq_ok.mpr ⟨hdirectory, l', hstep, hfind, rfl⟩
  | cons first names ih =>
    obtain ⟨hfirst, next, hnext, hthere, hrest⟩ := walk_cons_eq_ok.mp h
    exact walk_cons_eq_ok.mpr ⟨hfirst, next, hnext, hthere, ih hrest⟩

/-- A way that can be walked leads where its names do. -/
theorem walk_eq (h : t.walk l names = .ok l') : l' = l.along names := by
  induction names generalizing l with
  | nil =>
    rw [walk] at h
    injection h with h
    rw [Location.along_nil, h]
  | cons name names ih =>
    obtain ⟨_, next, hstep, _, hrest⟩ := walk_cons_eq_ok.mp h
    rw [Location.along_cons, ← step_eq hstep]
    exact ih hrest

/-- A way of two parts can be gone if both can. -/
theorem walk_append {first second : List String} :
    t.walk l (first ++ second) = .ok l' ↔
      ∃ mid, t.walk l first = .ok mid ∧ t.walk mid second = .ok l' := by
  induction first generalizing l with
  | nil => exact ⟨fun h => ⟨l, rfl, h⟩, fun ⟨_, hfirst, hsecond⟩ => by cases hfirst; exact hsecond⟩
  | cons name first ih =>
    simp only [List.cons_append, walk_cons_eq_ok, ih]
    constructor
    · rintro ⟨hdirectory, next, hstep, hfind, mid, hfirst, hsecond⟩
      exact ⟨mid, ⟨hdirectory, next, hstep, hfind, hfirst⟩, hsecond⟩
    · rintro ⟨mid, ⟨hdirectory, next, hstep, hfind, hfirst⟩, hsecond⟩
      exact ⟨hdirectory, next, hstep, hfind, mid, hfirst, hsecond⟩

/-- Only what stands along a way decides whether it can be gone. -/
theorem walk_of_same (same : ∀ way, way <+: names → t'.find? (l.along way) = t.find? (l.along way))
    (h : t.walk l names = .ok l') : t'.walk l names = .ok l' := by
  induction names generalizing l with
  | nil => exact h
  | cons name names ih =>
    obtain ⟨hdirectory, next, hstep, hfind, hrest⟩ := walk_cons_eq_ok.mp h
    have hnext := step_eq hstep
    have hhere := same [] List.nil_prefix
    have hthere := same [name] (List.cons_prefix_cons.mpr ⟨rfl, List.nil_prefix⟩)
    rw [Location.along_nil] at hhere
    rw [Location.along_cons, Location.along_nil, ← hnext] at hthere
    refine walk_cons_eq_ok.mpr ⟨?_, next, hstep, by rwa [hthere], ih (fun way hway => ?_) hrest⟩
    · rwa [isDirectoryAt, hhere]
    · have hlater := same (name :: way) (List.cons_prefix_cons.mpr ⟨rfl, hway⟩)
      rwa [Location.along_cons, ← hnext] at hlater

/-- A path can be looked at if it is not empty and has no zero character. -/
theorem checkPath_eq_ok : checkPath path = .ok () ↔ '\x00' ∉ path.toList ∧ path ≠ "" := by
  unfold checkPath
  simp only [List.contains_eq_mem, decide_eq_true_eq]
  split
  next hnul => exact ⟨nofun, fun h => absurd hnul h.1⟩
  next hnul =>
    split
    next hempty => exact ⟨nofun, fun h => absurd hempty h.2⟩
    next hempty => exact ⟨fun _ => ⟨hnul, hempty⟩, fun _ => rfl⟩

/-- A path that leads somewhere is a path, its way can be gone, and if it can only name a directory
it leads to one. -/
theorem locate_eq_ok : t.locate path = .ok l ↔
    checkPath path = .ok () ∧ t.walk (t.base path) (Path.parts path) = .ok l ∧
      (Path.namesDirectory path → t.isDirectoryAt l) := by
  unfold locate
  simp only [bind_eq_ok_iff]
  constructor
  · rintro ⟨_, hcheck, found, hwalk, hfound⟩
    split at hfound
    next => cases hfound
    next hnames =>
      injection hfound with hfound
      subst hfound
      refine ⟨hcheck, hwalk, fun hdirectory => ?_⟩
      simpa [hdirectory] using hnames
  · rintro ⟨hcheck, hwalk, hnames⟩
    refine ⟨(), hcheck, l, hwalk, if_neg ?_⟩
    simpa using hnames

theorem locate_eq (h : t.locate path = .ok l) : l = t.location path :=
  walk_eq (locate_eq_ok.mp h).2.1

/-- A directory is one at the location of its path. -/
theorem isDirectoryAt_of_isDirectory (h : t.isDirectory path) :
    t.isDirectoryAt (t.location path) := by
  unfold isDirectory at h
  split at h
  next l hlocate => rwa [← locate_eq hlocate]
  next => cases h

/-- A path names a directory if it locates one. -/
theorem isDirectory_eq_true :
    t.isDirectory path ↔ ∃ l, t.locate path = .ok l ∧ t.isDirectoryAt l := by
  unfold isDirectory
  cases t.locate path with
  | error fault => exact ⟨nofun, fun ⟨_, h, _⟩ => nomatch h⟩
  | ok l => exact ⟨fun h => ⟨l, rfl, h⟩, fun ⟨_, h, hl⟩ => by cases h; exact hl⟩

/-- What lies below a directory is reached over that directory. -/
theorem isDirectory_of_locate_join (relative : Path.isAbsolute path = false)
    (below : Path.parts path ≠ []) (hbase : base ≠ "")
    (h : t.locate (Path.join base path) = .ok l) : t.isDirectory base := by
  obtain ⟨hcheck, hwalk, _⟩ := locate_eq_ok.mp h
  rw [checkPath_eq_ok] at hcheck
  rw [Path.parts_join relative, base_join relative] at hwalk
  obtain ⟨mid, hfirst, hsecond⟩ := walk_append.mp hwalk
  obtain ⟨name, rest, hparts⟩ := List.exists_cons_of_ne_nil below
  rw [hparts, walk_cons_eq_ok] at hsecond
  have hpath : checkPath base = .ok () :=
    checkPath_eq_ok.mpr ⟨fun hnul => hcheck.1 (Path.mem_join relative hnul), hbase⟩
  exact isDirectory_eq_true.mpr ⟨mid, locate_eq_ok.mpr ⟨hpath, hfirst, fun _ => hsecond.1⟩,
    hsecond.1⟩

/-- A path leads to a directory as long as nothing along its way is different. -/
theorem isDirectory_of_same (here : t'.here = t.here)
    (same : ∀ way, way <+: Path.parts path →
      t'.find? ((t.base path).along way) = t.find? ((t.base path).along way))
    (h : t.isDirectory path) :
    t'.isDirectory path := by
  obtain ⟨l, hlocate, hdirectory⟩ := isDirectory_eq_true.mp h
  obtain ⟨hcheck, hwalk, _⟩ := locate_eq_ok.mp hlocate
  have hend : t'.isDirectoryAt l := by
    have hsame := same (Path.parts path) (List.prefix_refl _)
    rw [← walk_eq hwalk] at hsame
    rwa [isDirectoryAt, hsame]
  refine isDirectory_eq_true.mpr ⟨l, locate_eq_ok.mpr ⟨hcheck, ?_, fun _ => hend⟩, hend⟩
  rw [base_congr here]
  exact walk_of_same same hwalk

/-- What is read is the file that the path leads to. -/
theorem read_eq_ok {contents : ByteArray} :
    t.read path = .ok contents ↔
      ∃ l, t.locate path = .ok l ∧ t.find? l = some (.file contents) := by
  unfold read
  rw [bind_eq_ok_iff]
  refine exists_congr fun l => and_congr_right fun _ => ?_
  split
  next found hfind => rw [hfind, Except.ok.injEq, Option.some.injEq, FileEntry.file.injEq]
  next hnone => exact ⟨nofun, fun h => absurd h (hnone contents)⟩

/-- What is read from a path is the contents of the file there. -/
theorem find?_of_read {contents : ByteArray} (h : t.read path = .ok contents) :
    t.find? (t.location path) = some (.file contents) := by
  obtain ⟨l, hlocate, hfind⟩ := read_eq_ok.mp h
  rwa [← locate_eq hlocate]

/-- What is read as a text is the bytes of that text. -/
theorem readText_eq_ok {text : String} : t.readText path = .ok text ↔
    ∃ contents, t.read path = .ok contents ∧ String.fromUTF8? contents = some text := by
  unfold readText
  rw [bind_eq_ok_iff]
  refine exists_congr fun contents => and_congr_right fun _ => ?_
  split
  next found hfound => rw [hfound, Except.ok.injEq, Option.some.injEq]
  next hnone =>
    rw [hnone]
    exact ⟨nofun, nofun⟩

/-- A path has a place if it is a path, the way to its last part can be gone, and that way ends in a
directory. -/
theorem place_cases (h : t.place path = .ok l) :
    checkPath path = .ok () ∧
      ((Path.parts path = [] ∧ l = t.base path) ∨
        ∃ front name above, Path.parts path = front ++ [name] ∧
          t.walk (t.base path) front = .ok above ∧ t.isDirectoryAt above ∧
          step above name = .ok l) := by
  unfold place at h
  obtain ⟨_, hcheck, h⟩ := bind_eq_ok_iff.mp h
  obtain ⟨above, hwalk, hlast⟩ := bind_eq_ok_iff.mp h
  refine ⟨hcheck, ?_⟩
  rcases List.eq_nil_or_concat (Path.parts path) with hnil | ⟨front, name, hparts⟩
  · rw [hnil] at hwalk hlast
    cases hwalk
    cases hlast
    exact .inl ⟨hnil, rfl⟩
  · rw [List.concat_eq_append] at hparts
    rw [hparts, List.dropLast_concat] at hwalk
    rw [hparts, List.getLast?_concat] at hlast
    simp only at hlast
    split at hlast
    next hdirectory => exact .inr ⟨front, name, above, hparts, hwalk, hdirectory, hlast⟩
    next => cases hlast

/-- The last part of a path to write to stands where the way to it ends. -/
theorem place_eq (h : t.place path = .ok l) : l = t.location path := by
  unfold location
  rcases (place_cases h).2 with ⟨hnil, hl⟩ | ⟨front, name, above, hparts, hwalk, _, hstep⟩
  · rw [hnil, hl, Location.along_nil]
  · rw [hparts, Location.along_append, ← walk_eq hwalk]
    exact step_eq hstep

/-! ## Ways that stay -/

/-- Whether all directories of a tree are directories of another, and all its files still there. -/
structure Grows (t t' : FileTree) : Prop where
  here : t'.here = t.here
  directory : ∀ l, t.isDirectoryAt l → t'.isDirectoryAt l
  present : ∀ l, (t.find? l).isSome → (t'.find? l).isSome

namespace Grows

theorem refl (t : FileTree) : Grows t t := ⟨rfl, fun _ => id, fun _ => id⟩

theorem trans {t'' : FileTree} (h : Grows t t') (h' : Grows t' t'') : Grows t t'' :=
  ⟨h'.here.trans h.here, fun l hl => h'.directory l (h.directory l hl),
    fun l hl => h'.present l (h.present l hl)⟩

/-- Ways that can be walked can still be walked in a tree that has grown. -/
theorem walk (h : Grows t t') (hwalk : t.walk l names = .ok l') : t'.walk l names = .ok l' := by
  induction names generalizing l with
  | nil => exact hwalk
  | cons name names ih =>
    obtain ⟨hdirectory, next, hstep, hfind, hrest⟩ := walk_cons_eq_ok.mp hwalk
    exact walk_cons_eq_ok.mpr ⟨h.directory l hdirectory, next, hstep,
      h.present next hfind, ih hrest⟩

/-- Paths that locate something still do in a tree that has grown. -/
theorem locate (h : Grows t t') (hlocate : t.locate path = .ok l) : t'.locate path = .ok l := by
  obtain ⟨hcheck, hwalk, hnames⟩ := locate_eq_ok.mp hlocate
  refine locate_eq_ok.mpr ⟨hcheck, ?_, fun hdirectory => h.directory l (hnames hdirectory)⟩
  rw [base_congr h.here]
  exact h.walk hwalk

theorem isDirectory (h : Grows t t') (hdirectory : t.isDirectory path) : t'.isDirectory path := by
  obtain ⟨l, hlocate, hl⟩ := isDirectory_eq_true.mp hdirectory
  exact isDirectory_eq_true.mpr ⟨l, h.locate hlocate, h.directory l hl⟩

/-- A text can still be read if its file is still there. -/
theorem readText (h : Grows t t') {text : String}
    (kept : ∀ contents, t.find? (t.location path) = some (.file contents) →
      t'.find? (t.location path) = some (.file contents))
    (hread : t.readText path = .ok text) : t'.readText path = .ok text := by
  obtain ⟨contents, hcontents, htext⟩ := readText_eq_ok.mp hread
  obtain ⟨l, hlocate, hfile⟩ := read_eq_ok.mp hcontents
  obtain rfl := locate_eq hlocate
  exact readText_eq_ok.mpr ⟨contents, read_eq_ok.mpr ⟨_, h.locate hlocate, kept _ hfile⟩, htext⟩

end Grows

/-- A file in a new or an old place leaves all ways open, unless the place is a directory. -/
theorem grows_set_file (contents : ByteArray) (h : t.find? l ≠ some .directory) :
    Grows t (t.set l (.file contents)) := by
  have hroot : l ≠ [] := by
    rintro rfl
    exact h (find?_nil t)
  refine ⟨rfl, fun l' hl' => ?_, fun l' hl' => ?_⟩
  · have hne : l ≠ l' := by
      rintro rfl
      rw [isDirectoryAt, decide_eq_true_eq] at hl'
      exact h hl'
    rwa [isDirectoryAt, find?_set_of_ne _ hne]
  · by_cases heq : l = l'
    · subst heq
      rw [find?_set_self _ hroot]
      rfl
    · rwa [find?_set_of_ne _ heq]

/-- A directory where there was nothing leaves all ways open. -/
theorem grows_set_directory (h : t.find? l = none) : Grows t (t.set l .directory) := by
  refine ⟨rfl, fun l' hl' => ?_, fun l' hl' => ?_⟩
  · have hne : l ≠ l' := by
      rintro rfl
      rw [isDirectoryAt, h] at hl'
      cases hl'
    rwa [isDirectoryAt, find?_set_of_ne _ hne]
  · have hne : l ≠ l' := by
      rintro rfl
      rw [h] at hl'
      cases hl'
    rwa [find?_set_of_ne _ hne]

/-- Once a file is in its place, its path leads there. -/
theorem locate_set_file (contents : ByteArray) (h : t.place path = .ok l)
    (hfile : t.find? l ≠ some .directory) (hnames : Path.namesDirectory path = false) :
    (t.set l (.file contents)).locate path = .ok l := by
  have hgrows := grows_set_file contents hfile
  have hroot : l ≠ [] := by
    rintro rfl
    exact hfile (find?_nil t)
  have hnever (hdirectory : Path.namesDirectory path) :
      (t.set l (.file contents)).isDirectoryAt l :=
    absurd (hnames.symm.trans hdirectory) Bool.false_ne_true
  obtain ⟨hcheck, hplace⟩ := place_cases h
  refine locate_eq_ok.mpr ⟨hcheck, ?_, hnever⟩
  rw [base_congr hgrows.here]
  rcases hplace with ⟨hnil, rfl⟩ | ⟨front, name, above, hparts, hwalk, hdirectory, hstep⟩
  · rw [hnil, walk]
  · have hthere : ((t.set l (.file contents)).find? l).isSome := by
      rw [find?_set_self _ hroot]
      rfl
    rw [hparts]
    exact walk_concat (hgrows.walk hwalk) (hgrows.directory above hdirectory) hstep hthere

end FileTree

end CoverageReplay
