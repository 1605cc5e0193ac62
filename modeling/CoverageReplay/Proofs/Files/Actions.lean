import CoverageReplay.Files.Action
import CoverageReplay.Proofs.Files.Locations

/-!
# What actions on files do

An action that is made of others does what they do, one after the other, up to the first that fails
(`FileAction.bind_run`). Of the actions that change files, each does one thing or leaves the tree as
it is: writing puts one file in the place of its path (`write_run`), and removing drops one location
(`removeDirectory_run`). A file that was written is where its path leads (`Written.locate`), and a
copy that lies elsewhere has the contents of its source (`copied`).
-/

namespace CoverageReplay

variable {ε ε' α β : Type} {t t' : FileTree} {l : Location} {path source target : String}
    {contents : ByteArray}

namespace FileAction

/-! ## One after the other -/

@[simp] theorem throw_run (e : ε) (t : FileTree) : (throw e : FileAction ε α) t = (.error e, t) :=
  rfl

@[simp] theorem get_run (t : FileTree) : (get : FileAction ε FileTree) t = (.ok t, t) := rfl

@[simp] theorem modify_run (f : FileTree → FileTree) (t : FileTree) :
    (modify f : FileAction ε PUnit) t = (.ok ⟨⟩, f t) := rfl

theorem look_run_ok {f : FileTree → Except ε α} {v : α} (h : f t = .ok v) :
    look f t = (.ok v, t) := by
  rw [look, h]

theorem look_run_error {f : FileTree → Except ε α} {e : ε} (h : f t = .error e) :
    look f t = (.error e, t) := by
  rw [look, h]

theorem look_eq_ok {f : FileTree → Except ε α} {v : α} (h : look f t = (.ok v, t')) :
    f t = .ok v ∧ t = t' := by
  injection h with hv ht
  exact ⟨hv, ht⟩

@[simp] theorem ofExcept_run_ok (v : α) (t : FileTree) :
    (ofExcept (.ok v) : FileAction ε α) t = (.ok v, t) := rfl

theorem ofExcept_eq_ok {e : Except ε α} {v : α} (h : ofExcept e t = (.ok v, t')) :
    e = .ok v ∧ t = t' := by
  injection h with hv ht
  exact ⟨hv, ht⟩

/-- The second of two actions works on what the first one leaves, unless that fails. -/
theorem bind_run (a : FileAction ε α) (f : α → FileAction ε β) (t : FileTree) :
    (a >>= f) t = match a t with
      | (.ok v, t') => f v t'
      | (.error e, t') => (.error e, t') := by
  show (match a t with | (r, t') => ExceptT.bindCont f r t') = _
  cases a t with
  | mk r t' =>
    cases r with
    | error => rfl
    | ok => rfl

theorem bind_run_ok {a : FileAction ε α} {f : α → FileAction ε β} {v : α} (h : a t = (.ok v, t')) :
    (a >>= f) t = f v t' := by
  rw [bind_run, h]

theorem bind_run_error {a : FileAction ε α} {f : α → FileAction ε β} {e : ε}
    (h : a t = (.error e, t')) :
    (a >>= f) t = (.error e, t') := by
  rw [bind_run, h]

/-- A run that gives a value is that value with the tree after it. -/
theorem eq_of_toOption {r : Except ε α × FileTree} {v : α} (h : r.1.toOption = some v) :
    r = (.ok v, r.2) := by
  obtain ⟨o, t'⟩ := r
  cases o with
  | error e => cases h
  | ok w =>
    cases h
    rfl

/-- What is made of two actions succeeds if both do. -/
theorem bind_eq_ok {a : FileAction ε α} {f : α → FileAction ε β} {w : β} {t'' : FileTree}
    (h : (a >>= f) t = (.ok w, t'')) : ∃ v t', a t = (.ok v, t') ∧ f v t' = (.ok w, t'') := by
  rw [bind_run] at h
  split at h
  next v t' hfirst => exact ⟨v, t', hfirst, h⟩
  next => cases h

/-- An action leaves the tree that it leaves, whatever is made of its value. -/
theorem bind_pure_tree (a : FileAction ε α) (f : α → β) (t : FileTree) :
    ((a >>= fun v => pure (f v)) t).2 = (a t).2 := by
  rw [bind_run]
  cases a t with
  | mk outcome t' =>
    cases outcome with
    | error => rfl
    | ok => rfl

/-- An action leaves the tree that it leaves, whatever its failures are read as. -/
theorem mapError_tree (f : ε → ε') (a : FileAction ε α) (t : FileTree) :
    (mapError f a t).2 = (a t).2 := by
  unfold mapError
  cases a t with
  | mk outcome t' =>
    cases outcome with
    | error => rfl
    | ok => rfl

/-- An action that succeeds does so however its failures are read. -/
theorem mapError_run_ok {f : ε → ε'} {a : FileAction ε α} {v : α} (h : a t = (.ok v, t')) :
    mapError f a t = (.ok v, t') := by
  unfold mapError
  rw [h]

/-- However failures are read, what succeeds is the action itself. -/
theorem mapError_eq_ok {f : ε → ε'} {a : FileAction ε α} {v : α}
    (h : mapError f a t = (.ok v, t')) :
    a t = (.ok v, t') := by
  unfold mapError at h
  split at h
  next w t₁ hrun =>
    rw [hrun]
    injection h with hw ht
    injection hw with hw
    rw [hw, ht]
  next => cases h

/-! ## Writing -/

/-- Whether a tree is another with a file written: the path has a place, where no directory is, and
the file is put there. -/
structure Written (t : FileTree) (path : String) (contents : ByteArray) (t' : FileTree) : Prop where
  place : t.place path = .ok (t.location path)
  file : t.find? (t.location path) ≠ some .directory
  names : Path.namesDirectory path = false
  tree : t' = t.set (t.location path) (.file contents)

/-- Writing either fails and leaves the tree as it is or writes the file. -/
theorem write_run (path : String) (contents : ByteArray) (t : FileTree) :
    (∃ fault, write path contents t = (.error fault, t)) ∨
      ∃ t', write path contents t = (.ok (), t') ∧ Written t path contents t' := by
  cases hplace : t.place path with
  | error fault => exact .inl ⟨fault, bind_run_error (look_run_error hplace)⟩
  | ok l =>
    have hl := FileTree.place_eq hplace
    subst hl
    have hwritten (hfile : t.find? (t.location path) ≠ some .directory)
      (hnames : ¬ Path.namesDirectory path) :
        Written t path contents (t.set (t.location path) (.file contents)) :=
      ⟨hplace, hfile, by simpa using hnames, rfl⟩
    unfold write
    rw [bind_run_ok (look_run_ok hplace), bind_run_ok (get_run t)]
    -- The location of the path may hold nothing, a directory or a file; only the first and last can
    -- be written.
    cases hfind : t.find? (t.location path) with
    | none =>
      rw [hfind] at hwritten
      by_cases hnames : Path.namesDirectory path
      · exact .inl ⟨.isDirectory, by simp only [if_pos hnames, throw_run]⟩
      · exact .inr ⟨_, by simp only [if_neg hnames, modify_run], hwritten nofun hnames⟩
    | some e =>
      rw [hfind] at hwritten
      cases e with
      | directory => exact .inl ⟨.isDirectory, throw_run _ t⟩
      | file old =>
        by_cases hnames : Path.namesDirectory path
        · exact .inl ⟨.notDirectory, by simp only [if_pos hnames, throw_run]⟩
        · exact .inr ⟨_, by simp only [if_neg hnames, modify_run], hwritten nofun hnames⟩

/-- A file can be written in every place where no directory is. -/
theorem exists_write (contents : ByteArray) (hplace : t.place path = .ok l)
    (hfile : t.find? l ≠ some .directory) (hnames : Path.namesDirectory path = false) :
    ∃ t', write path contents t = (.ok (), t') := by
  unfold write
  rw [bind_run_ok (look_run_ok hplace), bind_run_ok (get_run t)]
  cases hfind : t.find? l with
  | none =>
    exact ⟨t.set l (.file contents), by
      simp only [hnames, Bool.false_eq_true, if_false, modify_run]⟩
  | some e =>
    cases e with
    | directory => exact absurd hfind hfile
    | file old =>
      exact ⟨t.set l (.file contents), by
        simp only [hnames, Bool.false_eq_true, if_false, modify_run]⟩

/-- What is written is there. -/
theorem write_eq_ok (h : write path contents t = (.ok (), t')) : Written t path contents t' := by
  rcases write_run path contents t with ⟨fault, herror⟩ | ⟨t₁, hrun, hwritten⟩
  · rw [herror] at h
    cases h
  · rw [hrun] at h
    injection h with _ h
    rwa [← h]

namespace Written

variable (h : Written t path contents t')

include h

/-- A file is never written at the root. -/
theorem ne_nil : t.location path ≠ [] := by
  intro hroot
  have hfile := h.file
  rw [hroot] at hfile
  exact hfile (FileTree.find?_nil t)

theorem grows : FileTree.Grows t t' := by
  rw [h.tree]
  exact FileTree.grows_set_file contents h.file

/-- The file is there. -/
theorem find?_self : t'.find? (t.location path) = some (.file contents) := by
  rw [h.tree]
  exact FileTree.find?_set_self _ h.ne_nil

/-- Nothing else is different. -/
theorem find?_of_ne (hne : t.location path ≠ l) : t'.find? l = t.find? l := by
  rw [h.tree]
  exact FileTree.find?_set_of_ne _ hne

theorem locate : t'.locate path = .ok (t.location path) := by
  rw [h.tree]
  exact FileTree.locate_set_file contents h.place h.file h.names

end Written

/-! ## Removing -/

/-- Removing either fails and leaves the tree as it is or drops what the path leads to. -/
theorem removeDirectory_run (path : String) (t : FileTree) :
    (∃ fault, removeDirectory path t = (.error fault, t)) ∨
      removeDirectory path t = (.ok (), t.drop (t.location path)) := by
  cases hlocate : t.locate path with
  | error fault => exact .inl ⟨fault, bind_run_error (look_run_error hlocate)⟩
  | ok l =>
    right
    unfold removeDirectory
    rw [bind_run_ok (look_run_ok hlocate), modify_run, ← FileTree.locate_eq hlocate]

/-! ## Copying -/

/-- A copy succeeds if the source is a file, the target can be written, and the source can still be
read once the target is empty. -/
theorem copy_eq_ok (h : copy source target t = (.ok (), t')) :
    ∃ old emptied contents, t.find? (t.location source) = some (.file old) ∧
      Written t target .empty emptied ∧
      emptied.find? (t.location source) = some (.file contents) ∧
      Written emptied target contents t' := by
  unfold copy at h
  obtain ⟨l, _, hlook, hrest⟩ := bind_eq_ok h
  obtain ⟨hlocate, rfl⟩ := look_eq_ok hlook
  rw [bind_run_ok (get_run _)] at hrest
  cases hfind : t.find? l with
  | none =>
    rw [hfind] at hrest
    cases hrest
  | some e =>
    rw [hfind] at hrest
    cases e with
    | directory => cases hrest
    | file old =>
      obtain ⟨_, emptied, hempty, hcopy⟩ := bind_eq_ok hrest
      obtain ⟨contents, _, hlook, hwrite⟩ := bind_eq_ok hcopy
      obtain ⟨hread, rfl⟩ := look_eq_ok hlook
      have hemptied := write_eq_ok hempty
      rw [FileTree.locate_eq hlocate] at hfind
      refine ⟨old, emptied, contents, hfind, hemptied, ?_, write_eq_ok hwrite⟩
      rw [← FileTree.location_congr hemptied.grows.here]
      exact FileTree.find?_of_read hread

/-- A copy that lies elsewhere has the contents of its source. -/
theorem copied (h : copy source target t = (.ok (), t'))
    (hne : t.location target ≠ t.location source)
    (hsource : t.find? (t.location source) = some (.file contents)) :
    t'.locate target = .ok (t.location target) ∧
    t'.find? (t.location target) = some (.file contents) := by
  obtain ⟨_, emptied, found, _, hempty, hfound, hwritten⟩ := copy_eq_ok h
  rw [hempty.find?_of_ne hne, hsource, Option.some.injEq, FileEntry.file.injEq] at hfound
  subst hfound
  rw [← FileTree.location_congr hempty.grows.here]
  exact ⟨hwritten.locate, hwritten.find?_self⟩

end FileAction

end CoverageReplay
