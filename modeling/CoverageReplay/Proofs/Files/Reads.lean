import CoverageReplay.Proofs.Files.Actions

/-!
# Which files an action reads

An action reads only some files if it does the same to every two trees that have the same files and
directories at the same locations and the same contents in those files (`FileTree.AgreeOn`). Doing
the same means to have the same outcome and to make the same changes (`Alike`). Resolving paths,
making directories and writing read no file at all; copying reads its source (`Alike.copy`).
-/

namespace CoverageReplay

variable {ε ε' α β : Type} {t t' u u' : FileTree} {l : Location} {names : List String}
variable {path source target : String} {seen : Location → Prop}

/-- Whether an entry is a file. -/
def FileEntry.isFile : FileEntry → Bool
  | .file _ => true
  | .directory => false

namespace FileTree

/-- Whether two trees have files and directories at the same locations, and at those that are seen
with the same contents. -/
structure AgreeOn (seen : Location → Prop) (t u : FileTree) : Prop where
  here : t.here = u.here
  kinds : ∀ l, (t.find? l).map FileEntry.isFile = (u.find? l).map FileEntry.isFile
  contents : ∀ l, seen l → t.find? l = u.find? l

namespace AgreeOn

variable (h : AgreeOn seen t u)

include h

/-- Both trees have nothing at a location, both have a directory there, or both have a file. -/
theorem find?_cases (l : Location) : (t.find? l = none ∧ u.find? l = none) ∨
    (t.find? l = some .directory ∧ u.find? l = some .directory) ∨
    ∃ a b, t.find? l = some (.file a) ∧ u.find? l = some (.file b) := by
  have hkind := h.kinds l
  cases ht : t.find? l with
  | none =>
    rw [ht] at hkind
    exact .inl ⟨rfl, Option.map_eq_none_iff.mp hkind.symm⟩
  | some e =>
    rw [ht] at hkind
    obtain ⟨e', hu, hsame⟩ := Option.map_eq_some_iff.mp hkind.symm
    cases e with
    | directory =>
      cases e' with
      | directory => exact .inr (.inl ⟨rfl, hu⟩)
      | file => cases hsame
    | file a =>
      cases e' with
      | directory => cases hsame
      | file b => exact .inr (.inr ⟨a, b, rfl, hu⟩)

/-- Trees that agree have the same directories. -/
theorem isDirectoryAt (l : Location) : t.isDirectoryAt l = u.isDirectoryAt l := by
  unfold FileTree.isDirectoryAt
  rcases h.find?_cases l with ⟨ht, hu⟩ | ⟨ht, hu⟩ | ⟨_, _, ht, hu⟩
  · rw [ht, hu]
  · rw [ht, hu]
  · simp [ht, hu]

theorem base (path : String) : t.base path = u.base path := base_congr h.here path

/-- In trees that agree the same ways can be walked. -/
theorem walk (l : Location) (names : List String) : t.walk l names = u.walk l names := by
  induction names generalizing l with
  | nil => rfl
  | cons name names ih =>
    rw [FileTree.walk, FileTree.walk, h.isDirectoryAt l]
    congr 1
    cases FileTree.step l name with
    | error fault => rfl
    | ok next =>
      rw [ok_bind, ok_bind]
      rcases h.find?_cases next with ⟨ht, hu⟩ | ⟨ht, hu⟩ | ⟨_, _, ht, hu⟩
      · rw [ht, hu]
      · rw [ht, hu]
        exact ih next
      · rw [ht, hu]
        exact ih next

/-- In trees that agree a path locates the same. -/
theorem locate (path : String) : t.locate path = u.locate path := by
  unfold FileTree.locate
  rw [h.base, h.walk]
  congr 1
  funext _
  congr 1
  funext l
  rw [h.isDirectoryAt l]

/-- In trees that agree a file can be written in the same places. -/
theorem place (path : String) : t.place path = u.place path := by
  unfold FileTree.place
  simp only
  rw [h.base, h.walk]
  congr 1
  funext _
  congr 1
  funext l
  rw [h.isDirectoryAt l]

/-- A file at a location that is seen is read with the same outcome. -/
theorem read (hseen : seen (t.location path)) : t.read path = u.read path := by
  unfold FileTree.read
  rw [← h.locate]
  cases hlocate : t.locate path with
  | error fault => rfl
  | ok l =>
    have hl := locate_eq hlocate
    subst hl
    rw [ok_bind, ok_bind, h.contents _ hseen]

theorem readText (hseen : seen (t.location path)) : t.readText path = u.readText path := by
  unfold FileTree.readText
  rw [h.read hseen]

/-- The same entry put at a location of both trees leaves them in agreement. -/
theorem set (l : Location) (e : FileEntry) : AgreeOn seen (t.set l e) (u.set l e) := by
  refine ⟨h.here, fun l' => ?_, fun l' hseen => ?_⟩
  · rw [find?_set, find?_set]
    split
    next => rfl
    next => exact h.kinds l'
  · rw [find?_set, find?_set, h.contents l' hseen]

end AgreeOn

end FileTree

open FileTree

/-- Whether two runs, each from its own tree, have the same outcome and make the same changes: at
every location both leave what was there or have the same in the end. -/
structure Alike (seen : Location → Prop) (t u : FileTree) (r s : Except ε α × FileTree) : Prop where
  outcome : r.1 = s.1
  agree : AgreeOn seen r.2 s.2
  here : r.2.here = t.here
  changes : ∀ l, r.2.find? l = s.2.find? l ∨ (r.2.find? l = t.find? l ∧ s.2.find? l = u.find? l)

namespace Alike

open FileAction

/-- Runs that change nothing. -/
theorem unchanged (h : AgreeOn seen t u) (o : Except ε α) : Alike seen t u (o, t) (o, u) :=
  ⟨rfl, h, rfl, fun _ => .inr ⟨rfl, rfl⟩⟩

/-- Runs that put the same entry at a location. -/
theorem set (h : AgreeOn seen t u) (o : Except ε α) (l : Location) (e : FileEntry) :
    Alike seen t u (o, t.set l e) (o, u.set l e) := by
  refine ⟨rfl, h.set l e, rfl, fun l' => ?_⟩
  show (t.set l e).find? l' = (u.set l e).find? l' ∨
    ((t.set l e).find? l' = t.find? l' ∧ (u.set l e).find? l' = u.find? l')
  rw [find?_set, find?_set]
  split
  next => exact .inl rfl
  next => exact .inr ⟨rfl, rfl⟩

/-- Runs go on alike if they go on alike from trees that agree. -/
theorem bind {a : FileAction ε α} {f : α → FileAction ε β} (h : Alike seen t u (a t) (a u))
    (rest : ∀ v t' u', AgreeOn seen t' u' → t'.here = t.here → Alike seen t' u' (f v t') (f v u')) :
    Alike seen t u ((a >>= f) t) ((a >>= f) u) := by
  rw [bind_run, bind_run]
  obtain ⟨houtcome, hagree, hhere, hchanges⟩ := h
  cases ha : a t with
  | mk r t' =>
    cases hb : a u with
    | mk s u' =>
      rw [ha, hb] at houtcome hagree hchanges
      rw [ha] at hhere
      simp only at houtcome hagree hchanges hhere
      subst houtcome
      cases r with
      | error e => exact ⟨rfl, hagree, hhere, hchanges⟩
      | ok v =>
        obtain ⟨houtcome', hagree', hhere', hchanges'⟩ := rest v t' u' hagree hhere
        refine ⟨houtcome', hagree', hhere'.trans hhere, fun l => ?_⟩
        rcases hchanges' l with heq | ⟨ht, hu⟩
        · exact .inl heq
        · rcases hchanges l with heq | ⟨ht', hu'⟩
          · exact .inl (by rw [ht, hu, heq])
          · exact .inr ⟨ht.trans ht', hu.trans hu'⟩

/-- Runs go on alike from a value that is known before. -/
theorem ofExcept_bind (h : AgreeOn seen t u) {e : Except ε α} {f : α → FileAction ε β}
    (rest : ∀ v, e = .ok v → Alike seen t u (f v t) (f v u)) :
    Alike seen t u ((ofExcept e >>= f) t) ((ofExcept e >>= f) u) := by
  cases e with
  | error e => exact unchanged h _
  | ok v =>
    rw [bind_run_ok (ofExcept_run_ok v t), bind_run_ok (ofExcept_run_ok v u)]
    exact rest v rfl

/-- Failures that are alike are alike however they are read. -/
theorem mapError {a : FileAction ε α} (h : Alike seen t u (a t) (a u)) (f : ε → ε') :
    Alike seen t u (mapError f a t) (mapError f a u) := by
  have hrun (v : FileTree) : FileAction.mapError f a v = ((a v).1.mapError f, (a v).2) := by
    unfold FileAction.mapError
    cases a v with
    | mk r v' =>
      cases r with
      | error => rfl
      | ok => rfl
  rw [hrun, hrun]
  exact ⟨congrArg (Except.mapError f) h.outcome, h.agree, h.here, h.changes⟩

/-- Looking is alike if what is found is. -/
theorem look (h : AgreeOn seen t u) {f : FileTree → Except ε α} (same : f t = f u) :
    Alike seen t u (look f t) (look f u) := by
  unfold FileAction.look
  rw [same]
  exact unchanged h _

/-! ## Actions that read no file -/

/-- Directories are made alike in trees that agree. -/
theorem makeDirectoriesFrom (h : AgreeOn seen t u) (l : Location) (names : List String) :
    Alike seen t u (makeDirectoriesFrom l names t) (makeDirectoriesFrom l names u) := by
  induction names generalizing l t u with
  | nil => exact unchanged h _
  | cons name rest ih =>
    unfold FileAction.makeDirectoriesFrom
    refine bind (unchanged h _) fun next t' u' h' _ => ?_
    rw [bind_run_ok (get_run t'), bind_run_ok (get_run u')]
    rcases h'.find?_cases next with ⟨ht, hu⟩ | ⟨ht, hu⟩ | ⟨_, _, ht, hu⟩
    · rw [ht, hu]
      exact bind (set h' _ next .directory) fun _ _ _ h'' _ => ih h'' next
    · rw [ht, hu]
      exact ih h' next
    · rw [ht, hu]
      exact unchanged h' _

/-- The directories above a path are made alike in trees that agree. -/
theorem makeParents (h : AgreeOn seen t u) (path : String) :
    Alike seen t u (makeParents path t) (makeParents path u) := by
  unfold FileAction.makeParents FileAction.makeDirectoriesAlong
  split
  next => exact unchanged h _
  next =>
    rw [bind_run_ok (get_run t), bind_run_ok (get_run u), ← h.base]
    exact makeDirectoriesFrom h _ _

/-- Files are written alike in trees that agree. -/
theorem write (h : AgreeOn seen t u) (path : String) (contents : ByteArray) :
    Alike seen t u (write path contents t) (write path contents u) := by
  unfold FileAction.write
  refine bind (look h (h.place path)) fun l t' u' h' _ => ?_
  rw [bind_run_ok (get_run t'), bind_run_ok (get_run u')]
  have hput (fault : FileFault) :
      Alike seen t' u' ((if Path.namesDirectory path then throw fault
          else modify fun v => v.set l (.file contents) : FileAction FileFault Unit) t')
        ((if Path.namesDirectory path then throw fault
          else modify fun v => v.set l (.file contents) : FileAction FileFault Unit) u') := by
    split
    next => exact unchanged h' _
    next => exact set h' _ l _
  rcases h'.find?_cases l with ⟨ht, hu⟩ | ⟨ht, hu⟩ | ⟨_, _, ht, hu⟩
  · rw [ht, hu]
    exact hput _
  · rw [ht, hu]
    exact unchanged h' _
  · rw [ht, hu]
    exact hput _

/-! ## Copying -/

/-- Copying reads its source. -/
theorem copy (h : AgreeOn seen t u) (source target : String) (hseen : seen (t.location source)) :
    Alike seen t u (copy source target t) (copy source target u) := by
  unfold FileAction.copy
  refine bind (look h (h.locate source)) fun l t' u' h' hhere => ?_
  rw [bind_run_ok (get_run t'), bind_run_ok (get_run u')]
  rcases h'.find?_cases l with ⟨ht, hu⟩ | ⟨ht, hu⟩ | ⟨_, _, ht, hu⟩
  · rw [ht, hu]
    exact unchanged h' _
  · rw [ht, hu]
    exact unchanged h' _
  · rw [ht, hu]
    refine bind (write h' target .empty) fun _ t₁ u₁ h₁ hhere₁ => ?_
    refine bind (look h₁ (h₁.read ?_)) fun contents _ _ h₂ _ => write h₂ target contents
    rwa [location_congr (hhere₁.trans hhere)]

end Alike

end CoverageReplay
