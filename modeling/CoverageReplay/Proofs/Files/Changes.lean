import CoverageReplay.Files.Change
import CoverageReplay.Proofs.Files.Actions
import Mathlib.Logic.Relation

/-!
# Which changes an action may make

A rule says which changes may be made to which trees. `t.Becomes may t'` says that changes which the
rule allows lead from one tree to the other, and `FileAction.Only may a` that an action makes no
other changes, whether it succeeds or fails on the way. An action that is made of others keeps to a
rule if each of them does (`Only.bind`). What is new in a tree was put there by an allowed change
(`Becomes.put_of_find?`), and what is gone was dropped by one (`Becomes.drop_of_find?`).
-/

namespace CoverageReplay

variable {ε ε' α β : Type} {t t' t'' : FileTree} {l : Location} {names : List String}
    {path : String}

/-- A tree with a change made to it. -/
def FileTree.apply (t : FileTree) : FileChange → FileTree
  | .drop l => t.drop l
  | .put l e => t.set l e

/-- Whether a change is made at a location. -/
def FileChange.Touches (l : Location) : FileChange → Prop
  | .drop dropped => dropped <+: l
  | .put changed _ => changed = l

/-- Which changes may be made to which trees. -/
abbrev FileRule := FileTree → FileChange → Prop

namespace FileTree

variable {may may' : FileRule}

/-- A change leaves the working directory. -/
@[simp] theorem here_apply (t : FileTree) (c : FileChange) : (t.apply c).here = t.here := by
  cases c with
  | drop => rfl
  | put => rfl

/-- A change leaves what it does not touch. -/
theorem find?_apply {c : FileChange} (h : ¬ c.Touches l) : (t.apply c).find? l = t.find? l := by
  cases c with
  | drop dropped => rw [apply, find?_drop, if_neg fun hdrop => h hdrop.1]
  | put changed e => exact find?_set_of_ne e h

/-- Whether changes that a rule allows lead from a tree to another. -/
def Becomes (may : FileRule) (t t' : FileTree) : Prop :=
  Relation.ReflTransGen (fun u u' => ∃ c, may u c ∧ u' = u.apply c) t t'

namespace Becomes

theorem refl (t : FileTree) : t.Becomes may t := Relation.ReflTransGen.refl

theorem trans (h : t.Becomes may t') (h' : t'.Becomes may t'') : t.Becomes may t'' :=
  Relation.ReflTransGen.trans h h'

theorem single {c : FileChange} (h : may t c) : t.Becomes may (t.apply c) :=
  Relation.ReflTransGen.single ⟨c, h, rfl⟩

/-- What the allowed changes keep is kept. -/
theorem invariant {P : FileTree → Prop} (h : t.Becomes may t') (start : P t)
    (step : ∀ u c, P u → may u c → P (u.apply c)) : P t' := by
  induction h with
  | refl => exact start
  | tail _ hstep ih =>
    obtain ⟨c, hmay, rfl⟩ := hstep
    exact step _ c ih hmay

/-- The working directory stays. -/
theorem here (h : t.Becomes may t') : t'.here = t.here :=
  h.invariant (P := fun u => u.here = t.here) rfl fun u c hu _ => by rw [here_apply, hu]

/-- A rule may be read with the working directory known. -/
theorem mono (h : t.Becomes may t') (le : ∀ u c, u.here = t.here → may u c → may' u c) :
    t.Becomes may' t' := by
  have hboth : t.Becomes may' t' ∧ t'.here = t.here := by
    refine h.invariant (P := fun u => t.Becomes may' u ∧ u.here = t.here) ⟨refl t, rfl⟩ ?_
    rintro u c ⟨hbecomes, hhere⟩ hmay
    exact ⟨hbecomes.trans (single (le u c hhere hmay)), by rw [here_apply, hhere]⟩
  exact hboth.1

/-- What is there stays, unless an allowed change is made to it. -/
theorem find?_kept (h : t.Becomes may t') {e : FileEntry} (hsome : t.find? l = some e)
    (keep : ∀ u c, u.here = t.here → may u c → u.find? l ≠ none → ¬ c.Touches l) :
    t'.find? l = some e := by
  have hboth : t'.find? l = some e ∧ t'.here = t.here := by
    refine h.invariant (P := fun u => u.find? l = some e ∧ u.here = t.here) ⟨hsome, rfl⟩ ?_
    rintro u c ⟨hfind, hhere⟩ hmay
    have huntouched := keep u c hhere hmay (by rw [hfind]; exact nofun)
    exact ⟨by rw [find?_apply huntouched, hfind], by rw [here_apply, hhere]⟩
  exact hboth.1

/-- What a location holds anew was put there. -/
theorem put_of_find? (h : t.Becomes may t') {e : FileEntry} (hsome : t'.find? l = some e)
    (hne : t.find? l ≠ some e) : ∃ u, t.Becomes may u ∧ may u (.put l e) := by
  induction h with
  | refl => exact absurd hsome hne
  | @tail u _ hbefore hstep ih =>
    obtain ⟨c, hmay, rfl⟩ := hstep
    cases c with
    | drop dropped =>
      rw [apply, find?_drop] at hsome
      split at hsome
      next => cases hsome
      next => exact ih hsome
    | put changed e' =>
      rw [apply, find?_set] at hsome
      split at hsome
      next hput =>
        obtain ⟨rfl, _⟩ := hput
        cases hsome
        exact ⟨u, hbefore, hmay⟩
      next => exact ih hsome

/-- What a location does not hold any more was dropped, there or above. -/
theorem drop_of_find? (h : t.Becomes may t') (hsome : (t.find? l).isSome)
    (hnone : t'.find? l = none) :
    ∃ u dropped, t.Becomes may u ∧ may u (.drop dropped) ∧ dropped <+: l := by
  induction h with
  | refl =>
    rw [hnone] at hsome
    cases hsome
  | @tail u _ hbefore hstep ih =>
    obtain ⟨c, hmay, rfl⟩ := hstep
    cases c with
    | drop dropped =>
      rw [apply, find?_drop] at hnone
      split at hnone
      next hdrop => exact ⟨u, dropped, hbefore, hmay, hdrop.1⟩
      next => exact ih hnone
    | put changed e =>
      rw [apply, find?_set] at hnone
      split at hnone
      next => cases hnone
      next => exact ih hnone

/-- If no allowed change takes a way away, all ways stay. -/
theorem grows (h : t.Becomes may t') (step : ∀ u c, may u c → Grows u (u.apply c)) : Grows t t' :=
  h.invariant (P := Grows t) (Grows.refl t) fun u c hu hmay => hu.trans (step u c hmay)

end Becomes

end FileTree

/-! ## Rules for the actions -/

namespace FileRule

/-- Directories may be made where nothing is, on the way that some names lead from a location. -/
def making (l : Location) (names : List String) : FileRule := fun t c =>
  ∃ way, way <+: names ∧ t.find? (l.along way) = none ∧ c = .put (l.along way) .directory

/-- A file may be put in a location where no directory is. -/
def writing (l : Location) : FileRule := fun t c =>
  t.find? l ≠ some .directory ∧ ∃ contents, c = .put l (.file contents)

/-- Whatever leaves all ways open may be changed. -/
def growing : FileRule := fun t c => FileTree.Grows t (t.apply c)

/-- Longer ways have more directories made on them. -/
theorem making_mono {l : Location} {t : FileTree} {names' : List String} {c : FileChange}
    (shorter : names <+: names') (h : making l names t c) : making l names' t c := by
  obtain ⟨way, hway, hmissing, rfl⟩ := h
  exact ⟨way, hway.trans shorter, hmissing, rfl⟩

/-- Making directories leaves all ways open. -/
theorem growing_of_making {l : Location} {t : FileTree} {c : FileChange} (h : making l names t c) :
    growing t c := by
  obtain ⟨way, _, hmissing, rfl⟩ := h
  exact FileTree.grows_set_directory hmissing

theorem growing_of_writing {l : Location} {t : FileTree} {c : FileChange} (h : writing l t c) :
    growing t c := by
  obtain ⟨hfile, contents, rfl⟩ := h
  exact FileTree.grows_set_file contents hfile

end FileRule

namespace FileAction

open FileRule

variable {may may' : FileRule} {a : FileAction ε α}

/-- Whether an action makes only changes that a rule allows, be it to the end or up to where it
fails. -/
def Only (may : FileRule) (a : FileAction ε α) : Prop :=
  ∀ t : FileTree, t.Becomes may (a t).2

theorem Only.becomes {o : Except ε α} (only : Only may a) (h : a t = (o, t')) :
    t.Becomes may t' := by
  have hbecomes := only t
  rwa [h] at hbecomes

theorem only_pure (v : α) : Only may (pure v : FileAction ε α) := fun t => .refl t

theorem only_throw (e : ε) : Only may (throw e : FileAction ε α) := fun t => .refl t

theorem only_look (f : FileTree → Except ε α) : Only may (look f) := fun t => .refl t

theorem only_get : Only may (get : FileAction ε FileTree) := fun t => .refl t

/-- An action made of others keeps to a rule if each of them does. -/
theorem Only.bind {f : α → FileAction ε β} (h : Only may a) (rest : ∀ v, Only may (f v)) :
    Only may (a >>= f) := by
  intro t
  have hfirst := h t
  rw [bind_run]
  split
  next v t' hrun =>
    rw [hrun] at hfirst
    exact hfirst.trans (rest v t')
  next e t' hrun =>
    rw [hrun] at hfirst
    exact hfirst

/-- What follows a value that is known before only has to keep to the rule for that value. -/
theorem Only.ofExcept_bind {e : Except ε α} {f : α → FileAction ε β}
    (rest : ∀ v, e = .ok v → Only may (f v)) :
    Only may (ofExcept e >>= f) := by
  intro t
  cases e with
  | error e => exact .refl t
  | ok v =>
    rw [bind_run_ok (ofExcept_run_ok v t)]
    exact rest v rfl t

/-- How failures are read does not matter for what an action changes. -/
theorem Only.mapError (h : Only may a) (f : ε → ε') : Only may (mapError f a) := by
  intro t
  have hrun := h t
  unfold FileAction.mapError
  split
  next heq =>
    rw [heq] at hrun
    exact hrun
  next heq =>
    rw [heq] at hrun
    exact hrun

theorem Only.mono (h : Only may a) (le : ∀ u c, may u c → may' u c) : Only may' a :=
  fun t => (h t).mono fun u c _ => le u c

/-- Directories are made on the way, where there is nothing yet. -/
theorem only_makeDirectoriesFrom (l : Location) (names : List String) :
    Only (making l names) (makeDirectoriesFrom l names) := by
  induction names generalizing l with
  | nil => exact only_pure ()
  | cons name rest ih =>
    intro t
    unfold makeDirectoriesFrom
    cases hstep : FileTree.step l name with
    | error fault => exact .refl t
    | ok next =>
      have hnext := FileTree.step_eq hstep
      -- What is made after the first step is on the way of the longer path too.
      have honward (u : FileTree) :
          u.Becomes (making l (name :: rest)) (makeDirectoriesFrom next rest u).2 := by
        refine (ih next u).mono ?_
        rintro v c - ⟨way, hway, hnone, rfl⟩
        have halong : l.along (name :: way) = next.along way := by rw [Location.along_cons, ← hnext]
        exact ⟨name :: way, List.cons_prefix_cons.mpr ⟨rfl, hway⟩, by rwa [halong], by rw [halong]⟩
      rw [bind_run_ok (ofExcept_run_ok next t), bind_run_ok (get_run t)]
      cases hfind : t.find? next with
      | none =>
        refine .trans (.single (c := .put next .directory) ⟨[name], ?_, ?_, ?_⟩) (honward _)
        · exact List.cons_prefix_cons.mpr ⟨rfl, List.nil_prefix⟩
        · rw [Location.along_cons, Location.along_nil, ← hnext, hfind]
        · rw [Location.along_cons, Location.along_nil, ← hnext]
      | some e =>
        cases e with
        | directory => exact honward t
        | file contents => exact .refl t

/-- Directories are made on the way that the names lead from the base of a path. -/
theorem only_makeDirectoriesAlong (path : String) (names : List String) :
    Only (fun u => making (u.base path) names u) (makeDirectoriesAlong path names) := by
  intro t
  unfold makeDirectoriesAlong
  split
  next => exact .refl t
  next =>
    refine (only_makeDirectoriesFrom (t.base path) names t).mono fun u c hhere hmay => ?_
    rwa [FileTree.base_congr hhere]

/-- Directories are made on the way of a path, also when its last part asks for what is there. -/
theorem only_makeDirectories (path : String) :
    Only (fun u => making (u.base path) (Path.parts path) u) (makeDirectories path) := by
  unfold makeDirectories
  split
  next =>
    refine only_get.bind fun u => ?_
    cases u.locate path with
    | ok l => exact only_pure ()
    | error fault =>
      cases fault with
      | notFound =>
        refine Only.bind ?_ fun _ => (only_look _).bind fun _ => only_pure ()
        exact (only_makeDirectoriesAlong path _).mono fun _ _ =>
          making_mono (List.dropLast_prefix _)
      | _ => exact only_throw _
  next => exact only_makeDirectoriesAlong path _

/-- Making directories leaves all files as they are. -/
theorem find?_file_of_makeDirectories {o : Except FileFault Unit} {contents : ByteArray}
    (h : makeDirectories path t = (o, t')) :
    t'.find? l = some (.file contents) ↔ t.find? l = some (.file contents) := by
  have hbecomes := (only_makeDirectories path).becomes h
  constructor
  · intro hsome
    by_contra hne
    obtain ⟨u, _, way, _, _, hput⟩ := hbecomes.put_of_find? hsome hne
    cases hput
  · intro hsome
    refine hbecomes.find?_kept hsome ?_
    rintro u c - ⟨way, _, hmissing, rfl⟩ hthere rfl
    exact hthere hmissing

/-- Writing changes the place of the path alone. -/
theorem only_write (path : String) (contents : ByteArray) :
    Only (fun u => writing (u.location path) u) (write path contents) := by
  intro t
  rcases write_run path contents t with ⟨fault, hrun⟩ | ⟨t', hrun, hwritten⟩
  · rw [hrun]
    exact .refl t
  · rw [hrun]
    show t.Becomes _ t'
    rw [hwritten.tree]
    exact .single (c := .put (t.location path) (.file contents)) ⟨hwritten.file, contents, rfl⟩

/-- Copying changes the target alone, also when the source cannot be read in the end. -/
theorem only_copy (source target : String) :
    Only (fun u => writing (u.location target) u) (copy source target) := by
  refine (only_look _).bind fun l => only_get.bind fun u => ?_
  cases u.find? l with
  | none => exact only_throw _
  | some e =>
    cases e with
    | directory => exact only_throw _
    | file old =>
      exact (only_write target _).bind fun _ => (only_look _).bind fun contents =>
        only_write target contents

end FileAction

end CoverageReplay
