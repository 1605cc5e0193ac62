import CoverageReplay.Assembly.Assembler
import CoverageReplay.Proofs.Coverage.Touched
import CoverageReplay.Proofs.Pruning.Settled

/-!
# What assembling gives

`assemble_eq_naive` says what a job makes of an order and the profiles of its tests, in terms that
know of no cache: a snapshot holds the files that the profiles so far touch, each parsed anew and
pruned against these profiles; the last one holds all touched files as they are. The job fails if a
step of this does, with the error of the first one (`Runs`).

What ties the caches to this is `Workbench.Holds`: a tree in the workbench is what the parser gives,
the baseline is what the reader gives of the files of all snapshots so far.
-/

namespace CoverageReplay

/-! ## Steps that can fail -/

/-- The error of a step. -/
def fault? {α : Type} : Except ReplayError α → Option ReplayError
  | .error e => some e
  | .ok _ => none

/-- The error of the first of some steps that fails. -/
def firstFault (steps : List (Option ReplayError)) : Option ReplayError :=
  steps.findSome? id

/-- Mapping a result keeps its fault. -/
theorem fault?_map {α β : Type} (f : α → β) (r : Except ReplayError α) :
    fault? (r.map f) = fault? r := by
  cases r with
  | error => rfl
  | ok => rfl

/-- Whether an outcome is the error of the first step that fails or, if none does, has a
property. -/
def Runs {α : Type} (steps : List (Option ReplayError)) (post : α → Prop) :
    Except ReplayError α → Prop
  | .error e => firstFault steps = some e
  | .ok x => firstFault steps = none ∧ post x

namespace Runs

variable {α β : Type} {steps more : List (Option ReplayError)} {post : α → Prop} {post' : β → Prop}
  {r : Except ReplayError α}

theorem pure {x : α} (h : post x) : Runs [] post (.ok x) := ⟨rfl, h⟩

/-- A single step gives its value or its error. -/
theorem step (r : Except ReplayError α) : Runs [fault? r] (fun x => r = .ok x) r := by
  cases r with
  | error e => rfl
  | ok x => exact ⟨rfl, rfl⟩

/-- Steps that run without a fault go on with the next ones. -/
theorem bind {f : α → Except ReplayError β} (h : Runs steps post r)
    (next : ∀ x, post x → Runs more post' (f x)) : Runs (steps ++ more) post' (r >>= f) := by
  cases r with
  | error e =>
    show firstFault (steps ++ more) = some e
    rw [firstFault, List.findSome?_append, show steps.findSome? id = some e from h]
    rfl
  | ok x =>
    obtain ⟨hnone, hx⟩ := h
    have hfirst : firstFault (steps ++ more) = firstFault more := by
      rw [firstFault, List.findSome?_append, show steps.findSome? id = none from hnone]
      rfl
    have hnext := next x hx
    show Runs (steps ++ more) post' (f x)
    cases hf : f x with
    | error e =>
      rw [hf] at hnext
      exact hfirst.trans hnext
    | ok y =>
      rw [hf] at hnext
      exact ⟨hfirst.trans hnext.1, hnext.2⟩

end Runs

/-! ## The job without caches -/

/-- The profile of a test. -/
def lookup (profiles : TestProfiles) (test : String) : Except ReplayError Profile :=
  match profiles.get? test with
  | some p => .ok p
  | none => .error (.config ("no profile for test " ++ test))

/-- The profiles of some tests. -/
def profilesOf (profiles : TestProfiles) (tests : List String) : List Profile :=
  tests.filterMap profiles.get?

/-- The profile of a last test joins those of the tests before it. -/
theorem profilesOf_concat {profiles : TestProfiles} {test : String} {p : Profile}
    (before : List String) (h : lookup profiles test = .ok p) :
    profilesOf profiles (before ++ [test]) = profilesOf profiles before ++ [p] := by
  have hget : profiles.get? test = some p := by
    unfold lookup at h
    split at h
    next q hq =>
      injection h with hqp
      rw [hq, hqp]
    next => cases h
  simp [profilesOf, hget]

/-- Whether a snapshot consists of some files with what is given as their contents. -/
def Snapshot.Holds (s : Snapshot) (files : List String)
    (contents : String → Except ReplayError ByteArray) : Prop :=
  s.keys = files ∧ ∀ path ∈ files, ∃ bytes, contents path = .ok bytes ∧ s.get? path = some bytes

namespace Assembler

/-- A file pruned against the union of some profiles, from a tree parsed for it. -/
def pruned (a : Assembler) (profiles : List Profile) (path : String) :
    Except ReplayError SourceTree := do
  let t ← a.sources.parse path
  let (next, _) ← t.prune? (.ofProfiles profiles) a.maxPasses
  return next

/-- A file that can be parsed is pruned as it is parsed. -/
theorem pruned_of_parse {a : Assembler} (profiles : List Profile) {path : String} {t : SourceTree}
    (h : a.sources.parse path = .ok t) :
    a.pruned profiles path = (t.prune? (.ofProfiles profiles) a.maxPasses).map Prod.fst := by
  rw [pruned, h]
  show (t.prune? (.ofProfiles profiles) a.maxPasses >>= fun r => .ok r.1) = _
  cases t.prune? (.ofProfiles profiles) a.maxPasses with
  | error => rfl
  | ok => rfl

/-- The text of a file pruned against the union of some profiles. -/
def rendered (a : Assembler) (profiles : List Profile) (path : String) :
    Except ReplayError ByteArray := do
  let t ← a.pruned profiles path
  a.sources.render t

/-- What is done for a file of the snapshot for some profiles, `before` being those of the snapshot
before. A file is read when it is touched for the first time. -/
def fileSteps (a : Assembler) (before profiles : List Profile) (path : String) :
    List (Option ReplayError) :=
  [fault? (a.sources.parse path), fault? (a.pruned profiles path),
    fault? (a.rendered profiles path)] ++
  if path ∈ touched before then [] else [fault? (a.sources.read path)]

/-- What is done for a test after those of `before`: its profile is looked up, then the files are
done in the order of their paths. -/
def testSteps (a : Assembler) (profiles : TestProfiles) (before : List String) (test : String) :
    List (Option ReplayError) :=
  let merged := profilesOf profiles (before ++ [test])
  fault? (lookup profiles test) ::
    (touched merged).flatMap (a.fileSteps (profilesOf profiles before) merged)

/-- What is done for the tests that are left after those of `before`. -/
def stepsFrom (a : Assembler) (profiles : TestProfiles) (before : List String) :
    List String → List (Option ReplayError)
  | [] => []
  | test :: rest => a.testSteps profiles before test ++ a.stepsFrom profiles (before ++ [test]) rest

end Assembler

/-! ## What the workbench keeps -/

namespace Workbench

/-- Whether what a workbench keeps is what parsing and reading give. -/
structure Sound (a : Assembler) (bench : Workbench) : Prop where
  pristine : ∀ path t, bench.pristine.get? path = some t → a.sources.parse path = .ok t
  baseline : ∀ path bytes, bench.baseline.get? path = some bytes → a.sources.read path = .ok bytes
  sorted : bench.baseline.keys.Pairwise (· < ·)

variable {a : Assembler} {bench : Workbench} {path : String}

theorem Sound.empty : Sound a Workbench.empty :=
  ⟨fun _ _ h => absurd h.symm (Option.some_ne_none _),
    fun _ _ h => absurd h.symm (Option.some_ne_none _), List.Pairwise.nil⟩

/-- The tree of the workbench is what the parser gives, and the baseline stays as it is. -/
theorem runs_tree (sound : bench.Sound a) :
    Runs [fault? (a.sources.parse path)]
      (fun r => a.sources.parse path = .ok r.1 ∧ r.2.Sound a ∧ r.2.baseline = bench.baseline)
      (bench.tree a.sources path) := by
  unfold tree
  cases hget : bench.pristine.get? path with
  | some t =>
    have hparse := sound.pristine path t hget
    exact ⟨by rw [hparse]; rfl, hparse, sound, rfl⟩
  | none =>
    refine (Runs.step _).bind fun t hparse =>
      .pure ⟨hparse, ⟨?_, sound.baseline, sound.sorted⟩, rfl⟩
    intro path' t' hget'
    rw [SortedMap.get?_insert] at hget'
    split at hget'
    next heq =>
      injection hget' with ht
      rw [← heq, ← ht]
      exact hparse
    next => exact sound.pristine path' t' hget'

/-- A file is read for the baseline if it is not in it. -/
theorem runs_keep (path : String) (sound : bench.Sound a) :
    Runs (if path ∈ bench.baseline.keys then [] else [fault? (a.sources.read path)])
      (fun next => next.Sound a ∧
        ∀ x, x ∈ next.baseline.keys ↔ x = path ∨ x ∈ bench.baseline.keys)
      (bench.keep a.sources path) := by
  unfold keep
  by_cases hkept : path ∈ bench.baseline.keys
  · rw [if_pos hkept, if_pos (SortedMap.contains_iff_mem_keys.mpr hkept)]
    refine Runs.pure ⟨sound, fun x => (or_iff_right_of_imp fun hx => ?_).symm⟩
    rw [hx]
    exact hkept
  · rw [if_neg hkept, if_neg (mt SortedMap.contains_iff_mem_keys.mp hkept)]
    refine (Runs.step _).bind fun bytes hread =>
      .pure ⟨⟨sound.pristine, ?_, ?_⟩, fun x => SortedMap.mem_keys_alter⟩
    · intro path' bytes' hget
      rw [SortedMap.get?_insert] at hget
      split at hget
      next heq =>
        injection hget with hbytes
        rw [← heq, ← hbytes]
        exact hread
      next => exact sound.baseline path' bytes' hget
    · exact SortedMap.pairwise_keys_alter sound.sorted _ _

/-- A file is pruned as if it were parsed for this. -/
theorem runs_pruneFile {before profiles : List Profile} (sound : bench.Sound a)
    (seen : path ∈ bench.baseline.keys ↔ path ∈ touched before) :
    Runs (a.fileSteps before profiles path)
      (fun r => a.rendered profiles path = .ok r.1 ∧ r.2.Sound a ∧
        ∀ x, x ∈ r.2.baseline.keys ↔ x = path ∨ x ∈ bench.baseline.keys)
      (pruneFile a (.ofProfiles profiles) path bench) := by
  have hsteps : a.fileSteps before profiles path =
      [fault? (a.sources.parse path)] ++ ([fault? (a.pruned profiles path)] ++
        ([fault? (a.rendered profiles path)] ++
          ((if path ∈ touched before then [] else [fault? (a.sources.read path)]) ++ []))) := by
    simp [Assembler.fileSteps]
  rw [hsteps]
  refine (runs_tree sound).bind fun (t, next) ⟨hparse, hsound, hsame⟩ => ?_
  have hpruned := Assembler.pruned_of_parse profiles hparse
  rw [hpruned, fault?_map]
  refine (Runs.step _).bind fun (kept, stats) hkept => ?_
  have hrendered : a.rendered profiles path = a.sources.render kept := by
    rw [Assembler.rendered, hpruned, hkept]
    rfl
  rw [hrendered]
  refine (Runs.step _).bind fun contents hcontents => ?_
  have hkeep := runs_keep path hsound
  rw [hsame] at hkeep
  simp only [seen] at hkeep
  exact hkeep.bind fun last hlast => .pure ⟨hcontents, hlast⟩

/-- So are the files of a snapshot, which a workbench keeps from then on. -/
theorem runs_pruneFiles {before profiles : List Profile} :
    ∀ {paths : List String} {bench : Workbench}, bench.Sound a → paths.Nodup →
      (∀ path ∈ paths, path ∈ bench.baseline.keys ↔ path ∈ touched before) →
      Runs (paths.flatMap (a.fileSteps before profiles))
        (fun r => r.1.map Prod.fst = paths ∧
          (∀ e ∈ r.1, a.rendered profiles e.1 = .ok e.2) ∧ r.2.Sound a ∧
          ∀ x, x ∈ r.2.baseline.keys ↔ x ∈ paths ∨ x ∈ bench.baseline.keys)
        (pruneFiles a (.ofProfiles profiles) paths bench)
  | [], bench, sound, _, _ => .pure ⟨rfl, by simp, sound, by simp⟩
  | path :: rest, bench, sound, distinct, seen => by
    rw [List.nodup_cons] at distinct
    rw [List.flatMap_cons]
    refine (runs_pruneFile sound (seen path (List.mem_cons_self ..))).bind
      fun (contents, next) ⟨hcontents, hsound, hkeys⟩ => ?_
    -- Keeping this file says nothing of the others, as no file is listed twice.
    have hseen : ∀ x ∈ rest, x ∈ next.baseline.keys ↔ x ∈ touched before := by
      intro x hx
      have hne : x ≠ path := by
        intro heq
        rw [heq] at hx
        exact distinct.1 hx
      rw [hkeys, or_iff_right hne]
      exact seen x (List.mem_cons_of_mem _ hx)
    rw [← List.append_nil (rest.flatMap _)]
    refine (runs_pruneFiles hsound distinct.2 hseen).bind
      fun (others, last) ⟨hpaths, hothers, hlast, hmore⟩ => .pure ⟨?_, ?_, hlast, fun x => ?_⟩
    · rw [List.map_cons, hpaths]
    · exact List.forall_mem_cons.mpr ⟨hcontents, hothers⟩
    · rw [hmore, hkeys, List.mem_cons]
      exact or_left_comm.trans or_assoc.symm

/-- The snapshot for some profiles holds what pruning the files that they touch gives. -/
theorem runs_snapshot {before profiles : List Profile} (sound : bench.Sound a)
    (kept : bench.baseline.keys = touched before) (more : touched before ⊆ touched profiles) :
    Runs ((touched profiles).flatMap (a.fileSteps before profiles))
      (fun r => r.1.Holds (touched profiles) (a.rendered profiles) ∧ r.2.Sound a ∧
        r.2.baseline.keys = touched profiles)
      (snapshot a (.ofProfiles profiles) bench) := by
  rw [snapshot, MergedCoverage.keys_ofProfiles, ← List.append_nil (List.flatMap _ _)]
  refine (runs_pruneFiles sound (sortedLT_touched profiles).nodup fun path _ => by rw [kept]).bind
    fun (files, next) ⟨hpaths, hfiles, hsound, hkeys⟩ => .pure ⟨⟨hpaths, ?_⟩, hsound, ?_⟩
  · intro path hpath
    rw [← hpaths] at hpath
    obtain ⟨⟨key, bytes⟩, hmem, rfl⟩ := List.mem_map.mp hpath
    refine ⟨bytes, hfiles _ hmem, SortedMap.get?_of_mem ?_ hmem⟩
    show (files.map Prod.fst).Nodup
    rw [hpaths]
    exact (sortedLT_touched profiles).nodup
  · refine hsound.sorted.sortedLT.eq_of_mem_iff (sortedLT_touched profiles) fun path => ?_
    rw [hkeys, kept]
    exact or_iff_left_of_imp fun h => more h

end Workbench

/-! ## The snapshots of a job -/

namespace Assembler

/-- Whether there is a snapshot for each test of `before`, made with the profiles of the tests up to
it. -/
def SnapshotsHold (a : Assembler) (profiles : TestProfiles) (before : List String)
    (snapshots : List Snapshot) : Prop :=
  snapshots.length = before.length ∧
    ∀ i s, snapshots[i]? = some s →
      let upTo := profilesOf profiles (before.take (i + 1))
      s.Holds (touched upTo) (a.rendered upTo)

theorem SnapshotsHold.nil (a : Assembler) (profiles : TestProfiles) :
    a.SnapshotsHold profiles [] [] :=
  ⟨rfl, fun i s h => by simp at h⟩

/-- A last snapshot joins those before it. -/
theorem SnapshotsHold.concat {a : Assembler} {profiles : TestProfiles} {before : List String}
    {snapshots : List Snapshot} (h : a.SnapshotsHold profiles before snapshots) {test : String}
    {s : Snapshot}
    (holds : s.Holds (touched (profilesOf profiles (before ++ [test])))
      (a.rendered (profilesOf profiles (before ++ [test])))) :
    a.SnapshotsHold profiles (before ++ [test]) (snapshots ++ [s]) := by
  obtain ⟨hlength, hall⟩ := h
  refine ⟨by simp [hlength], fun i s' hs' => ?_⟩
  -- Earlier snapshots are as they were, the next one is that of the new test.
  rcases Nat.lt_trichotomy i snapshots.length with hlt | heq | hgt
  · rw [List.getElem?_append_left hlt] at hs'
    rw [List.take_append_of_le_length (by omega)]
    exact hall i s' hs'
  · rw [heq, List.getElem?_concat_length] at hs'
    injection hs' with hs'
    rw [← hs', heq, hlength, List.take_of_length_le (by simp)]
    exact holds
  · rw [List.getElem?_eq_none (by simp; omega)] at hs'
    cases hs'

/-- A job looks up the profile of the next test, makes its snapshot and goes on. -/
theorem run_assembleFrom_cons (a : Assembler) (order : List String) (profiles : TestProfiles)
    (oracle : CoverageOracle) (snapshots : List Snapshot) (merged : MergedCoverage)
    (bench : Workbench) (test : String) (rest : List String) :
    ((a.assembleFrom order profiles snapshots merged bench (test :: rest)).run oracle).2 =
      (lookup profiles test >>= fun p =>
        bench.snapshot a (merged.merge p) >>= fun r =>
          ((a.assembleFrom order profiles (snapshots ++ [r.1]) (merged.merge p) r.2 rest).run
            oracle).2) := by
  simp only [assembleFrom, Task.run, lookup]
  cases profiles.get? test with
  | none => rfl
  | some p =>
    cases hsnapshot : bench.snapshot a (merged.merge p) with
    | error e => simp only [hsnapshot, bind, Except.bind, Task.run]
    | ok r => simp only [hsnapshot, bind, Except.bind]

/-- What is left of a job, from any state in which earlier snapshots have left it. -/
theorem runs_assembleFrom (a : Assembler) (order : List String) (profiles : TestProfiles)
    (oracle : CoverageOracle) :
    ∀ {rest before : List String} {snapshots : List Snapshot} {bench : Workbench},
      before ++ rest = order → a.SnapshotsHold profiles before snapshots → bench.Sound a →
      bench.baseline.keys = touched (profilesOf profiles before) →
      Runs (a.stepsFrom profiles before rest)
        (fun r => r.tests = order ∧ ∃ made baseline, r.snapshots = made ++ [baseline] ∧
          a.SnapshotsHold profiles order made ∧
          baseline.Holds (touched (profilesOf profiles order)) a.sources.read)
        ((a.assembleFrom order profiles snapshots (.ofProfiles (profilesOf profiles before)) bench
          rest).run oracle).2
  | [], before, snapshots, bench, horder, hmade, sound, hkept => by
    rw [List.append_nil] at horder
    subst horder
    refine Runs.pure ⟨rfl, snapshots, bench.baseline, rfl, hmade, hkept, fun path hpath => ?_⟩
    rw [← hkept, ← SortedMap.contains_iff_mem_keys] at hpath
    obtain ⟨bytes, hget⟩ := Option.isSome_iff_exists.mp hpath
    exact ⟨bytes, sound.baseline path bytes hget, hget⟩
  | test :: rest, before, snapshots, bench, horder, hmade, sound, hkept => by
    -- The steps of this test are its lookup and its snapshot, after which the state is again of the
    -- kind that the induction is over.
    have hsteps : a.stepsFrom profiles before (test :: rest) =
        [fault? (lookup profiles test)] ++
          ((touched (profilesOf profiles (before ++ [test]))).flatMap
              (a.fileSteps (profilesOf profiles before) (profilesOf profiles (before ++ [test]))) ++
            a.stepsFrom profiles (before ++ [test]) rest) := by
      simp [stepsFrom, testSteps]
    rw [run_assembleFrom_cons, hsteps]
    refine (Runs.step _).bind fun p hp => ?_
    have hprofiles := profilesOf_concat before hp
    rw [← MergedCoverage.ofProfiles_append, ← hprofiles]
    refine (Workbench.runs_snapshot sound hkept ?_).bind fun (s, next) ⟨hs, hsound, hnext⟩ => ?_
    · rw [hprofiles]
      exact touched_subset_append _ _
    · exact runs_assembleFrom a order profiles oracle (by simp [← horder]) (hmade.concat hs) hsound
        hnext

/-- A whole job, which begins without snapshots and with an empty workbench. -/
theorem runs_assemble (a : Assembler) (order : List String) (profiles : TestProfiles)
    (oracle : CoverageOracle) :
    Runs (a.stepsFrom profiles [] order)
      (fun r => r.tests = order ∧ ∃ made baseline, r.snapshots = made ++ [baseline] ∧
        a.SnapshotsHold profiles order made ∧
        baseline.Holds (touched (profilesOf profiles order)) a.sources.read)
      ((a.assemble order profiles).run oracle).2 :=
  runs_assembleFrom a order profiles oracle (List.nil_append order) (SnapshotsHold.nil a profiles)
    (Workbench.Sound.empty (a := a)) touched_nil.symm

/-- If all tests have profiles, none of the steps that are left fails as long as none does for a
file. -/
theorem eq_none_of_mem_stepsFrom {a : Assembler} {profiles : TestProfiles}
    {rest before : List String} (known : ∀ test ∈ rest, (profiles.get? test).isSome)
    (files : ∀ before' profiles', ∀ path ∈ touched (profilesOf profiles (before ++ rest)),
      ∀ step ∈ a.fileSteps before' profiles' path, step = none) :
    ∀ step ∈ a.stepsFrom profiles before rest, step = none := by
  induction rest generalizing before with
  | nil => exact fun step h => absurd h List.not_mem_nil
  | cons test rest ih =>
    rw [List.forall_mem_cons] at known
    obtain ⟨htest, hrest⟩ := known
    obtain ⟨p, hp⟩ := Option.isSome_iff_exists.mp htest
    have hsplit : before ++ test :: rest = before ++ [test] ++ rest := by simp
    intro step h
    rcases List.mem_append.mp h with h | h
    · rcases List.mem_cons.mp h with rfl | h
      · simp [lookup, hp, fault?]
      · obtain ⟨path, hpath, hstep⟩ := List.mem_flatMap.mp h
        refine files _ _ path ?_ step hstep
        rw [hsplit, profilesOf, List.filterMap_append]
        exact touched_subset_append _ _ hpath
    · rw [hsplit] at files
      exact ih hrest files step h

/-- A job succeeds if all tests have profiles and all files that these touch can be parsed, read,
and rendered after any pass. -/
theorem exists_result {a : Assembler} {order : List String} {profiles : TestProfiles}
    (oracle : CoverageOracle) (two : 2 ≤ a.maxPasses)
    (known : ∀ test ∈ order, (profiles.get? test).isSome)
    (files : ∀ path ∈ touched (profilesOf profiles order), ∃ t contents,
      a.sources.parse path = .ok t ∧ a.sources.read path = .ok contents ∧
        ∀ m, ∃ bytes, a.sources.render (t.pass m).1 = .ok bytes) :
    ∃ r, ((a.assemble order profiles).run oracle).2 = .ok r := by
  have hruns := runs_assemble a order profiles oracle
  -- With every file readable and renderable no step of the assembly has a fault.
  have hnone : ∀ step ∈ a.stepsFrom profiles [] order, step = none := by
    refine eq_none_of_mem_stepsFrom known fun before upTo path hpath step hstep => ?_
    obtain ⟨t, contents, hparse, hread, hrender⟩ := files path hpath
    obtain ⟨bytes, hbytes⟩ := hrender (.ofProfiles upTo)
    have hpruned : a.pruned upTo path = .ok (t.pass (.ofProfiles upTo)).1 := by
      rw [pruned_of_parse upTo hparse, SourceTree.prune?_eq t _ two]
      rfl
    have hrendered : a.rendered upTo path = .ok bytes := by
      rw [rendered, hpruned]
      exact hbytes
    rw [fileSteps, hparse, hpruned, hrendered, hread] at hstep
    simp only [fault?] at hstep
    split at hstep
    next => simpa using hstep
    next => simpa using hstep
  cases hout : ((a.assemble order profiles).run oracle).2 with
  | ok r => exact ⟨r, rfl⟩
  | error e =>
    rw [hout] at hruns
    obtain ⟨step, hstep, he⟩ := List.exists_of_findSome?_eq_some hruns
    rw [hnone step hstep] at he
    cases he

section Succeeds

variable {a : Assembler} {order : List String} {profiles : TestProfiles} {oracle : CoverageOracle}
  {r : JobResult}

/-- What a job gives that succeeds. -/
theorem holds_of_assemble (h : ((a.assemble order profiles).run oracle).2 = .ok r) :
    r.tests = order ∧ ∃ made baseline, r.snapshots = made ++ [baseline] ∧
      a.SnapshotsHold profiles order made ∧
      baseline.Holds (touched (profilesOf profiles order)) a.sources.read := by
  have hruns := runs_assemble a order profiles oracle
  rw [h] at hruns
  exact hruns.2

/-- There is a snapshot for each test and one for the baseline. -/
theorem length_snapshots (h : ((a.assemble order profiles).run oracle).2 = .ok r) :
    r.snapshots.length = order.length + 1 := by
  obtain ⟨_, made, baseline, hsnapshots, ⟨hlength, _⟩, _⟩ := holds_of_assemble h
  rw [hsnapshots, List.length_append, hlength]
  rfl

/-- Each index up to the number of tests has a snapshot. -/
theorem exists_snapshot (h : ((a.assemble order profiles).run oracle).2 = .ok r) {i : Nat}
    (hi : i ≤ order.length) : ∃ s, r.snapshots[i]? = some s := by
  have hlength := length_snapshots h
  exact ⟨_, List.getElem?_eq_getElem (by omega)⟩

/-- A snapshot is that of a test, or the baseline. -/
theorem snapshot_cases (h : ((a.assemble order profiles).run oracle).2 = .ok r) {i : Nat}
    {s : Snapshot} (hs : r.snapshots[i]? = some s) :
    (i < order.length ∧ s.Holds (touched (profilesOf profiles (order.take (i + 1))))
        (a.rendered (profilesOf profiles (order.take (i + 1))))) ∨
      (i = order.length ∧ s.Holds (touched (profilesOf profiles order)) a.sources.read) := by
  obtain ⟨_, made, baseline, hsnapshots, ⟨hlength, hmade⟩, hbaseline⟩ := holds_of_assemble h
  rw [hsnapshots] at hs
  rcases Nat.lt_trichotomy i made.length with hlt | heq | hgt
  · rw [List.getElem?_append_left hlt] at hs
    exact Or.inl ⟨hlength ▸ hlt, hmade i s hs⟩
  · rw [heq, List.getElem?_concat_length] at hs
    injection hs with hs
    exact Or.inr ⟨heq.trans hlength, hs ▸ hbaseline⟩
  · rw [List.getElem?_eq_none (by simp; omega)] at hs
    cases hs

end Succeeds

/-- **Assembling is what it is without caches.** Its steps are: for each test, look up its profile,
then for each file touched so far parse it, prune it, render it, and read it if it is new. If one
fails, the outcome is the error of the first one that does. Else the result names the tests in their
order, the `i`-th snapshot consists of the files that the first `i + 1` profiles touch, each parsed
and pruned against these profiles, and one more snapshot, the last, of all touched files as they
are. -/
theorem assemble_eq_naive (a : Assembler) (order : List String) (profiles : TestProfiles)
    (oracle : CoverageOracle) :
    match firstFault (a.stepsFrom profiles [] order) with
    | some e => ((a.assemble order profiles).run oracle).2 = .error e
    | none => ∃ made baseline,
        ((a.assemble order profiles).run oracle).2 = .ok ⟨order, made ++ [baseline]⟩ ∧
        made.length = order.length ∧
        (∀ i s, made[i]? = some s →
          let upTo := profilesOf profiles (order.take (i + 1))
          s.Holds (touched upTo) (a.rendered upTo)) ∧
        baseline.Holds (touched (profilesOf profiles order)) a.sources.read := by
  have hruns := runs_assemble a order profiles oracle
  cases hout : ((a.assemble order profiles).run oracle).2 with
  | error e =>
    rw [hout] at hruns
    rw [show firstFault _ = some e from hruns]
  | ok r =>
    rw [hout] at hruns
    obtain ⟨hnone, htests, made, baseline, hsnapshots, ⟨hlength, hmade⟩, hbaseline⟩ := hruns
    rw [hnone]
    refine ⟨made, baseline, ?_, hlength, hmade, hbaseline⟩
    rw [← htests, ← hsnapshots]

end Assembler

end CoverageReplay
