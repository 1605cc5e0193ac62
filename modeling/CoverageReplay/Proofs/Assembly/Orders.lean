import CoverageReplay.Proofs.Assembly.Growth
import CoverageReplay.Proofs.Coverage.Union
import CoverageReplay.Proofs.TestOrder.Permutation

/-!
# What orders do not change

`same_tests_same_snapshots` says that a snapshot depends on the set of tests that have run, not on
the order in which they have: whenever two orders have gone through the same tests, their snapshots
are the same. All strategies come to that at the end, for each rearranges the same tests.

What a test adds to merged coverage does not depend on when it is merged, so a pass sees the
profiles merged so far as a set (`SourceTree.pass_congr`).
-/

namespace CoverageReplay

/-! ## Sets of profiles -/

/-- A pass sees the set of the merged profiles only. -/
theorem SourceTree.pass_congr {profiles profiles' : List Profile}
    (same : ∀ p, p ∈ profiles ↔ p ∈ profiles') (t : SourceTree) :
    t.pass (.ofProfiles profiles) = t.pass (.ofProfiles profiles') := by
  rw [MergedCoverage.ofProfiles_congr same]

theorem mem_profilesOf {profiles : TestProfiles} {tests : List String} {p : Profile} :
    p ∈ profilesOf profiles tests ↔ ∃ test ∈ tests, profiles.get? test = some p :=
  List.mem_filterMap

/-! ## Equal snapshots -/

/-- A snapshot is determined by its files and their contents. -/
theorem Snapshot.Holds.unique {s s' : Snapshot} {files : List String}
    {contents contents' : String → Except ReplayError ByteArray} (distinct : files.Nodup)
    (h : s.Holds files contents) (h' : s'.Holds files contents')
    (agree : ∀ path ∈ files, ∀ bytes bytes', contents path = .ok bytes →
      contents' path = .ok bytes' → bytes = bytes') : s = s' := by
  obtain ⟨hkeys, hvalues⟩ := h
  obtain ⟨hkeys', hvalues'⟩ := h'
  refine SortedMap.eq_of_get?_eq (hkeys ▸ distinct) (hkeys.trans hkeys'.symm) fun path hpath => ?_
  rw [hkeys] at hpath
  obtain ⟨bytes, hbytes, hget⟩ := hvalues path hpath
  obtain ⟨bytes', hbytes', hget'⟩ := hvalues' path hpath
  rw [hget, hget', agree path hpath bytes bytes' hbytes hbytes']

namespace Assembler

variable {a a' : Assembler} {profiles : TestProfiles} {order order' : List String}
  {oracle oracle' : CoverageOracle} {r r' : JobResult}

/-- What a file is rendered to depends on the set of the tests. -/
theorem rendered_unique (sources : a'.sources = a.sources) {upTo upTo' : List Profile}
    (same : ∀ p, p ∈ upTo ↔ p ∈ upTo') {path : String} {bytes bytes' : ByteArray}
    (h : a.rendered upTo path = .ok bytes) (h' : a'.rendered upTo' path = .ok bytes') :
    bytes = bytes' := by
  obtain ⟨t, ht, hbytes⟩ := render_of_rendered h
  obtain ⟨t', ht', hbytes'⟩ := render_of_rendered h'
  rw [sources, ht] at ht'
  injection ht' with ht'
  rw [sources, ← ht', ← SourceTree.pass_congr same, hbytes] at hbytes'
  injection hbytes'

/-- Once two orders have gone through the same tests, the snapshots are the same. -/
theorem snapshot_unique (sources : a'.sources = a.sources)
    (h : ((a.assemble order profiles).run oracle).2 = .ok r)
    (h' : ((a'.assemble order' profiles).run oracle').2 = .ok r') {i j : Nat}
    (hi : i < order.length) (hj : j < order'.length)
    (same : ∀ test, test ∈ order.take (i + 1) ↔ test ∈ order'.take (j + 1)) :
    ∃ s, r.snapshots[i]? = some s ∧ r'.snapshots[j]? = some s := by
  obtain ⟨s, hs⟩ := exists_snapshot h (Nat.le_of_lt hi)
  obtain ⟨s', hs'⟩ := exists_snapshot h' (Nat.le_of_lt hj)
  have hprofiles : ∀ p, p ∈ profilesOf profiles (order.take (i + 1)) ↔
      p ∈ profilesOf profiles (order'.take (j + 1)) := by
    intro p
    simp only [mem_profilesOf, same]
  -- Neither of the two is a baseline, as both come before the end of the order.
  rcases snapshot_cases h hs with ⟨_, hholds⟩ | ⟨heq, _⟩
  · rcases snapshot_cases h' hs' with ⟨_, hholds'⟩ | ⟨heq', _⟩
    · rw [← touched_congr hprofiles] at hholds'
      have hsame : s = s' := hholds.unique (sortedLT_touched _).nodup hholds'
        fun path _ bytes bytes' => rendered_unique sources hprofiles
      exact ⟨s, hs, hsame ▸ hs'⟩
    · omega
  · omega

/-- The baselines of two orders of the same tests are the same. -/
theorem baseline_unique (sources : a'.sources = a.sources)
    (h : ((a.assemble order profiles).run oracle).2 = .ok r)
    (h' : ((a'.assemble order' profiles).run oracle').2 = .ok r')
    (same : ∀ test, test ∈ order ↔ test ∈ order') :
    ∃ s, r.snapshots[order.length]? = some s ∧ r'.snapshots[order'.length]? = some s := by
  obtain ⟨s, hs⟩ := exists_snapshot h (Nat.le_refl _)
  obtain ⟨s', hs'⟩ := exists_snapshot h' (Nat.le_refl _)
  have hprofiles : ∀ p, p ∈ profilesOf profiles order ↔ p ∈ profilesOf profiles order' := by
    intro p
    simp only [mem_profilesOf, same]
  rcases snapshot_cases h hs with ⟨hlt, _⟩ | ⟨_, hholds⟩
  · omega
  · rcases snapshot_cases h' hs' with ⟨hlt', _⟩ | ⟨_, hholds'⟩
    · omega
    · rw [← touched_congr hprofiles, sources] at hholds'
      have hsame : s = s' := hholds.unique (sortedLT_touched _).nodup hholds' (by
        intro path _ bytes bytes' hread hread'
        rw [hread] at hread'
        injection hread')
      exact ⟨s, hs, hsame ▸ hs'⟩

/-! ## Jobs -/

/-- The profiles that an oracle gives for some tests, after those of the tests before them. -/
def collected (oracle : CoverageOracle) (package : String) (profiles : TestProfiles) :
    List String → Except ReplayError TestProfiles
  | [] => .ok profiles
  | test :: rest =>
    match oracle package test with
    | .panic reason => .error (.workerPanicked reason)
    | .answer (.error e) => .error e
    | .answer (.ok p) => collected oracle package (profiles.insert test p) rest

/-- A job goes on with the profiles it has collected, whatever it does then. -/
theorem run_collectFrom (oracle : CoverageOracle) (package : String) (total : Nat)
    (next : TestProfiles → Task) (profiles : TestProfiles) (tests : List String) :
    ((collectFrom package total next profiles tests).run oracle).2 =
      (collected oracle package profiles tests >>= fun all => ((next all).run oracle).2) := by
  induction tests generalizing profiles with
  | nil => rfl
  | cons test rest ih =>
    simp only [collectFrom, Task.run, collected]
    cases oracle package test with
    | panic reason => rfl
    | answer result =>
      cases result with
      | error e => rfl
      | ok p => exact ih (profiles.insert test p)

/-- A new test comes last. -/
theorem names_insert {profiles : TestProfiles} {test : String} (new : test ∉ profiles.names)
    (p : Profile) :
    (profiles.insert test p).names = profiles.names ++ [test] := by
  rw [TestProfiles.insert, TestProfiles.contains, if_neg (by simpa using new)]
  simp [TestProfiles.names]

/-- Tests are collected in their order. -/
theorem names_collected {package : String} {profiles all : TestProfiles} {tests : List String}
    (distinct : (profiles.names ++ tests).Nodup)
    (h : collected oracle package profiles tests = .ok all) :
    all.names = profiles.names ++ tests := by
  induction tests generalizing profiles with
  | nil =>
    injection h with h
    rw [← h, List.append_nil]
  | cons test rest ih =>
    have hnew : test ∉ profiles.names := by
      intro hmem
      exact (List.nodup_append.mp distinct).2.2 test hmem test List.mem_cons_self rfl
    rw [collected] at h
    split at h
    next => cases h
    next => cases h
    next p _ =>
      rw [← List.singleton_append, ← List.append_assoc, ← names_insert hnew p] at distinct ⊢
      exact ih distinct h

/-- Tests of which none is repeated are distinct. -/
theorem nodup_of_firstRepeated {seen tests : List String} (h : firstRepeated seen tests = none) :
    tests.Nodup ∧ ∀ test ∈ tests, test ∉ seen := by
  induction tests generalizing seen with
  | nil => exact ⟨List.nodup_nil, by simp⟩
  | cons test rest ih =>
    rw [firstRepeated] at h
    split at h
    next => cases h
    next hnew =>
      obtain ⟨hnodup, hrest⟩ := ih h
      refine ⟨List.nodup_cons.mpr ⟨fun hmem => hrest test hmem List.mem_cons_self, hnodup⟩, ?_⟩
      refine List.forall_mem_cons.mpr ⟨by simpa using hnew, fun other hother hseen => ?_⟩
      exact hrest other hother (List.mem_cons_of_mem _ hseen)

/-- A job for different tests collects their profiles and assembles them in its order. -/
theorem run_run {package : String} {tests : List String}
    (distinct : firstRepeated [] tests = none) :
    ((a.run package tests).run oracle).2 =
      (collected oracle package .empty tests >>= fun profiles =>
        ((a.assemble (a.order.apply profiles) profiles).run oracle).2) := by
  unfold run collectProfiles ensureDistinct
  rw [distinct]
  exact run_collectFrom oracle package tests.length _ .empty tests

/-- A job that succeeds has collected a profile for each test, and assembled them in its order. -/
theorem assemble_of_run {package : String} {tests : List String}
    (h : ((a.run package tests).run oracle).2 = .ok r) :
    ∃ profiles, collected oracle package .empty tests = .ok profiles ∧ profiles.names = tests ∧
      ((a.assemble (a.order.apply profiles) profiles).run oracle).2 = .ok r := by
  cases hfirst : firstRepeated [] tests with
  | some test =>
    unfold run collectProfiles ensureDistinct at h
    rw [hfirst] at h
    cases h
  | none =>
    rw [run_run hfirst] at h
    cases hall : collected oracle package .empty tests with
    | error e =>
      rw [hall] at h
      cases h
    | ok profiles =>
      rw [hall] at h
      have hdistinct : (TestProfiles.empty.names ++ tests).Nodup :=
        (nodup_of_firstRepeated hfirst).1
      exact ⟨profiles, rfl, names_collected hdistinct hall, h⟩

/-- **Snapshots depend on sets of tests.** Wherever two orders of tests have gone through the same
tests, assembling gives the same snapshot for both, if it succeeds. So jobs for the same tests,
whatever their strategies and weights are, give the same snapshot for their last test and the same
baseline. -/
theorem same_tests_same_snapshots :
    (∀ (a a' : Assembler) (profiles : TestProfiles) (order order' : List String)
        (oracle oracle' : CoverageOracle) (r r' : JobResult), a'.sources = a.sources →
      ((a.assemble order profiles).run oracle).2 = .ok r →
      ((a'.assemble order' profiles).run oracle').2 = .ok r' →
      ∀ i j, i < order.length → j < order'.length →
        (∀ test, test ∈ order.take (i + 1) ↔ test ∈ order'.take (j + 1)) →
        ∃ s, r.snapshots[i]? = some s ∧ r'.snapshots[j]? = some s) ∧
    ∀ (a a' : Assembler) (package : String) (tests : List String) (oracle : CoverageOracle)
        (r r' : JobResult), a'.sources = a.sources →
      ((a.run package tests).run oracle).2 = .ok r →
      ((a'.run package tests).run oracle).2 = .ok r' →
        r.tests.Perm tests ∧ r'.tests.Perm tests ∧
        (∀ i, i + 1 = tests.length → ∃ s, r.snapshots[i]? = some s ∧ r'.snapshots[i]? = some s) ∧
        ∃ baseline, r.snapshots.getLast? = some baseline ∧
          r'.snapshots.getLast? = some baseline := by
  refine ⟨fun a a' profiles order order' oracle oracle' r r' sources h h' i j hi hj same =>
    snapshot_unique sources h h' hi hj same, ?_⟩
  intro a a' package tests oracle r r' sources h h'
  obtain ⟨profiles, hprofiles, hnames, hr⟩ := assemble_of_run h
  obtain ⟨profiles', hprofiles', _, hr'⟩ := assemble_of_run h'
  -- Both jobs have asked the same oracle for the same tests in the order of the caller.
  rw [hprofiles] at hprofiles'
  injection hprofiles' with hprofiles'
  subst hprofiles'
  have hperm := a.order.apply_perm profiles
  have hperm' := a'.order.apply_perm profiles
  rw [hnames] at hperm hperm'
  have hlength := hperm.length_eq
  have hlength' := hperm'.length_eq
  have hsame : ∀ test, test ∈ a.order.apply profiles ↔ test ∈ a'.order.apply profiles := by
    intro test
    rw [hperm.mem_iff, hperm'.mem_iff]
  refine ⟨?_, ?_, fun i hi => ?_, ?_⟩
  · rw [(holds_of_assemble hr).1]
    exact hperm
  · rw [(holds_of_assemble hr').1]
    exact hperm'
  · refine snapshot_unique sources hr hr' (by omega) (by omega) ?_
    rw [List.take_of_length_le (by omega), List.take_of_length_le (by omega)]
    exact hsame
  · rw [List.getLast?_eq_getElem?, List.getLast?_eq_getElem?, length_snapshots hr,
      length_snapshots hr']
    exact baseline_unique sources hr hr' hsame

/-- An oracle that knows the tests of `cascade`. -/
def cascadeOracle : CoverageOracle := fun _ test =>
  match cascadeTests.get? test with
  | some p => .answer (.ok p)
  | none => .panic "no such test"

/-- However the two tests of `cascade` are ordered, the second snapshot is the same, and a job that
puts the test first that covers more has the same snapshot for its last test and the same baseline
as one that keeps the order of the caller. -/
theorem same_tests_same_snapshots_cascade :
    (∃ r r' s,
      (((cascadeAssembler .raw).assemble ["idle", "busy"] cascadeTests).run cascadeOracle).2 =
        .ok r ∧
      (((cascadeAssembler .raw).assemble ["busy", "idle"] cascadeTests).run cascadeOracle).2 =
        .ok r' ∧
      r.snapshots[1]? = some s ∧ r'.snapshots[1]? = some s) ∧
    ∃ r r' s baseline,
      (((cascadeAssembler .hardcoded).run "pkg" ["idle", "busy"]).run cascadeOracle).2 = .ok r ∧
      (((cascadeAssembler .raw).run "pkg" ["idle", "busy"]).run cascadeOracle).2 = .ok r' ∧
      r.snapshots[1]? = some s ∧ r'.snapshots[1]? = some s ∧
      r.snapshots.getLast? = some baseline ∧ r'.snapshots.getLast? = some baseline := by
  constructor
  · obtain ⟨r, hr⟩ := cascade_succeeds .raw ["idle", "busy"] cascadeOracle (by decide)
    obtain ⟨r', hr'⟩ := cascade_succeeds .raw ["busy", "idle"] cascadeOracle (by decide)
    obtain ⟨s, hs, hs'⟩ := same_tests_same_snapshots.1 _ _ cascadeTests ["idle", "busy"]
      ["busy", "idle"] cascadeOracle cascadeOracle r r' rfl hr hr' 1 1 (by decide) (by decide)
      (fun test => by simp [or_comm])
    exact ⟨r, r', s, hr, hr', hs, hs'⟩
  · have hjob : ∀ strategy, ∃ r,
        (((cascadeAssembler strategy).run "pkg" ["idle", "busy"]).run cascadeOracle).2 = .ok r := by
      intro strategy
      have hcollected : collected cascadeOracle "pkg" .empty ["idle", "busy"] = .ok cascadeTests :=
        rfl
      rw [run_run (by decide), hcollected]
      refine cascade_succeeds strategy _ cascadeOracle fun test htest => ?_
      rw [(TestOrder.apply_perm _ cascadeTests).mem_iff] at htest
      have hall : ∀ test ∈ cascadeTests.names, (cascadeTests.get? test).isSome := by decide
      exact hall test htest
    obtain ⟨r, hr⟩ := hjob .hardcoded
    obtain ⟨r', hr'⟩ := hjob .raw
    obtain ⟨_, _, hlast, baseline, hb, hb'⟩ :=
      same_tests_same_snapshots.2 (cascadeAssembler .hardcoded)
      (cascadeAssembler .raw) "pkg" ["idle", "busy"] cascadeOracle r r' rfl hr hr'
    obtain ⟨s, hs, hs'⟩ := hlast 1 rfl
    exact ⟨r, r', s, baseline, hr, hr', hs, hs', hb, hb'⟩

end Assembler

end CoverageReplay
