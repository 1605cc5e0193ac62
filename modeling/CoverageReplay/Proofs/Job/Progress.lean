import CoverageReplay.Job.Worker
import CoverageReplay.Proofs.Assembly.Orders
import Mathlib

/-!
# The course of a job

Whatever an oracle answers, a job reports its steps in one fixed order and leaves none out before
the one at which it ends: a report for each profile, one for the ordering, one for each snapshot
(`follows_run`). So the statuses of a job are the first one, another one if it has to wait for a
slot, those of its reports up to some report, and a final one. `JobStatus.course` lists them.

`WorkerStage.Published` says which of these have been stored when a worker has come to a stage, and
`published_onReply` that storing one more leads to the next stage.
-/

namespace CoverageReplay

/-! ## Reports of a job -/

/-- The report before the profile of test number `i`, counted from zero. -/
def coverageReport (n i : Nat) : String :=
  "Computing coverage for " ++ toString (i + 1) ++ " of " ++ toString n ++ " tests"

/-- The report before snapshot number `i`, counted from zero. -/
def snapshotReport (n i : Nat) : String :=
  "Constructing snapshot " ++ toString (i + 1) ++ " of " ++ toString n

/-- All reports of a job for `n` tests, in order. -/
def jobReports (n : Nat) : List String :=
  (List.range n).map (coverageReport n) ++ "Computing test ordering" ::
    (List.range n).map (snapshotReport n)

/-- Different profiles are reported in different words. -/
theorem coverageReport_inj {n i j : Nat} (h : coverageReport n i = coverageReport n j) : i = j := by
  unfold coverageReport at h
  simp only [String.append_assoc, String.append_right_inj, String.append_left_inj] at h
  exact Nat.succ_inj.mp (Nat.repr_inj.mp h)

/-- Different snapshots are reported in different words. -/
theorem snapshotReport_inj {n i j : Nat} (h : snapshotReport n i = snapshotReport n j) : i = j := by
  unfold snapshotReport at h
  simp only [String.append_assoc, String.append_right_inj, String.append_left_inj] at h
  exact Nat.succ_inj.mp (Nat.repr_inj.mp h)

/-- A character by which statuses of different kinds differ. -/
def kindLetter (text : String) : Option Char := text.toList[13]?

theorem kindLetter_append {text : String} (h : 13 < text.toList.length) (rest : String) :
    kindLetter (text ++ rest) = kindLetter text := by
  rw [kindLetter, String.toList_append, List.getElem?_append_left h, kindLetter]

/-- A report for a profile is told by its letter `e`. -/
theorem kindLetter_coverageReport (n i : Nat) : kindLetter (coverageReport n i) = some 'e' := by
  unfold coverageReport
  simp only [String.append_assoc]
  rw [kindLetter_append (by decide)]
  decide

/-- A report for a snapshot is told by its letter `s`. -/
theorem kindLetter_snapshotReport (n i : Nat) : kindLetter (snapshotReport n i) = some 's' := by
  unfold snapshotReport
  simp only [String.append_assoc]
  rw [kindLetter_append (by decide)]
  decide

/-- Each report of a job has one of three letters. -/
theorem kindLetter_of_mem_jobReports {n : Nat} {text : String} (h : text ∈ jobReports n) :
    kindLetter text ∈ [some 'e', some 't', some 's'] := by
  rcases List.mem_append.mp h with h | h
  · obtain ⟨i, _, rfl⟩ := List.mem_map.mp h
    rw [kindLetter_coverageReport]
    decide
  · rcases List.mem_cons.mp h with rfl | h
    · decide
    · obtain ⟨i, _, rfl⟩ := List.mem_map.mp h
      rw [kindLetter_snapshotReport]
      decide

/-- All reports of a job are different. -/
theorem jobReports_nodup (n : Nat) : (jobReports n).Nodup := by
  have hcoverage : ((List.range n).map (coverageReport n)).Nodup :=
    List.nodup_range.map fun _ _ => coverageReport_inj
  have hsnapshot : ((List.range n).map (snapshotReport n)).Nodup :=
    List.nodup_range.map fun _ _ => snapshotReport_inj
  have hordering : kindLetter "Computing test ordering" = some 't' := by decide
  -- Two reports of one kind differ in their number, two of different kinds in the letter.
  refine List.nodup_append.mpr ⟨hcoverage, List.nodup_cons.mpr ⟨fun h => ?_, hsnapshot⟩, ?_⟩
  · obtain ⟨i, _, heq⟩ := List.mem_map.mp h
    rw [← heq, kindLetter_snapshotReport] at hordering
    cases hordering
  · intro a ha b hb hab
    obtain ⟨i, _, rfl⟩ := List.mem_map.mp ha
    have hletter := kindLetter_coverageReport n i
    rw [hab] at hletter
    rcases List.mem_cons.mp hb with rfl | hb
    · rw [hordering] at hletter
      cases hletter
    · obtain ⟨j, _, rfl⟩ := List.mem_map.mp hb
      rw [kindLetter_snapshotReport] at hletter
      cases hletter

/-- Whether what a task reports is, step by step, the beginning of a list, whatever the oracle
answers. -/
def Task.Follows : List String → Task → Prop
  | reports, .report details next => ∃ rest, reports = details :: rest ∧ Task.Follows rest next
  | reports, .ask _ _ next => ∀ answer, Task.Follows reports (next answer)
  | _, .done _ => True

theorem Task.follows_report {details : String} {rest : List String} {next : Task}
    (h : Task.Follows rest next) : Task.Follows (details :: rest) (.report details next) :=
  ⟨rest, rfl, h⟩

namespace Assembler

variable {a : Assembler} {package : String}

/-- Assembling reports the snapshots that are left, in order. -/
theorem follows_assembleFrom (order : List String) (profiles : TestProfiles)
    {snapshots : List Snapshot} {merged : MergedCoverage} {bench : Workbench} {rest : List String} :
    Task.Follows ((List.range' snapshots.length rest.length).map (snapshotReport order.length))
      (a.assembleFrom order profiles snapshots merged bench rest) := by
  induction rest generalizing snapshots merged bench with
  | nil => trivial
  | cons test rest ih =>
    rw [List.length_cons, List.range'_succ, List.map_cons, assembleFrom]
    refine Task.follows_report ?_
    cases profiles.get? test with
    | none => trivial
    | some p =>
      dsimp only
      split
      next => trivial
      next s bench' _ =>
        have hnext := @ih (snapshots ++ [s]) (merged.merge p) bench'
        rwa [List.length_append, List.length_singleton] at hnext

/-- Collecting reports the profiles that are left, in order, and then comes to what follows. -/
theorem follows_collectFrom {total : Nat} {next : TestProfiles → Task} {reports : List String}
    (follows : ∀ profiles, profiles.names.length = total → Task.Follows reports (next profiles))
    {profiles : TestProfiles} {tests : List String} (distinct : (profiles.names ++ tests).Nodup)
    (count : (profiles.names ++ tests).length = total) :
    Task.Follows ((List.range' profiles.names.length tests.length).map (coverageReport total) ++
        reports)
      (collectFrom package total next profiles tests) := by
  induction tests generalizing profiles with
  | nil =>
    rw [List.append_nil] at count
    exact follows profiles count
  | cons test rest ih =>
    have hnew : test ∉ profiles.names := by
      intro hmem
      exact (List.nodup_append.mp distinct).2.2 test hmem test List.mem_cons_self rfl
    have hsize : profiles.size = profiles.names.length := (List.length_map _).symm
    rw [List.length_cons, List.range'_succ, List.map_cons, List.cons_append, collectFrom, hsize]
    refine Task.follows_report fun answer => ?_
    cases answer with
    | error e => trivial
    | ok p =>
      rw [← List.singleton_append, ← List.append_assoc, ← names_insert hnew p] at distinct count
      have hnext := ih distinct count
      rwa [names_insert hnew p, List.length_append, List.length_singleton] at hnext

/-- A job reports its steps in their order. -/
theorem follows_run (a : Assembler) (package : String) (tests : List String) :
    Task.Follows (jobReports tests.length) (a.run package tests) := by
  unfold run collectProfiles ensureDistinct
  cases hfirst : firstRepeated [] tests with
  | some test => trivial
  | none =>
    have hdistinct : (TestProfiles.empty.names ++ tests).Nodup := (nodup_of_firstRepeated hfirst).1
    unfold jobReports
    rw [List.range_eq_range']
    -- The order is of the same length as the list of tests, so the totals in the reports agree.
    refine follows_collectFrom (fun profiles hcount => Task.follows_report ?_) hdistinct rfl
    have hlength := (a.order.apply_perm profiles).length_eq
    have hassemble := @follows_assembleFrom a (a.order.apply profiles) profiles [] .empty .empty
      (a.order.apply profiles)
    rwa [hlength, hcount] at hassemble

end Assembler

/-! ## Statuses of a job -/

namespace JobStatus

variable {n k : Nat} {waited : Bool} {final s : JobStatus} {past : List JobStatus}

/-- The statuses of a job for `n` tests up to report number `k`. One that has waited for a slot has
told so. -/
def begun (n : Nat) (waited : Bool) (k : Nat) : List JobStatus :=
  .inProgress "Initializing job" ::
    ((if waited then ["Waiting for a worker slot"] else []) ++
      (jobReports n).take k).map .inProgress

/-- The statuses of a job for `n` tests that ends after report number `k`, in order. -/
def course (n : Nat) (waited : Bool) (k : Nat) (final : JobStatus) : List JobStatus :=
  begun n waited k ++ [final]

/-- The next report adds a status to those told so far. -/
theorem begun_succ {details : String} {rest : List String}
    (h : (jobReports n).drop k = details :: rest) :
    begun n waited (k + 1) = begun n waited k ++ [.inProgress details] := by
  have htake : (jobReports n).take (k + 1) = (jobReports n).take k ++ [details] := by
    have hget : (jobReports n)[k]? = some details := by
      rw [← List.head?_drop, h, List.head?_cons]
    rw [List.take_add_one, hget, Option.toList_some]
  unfold begun
  rw [htake]
  simp

/-- None of the statuses before the end is a final one. -/
theorem isTerminal_of_mem_begun (h : s ∈ begun n waited k) : s.isTerminal = false := by
  rcases List.mem_cons.mp h with rfl | h
  · rfl
  · obtain ⟨details, _, rfl⟩ := List.mem_map.mp h
    rfl

/-- A course that has come to a final status is over. -/
theorem eq_course_of_terminal (h : past <+: course n waited k final) (last : past.getLast? = some s)
    (terminal : s.isTerminal) : past = course n waited k final := by
  rcases List.prefix_concat_iff.mp h with heq | hbefore
  · exact heq
  · have hmem := hbefore.subset (List.mem_of_getLast? last)
    rw [isTerminal_of_mem_begun hmem] at terminal
    cases terminal

/-- No status comes twice in a course. -/
theorem course_nodup (n : Nat) (waited : Bool) (k : Nat) (terminal : final.isTerminal) :
    (course n waited k final).Nodup := by
  have htexts : ("Initializing job" ::
      ((if waited then ["Waiting for a worker slot"] else []) ++ (jobReports n).take k)).Nodup := by
    have hreports := (jobReports_nodup n).sublist (List.take_sublist k _)
    have hletter : ∀ text, kindLetter text ∉ [some 'e', some 't', some 's'] →
        text ∉ (jobReports n).take k := fun text hnot h =>
      hnot (kindLetter_of_mem_jobReports (List.mem_of_mem_take h))
    have hfirst := hletter "Initializing job" (by decide)
    have hwaiting := hletter "Waiting for a worker slot" (by decide)
    cases waited
    · simp [hfirst, hreports]
    · simp [hfirst, hwaiting, hreports]
  have hbegun : (begun n waited k).Nodup := htexts.map fun _ _ h => by injection h
  refine List.nodup_append.mpr ⟨hbegun, List.nodup_singleton _, fun s hs s' hs' heq => ?_⟩
  have hnot := isTerminal_of_mem_begun hs
  rw [heq, List.mem_singleton.mp hs', terminal] at hnot
  cases hnot

/-- The outcome of a job is a final status. -/
theorem isTerminal_ofOutcome (outcome : Except ReplayError JobResult) :
    (ofOutcome outcome).isTerminal := by
  cases outcome with
  | error => rfl
  | ok => rfl

end JobStatus

/-! ## Statuses and stages -/

namespace WorkerStage

open JobStatus

variable {n k : Nat} {waited : Bool} {stage : WorkerStage} {past : List JobStatus} {s : JobStatus}

/-- Whether `past` may have been stored for a job for `n` tests when its worker comes to a stage,
and what is left to do follows the reports that are left. -/
def Published (n : Nat) : WorkerStage → List JobStatus → Prop
  | announcing, past => past = []
  | arriving, past | telling, past => past = begun n false 0
  | queued, past => past = begun n true 0
  | reporting details next, past => ∃ waited k rest, past = begun n waited k ∧
      (jobReports n).drop k = details :: rest ∧ Task.Follows rest next
  | asking _ next, past => ∃ waited k, past = begun n waited k ∧
      ∀ answer, Task.Follows ((jobReports n).drop k) (next answer)
  | finishing s, past => ∃ waited k, past = begun n waited k ∧ s.isTerminal
  | ended, past => ∃ waited k s, past = course n waited k s ∧ s.isTerminal

/-- The status that a worker stores at a stage. -/
def announced? : WorkerStage → Option JobStatus
  | announcing => some (.inProgress "Initializing job")
  | telling => some (.inProgress "Waiting for a worker slot")
  | reporting details _ => some (.inProgress details)
  | finishing s => some s
  | _ => none

/-- A final status is stored by a worker at its end only. -/
theorem eq_finishing (h : stage.announced? = some s) (terminal : s.isTerminal) :
    stage = finishing s := by
  cases stage with
  | finishing =>
    cases h
    rfl
  | announcing | telling | reporting =>
    cases h
    cases terminal
  | arriving | queued | asking | ended => cases h

/-- A worker whose task follows the reports that are left is where the statuses told so far say. -/
theorem published_ofTask {t : Task} (h : Task.Follows ((jobReports n).drop k) t) :
    (ofTask t).Published n (begun n waited k) := by
  cases t with
  | report details next =>
    obtain ⟨rest, hdrop, hnext⟩ := h
    exact ⟨waited, k, rest, rfl, hdrop, hnext⟩
  | ask package test next => exact ⟨waited, k, rfl, h⟩
  | done outcome => exact ⟨waited, k, rfl, isTerminal_ofOutcome outcome⟩

/-- Going on with an inquiry stores nothing. -/
theorem published_ofInquiry {i j : Inquiry} {next : Except ReplayError Profile → Task}
    (h : (asking i next).Published n past) : (ofInquiry j next).Published n past := by
  obtain ⟨waited, k, rfl, hnext⟩ := h
  unfold ofInquiry
  split
  next => exact ⟨waited, k, rfl, hnext⟩
  next answer _ => exact published_ofTask (hnext answer)
  next => exact ⟨waited, k, rfl, isTerminal_ofOutcome _⟩

/-- What has been published is the beginning of a course. -/
theorem Published.exists_course (h : stage.Published n past) :
    ∃ waited k final, final.isTerminal ∧ past <+: course n waited k final := by
  have hbegun : ∀ waited k, ∃ waited' k' final, final.isTerminal ∧
      begun n waited k <+: course n waited' k' final :=
    fun waited k => ⟨waited, k, .failed "", rfl, List.prefix_append _ _⟩
  cases stage with
  | announcing =>
    subst h
    exact ⟨false, 0, .failed "", rfl, List.nil_prefix⟩
  | arriving => exact h ▸ hbegun false 0
  | telling => exact h ▸ hbegun false 0
  | queued => exact h ▸ hbegun true 0
  | reporting details next =>
    obtain ⟨waited, k, _, rfl, _⟩ := h
    exact hbegun waited k
  | asking i next =>
    obtain ⟨waited, k, rfl, _⟩ := h
    exact hbegun waited k
  | finishing s =>
    obtain ⟨waited, k, rfl, _⟩ := h
    exact hbegun waited k
  | ended =>
    obtain ⟨waited, k, s, rfl, hterminal⟩ := h
    exact ⟨waited, k, s, hterminal, List.prefix_rfl⟩

/-- Once a job is announced, something has been told. -/
theorem Published.ne_nil (h : stage.Published n past) (announced : stage ≠ announcing) :
    past ≠ [] := by
  cases stage with
  | announcing => exact absurd rfl announced
  | arriving | telling | queued =>
    rw [h]
    nofun
  | reporting =>
    obtain ⟨_, _, _, rfl, _⟩ := h
    nofun
  | asking | finishing =>
    obtain ⟨_, _, rfl, _⟩ := h
    nofun
  | ended =>
    obtain ⟨_, _, _, rfl, _⟩ := h
    nofun

end WorkerStage

namespace Worker

open JobStatus WorkerStage

variable {w : Worker} {n : Nat} {past : List JobStatus} {s : JobStatus}

/-- Once the status of its stage is stored, a worker goes on to a stage up to which all is
published. -/
theorem published_onReply (h : w.stage.Published n past) (announced : w.stage.announced? = some s)
    (profiles : Cache Payload) (reply : CacheReply Payload) :
    (w.onReply profiles reply).Published n (past ++ [s]) := by
  unfold onReply
  cases hstage : w.stage with
  | announcing =>
    rw [hstage] at h announced
    cases announced
    subst h
    rfl
  | telling =>
    rw [hstage] at h announced
    cases announced
    subst h
    rfl
  | reporting details next =>
    rw [hstage] at h announced
    cases announced
    obtain ⟨waited, k, rest, rfl, hdrop, hnext⟩ := h
    rw [← begun_succ hdrop]
    refine published_ofTask ?_
    rwa [← List.tail_drop, hdrop]
  | finishing s =>
    rw [hstage] at h announced
    cases announced
    obtain ⟨waited, k, rfl, hterminal⟩ := h
    exact ⟨waited, k, _, rfl, hterminal⟩
  -- In the other stages nothing is announced.
  | arriving | queued | asking | ended =>
    rw [hstage] at announced
    cases announced

end Worker

end CoverageReplay
