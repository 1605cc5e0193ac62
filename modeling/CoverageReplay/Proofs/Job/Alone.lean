import CoverageReplay.Job.Worker
import CoverageReplay.Proofs.Assembly.Orders
import CoverageReplay.Proofs.Oracle.Inquiry

/-!
# A worker and its task alone

A worker asks through a cache for what its task asks an oracle. As long as it is told what the
oracle knows (`Inquiry.Honest`), it comes to the outcome that the task has with the oracle alone:
`WorkerStage.Faithful` says what that means at a stage, and each step of a worker keeps it.
-/

namespace CoverageReplay

/-- Whether a task asks for tests of a kind only, whatever it is answered. -/
def Task.Asks (mine : String → String → Prop) : Task → Prop
  | .report _ next => next.Asks mine
  | .ask package test next => mine package test ∧ ∀ answer, (next answer).Asks mine
  | .done _ => True

namespace Assembler

variable {a : Assembler} {package : String} {mine : String → String → Prop}

/-- Assembling asks for no tests. -/
theorem asks_assembleFrom (order : List String) (profiles : TestProfiles)
    (snapshots : List Snapshot) (merged : MergedCoverage) (bench : Workbench) (rest : List String) :
    (a.assembleFrom order profiles snapshots merged bench rest).Asks mine := by
  induction rest generalizing snapshots merged bench with
  | nil => trivial
  | cons test rest ih =>
    rw [assembleFrom, Task.Asks]
    cases profiles.get? test with
    | none => trivial
    | some p =>
      dsimp only
      split
      next => trivial
      next => exact ih _ _ _

/-- Collecting asks for the tests of the job, and for no others. -/
theorem asks_collectFrom {total : Nat} {next : TestProfiles → Task} {tests : List String}
    (own : ∀ test ∈ tests, mine package test) (asks : ∀ profiles, (next profiles).Asks mine)
    (profiles : TestProfiles) : (collectFrom package total next profiles tests).Asks mine := by
  induction tests generalizing profiles with
  | nil => exact asks profiles
  | cons test rest ih =>
    rw [collectFrom, Task.Asks, Task.Asks]
    refine ⟨own test List.mem_cons_self, fun answer => ?_⟩
    cases answer with
    | error e => trivial
    | ok p => exact ih (fun test h => own test (List.mem_cons_of_mem _ h)) _

/-- A job asks for its own tests only. -/
theorem asks_run (a : Assembler) (package : String) (tests : List String) :
    (a.run package tests).Asks fun package' test => package' = package ∧ test ∈ tests := by
  unfold run collectProfiles
  split
  next => trivial
  next =>
    refine asks_collectFrom ?_ (fun profiles => ?_) _
    · exact fun test h => ⟨rfl, h⟩
    · exact asks_assembleFrom ..

end Assembler

/-- What a task comes to when an oracle answers a question. -/
def OracleOutcome.settle (oracle : CoverageOracle) (next : Except ReplayError Profile → Task) :
    OracleOutcome → Except ReplayError JobResult
  | .answer result => ((next result).run oracle).2
  | .panic reason => .error (.workerPanicked reason)

/-- A task that asks goes on with what the oracle has to say. -/
theorem Task.run_ask (oracle : CoverageOracle) (package test : String)
    (next : Except ReplayError Profile → Task) :
    ((ask package test next).run oracle).2 = (oracle package test).settle oracle next := by
  rw [run]
  cases oracle package test with
  | answer => rfl
  | panic => rfl

namespace WorkerStage

variable {oracle : CoverageOracle} {mine : String → String → Prop}
  {outcome : Except ReplayError JobResult} {t : Task}

/-- Whether a worker at a stage still comes to an outcome, and asks for tests of its own only. -/
def Faithful (oracle : CoverageOracle) (mine : String → String → Prop)
    (outcome : Except ReplayError JobResult) : WorkerStage → Prop
  | reporting _ next => (next.run oracle).2 = outcome ∧ next.Asks mine
  | asking i next =>
    (oracle i.package i.test).settle oracle next = outcome ∧ mine i.package i.test ∧
      (∀ answer, (next answer).Asks mine) ∧ i.Honest oracle
  | finishing s => s = .ofOutcome outcome
  | _ => True

/-- A worker at the stage of a task is faithful to what that task comes to. -/
theorem faithful_ofTask (h : (t.run oracle).2 = outcome) (asks : t.Asks mine) :
    (ofTask t).Faithful oracle mine outcome := by
  cases t with
  | report details next => exact ⟨h, asks⟩
  | ask package test next =>
    rw [Task.run_ask] at h
    exact ⟨h, asks.1, asks.2, trivial⟩
  | done result =>
    subst h
    rfl

/-- A worker goes on with its inquiry as long as that is honest. -/
theorem faithful_ofInquiry {i j : Inquiry} {next : Except ReplayError Profile → Task}
    (h : (asking i next).Faithful oracle mine outcome)
    (same : j.package = i.package ∧ j.test = i.test) (honest : j.Honest oracle) :
    (ofInquiry j next).Faithful oracle mine outcome := by
  obtain ⟨hsettle, hmine, hasks, _⟩ := h
  rw [← same.1, ← same.2] at hsettle hmine
  unfold ofInquiry Inquiry.outcome?
  cases hstage : j.stage with
  | looking | consulting | keeping => exact ⟨hsettle, hmine, hasks, honest⟩
  | done answer =>
    unfold Inquiry.Honest at honest
    rw [hstage] at honest
    rw [honest] at hsettle
    cases answer with
    | answer result => exact faithful_ofTask hsettle (hasks result)
    | panic reason => exact hsettle ▸ rfl

end WorkerStage

end CoverageReplay
