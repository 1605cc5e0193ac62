import CoverageReplay.Assembly.Snapshot
import CoverageReplay.Oracle.Basic

/-!
# The steps of a job

A task is what a job does as far as others can tell: it reports its progress, asks for profiles, and
ends with a result or an error. What asks an oracle, and where reports go, is left to whoever runs
the task.
-/

namespace CoverageReplay

/-- What a job does, step by step. -/
inductive Task where
  | report (details : String) (next : Task)
  | ask (package test : String) (next : Except ReplayError Profile → Task)
  | done (outcome : Except ReplayError JobResult)

namespace Task

instance : Inhabited Task := ⟨.done (.ok ⟨[], []⟩)⟩

/-- The reports of a task and its outcome when an oracle answers all questions; an oracle that
breaks down ends the task. -/
def run (oracle : CoverageOracle) : Task → List String × Except ReplayError JobResult
  | .report details next =>
    let (reports, outcome) := next.run oracle
    (details :: reports, outcome)
  | .ask package test next =>
    match oracle package test with
    | .answer result => (next result).run oracle
    | .panic reason => ([], .error (.workerPanicked reason))
  | .done outcome => ([], outcome)

end Task

end CoverageReplay
