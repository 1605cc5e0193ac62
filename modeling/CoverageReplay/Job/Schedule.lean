import CoverageReplay.Job.Orchestrator
import CoverageReplay.Total

/-!
# Running jobs one after the other

A schedule in which the worker that was started first moves as long as it can. `settle` follows it
until no worker can move; tests whose answer is held back keep their workers waiting. The moves that
a job needs are bounded by the number of its tests.
-/

namespace CoverageReplay.Orchestrator

/-- A worker sends what it wants of a cache, the cache serves it, and the worker takes the reply. -/
def exchange? (o : Orchestrator) (n : Nat) (role : CacheRole) : Option Orchestrator :=
  o.run? [.send n, .serve role, .receive n]

/-- The next thing that a worker does, if it can. `held` says which tests the oracle does not answer
yet. -/
def workOn? (o : Orchestrator) (held : String → String → Bool) (n : Nat) : Option Orchestrator := do
  let w ← o.workers[n]?
  match w.request? with
  | some (role, _) => o.exchange? n role
  | none =>
    match w.consulting? with
    | some (package, test) => if held package test then none else o.step? (.answer n)
    | none => o.step? (.acquire n)

/-- The first worker that can do something does it. -/
def workOnFirst? (o : Orchestrator) (held : String → String → Bool) : Option Orchestrator :=
  (List.range o.workers.length).findSome? (o.workOn? held)

/-- Workers move, `most` times at most. -/
def settleWithin (held : String → String → Bool) : (most : Nat) → Orchestrator → Orchestrator
  | 0, o => o
  | most + 1, o =>
    match o.workOnFirst? held with
    | some next => settleWithin held most next
    | none => o

/-- How often workers move at most: a worker four times before and after its task, once for each
report and thrice for each question. -/
def moveBound (o : Orchestrator) : Nat :=
  total (o.workers.map fun w => 6 * w.job.tests.length + 10)

/-- Workers move until none can. -/
def settle (o : Orchestrator) (held : String → String → Bool) : Orchestrator :=
  settleWithin held o.moveBound o

/-- The number of the first worker that waits for an answer that is held back. -/
def firstHeld? (o : Orchestrator) (held : String → String → Bool) : Option Nat :=
  o.workers.findIdx? fun w => w.consulting?.any fun (package, test) => held package test

/-- The status of a job, from asking for it to taking the reply; `none` for an identifier of no
job. -/
def status (o : Orchestrator) (id : JobId) : Except ReplayError (Option JobStatus) :=
  let reader := o.readers.length
  match o.run? [.ask id, .serve .jobs, .read reader] with
  | some after => (after.readers[reader]?.bind StatusReader.answer).getD (.error o.jobs.closed)
  | none => .error o.jobs.closed

end CoverageReplay.Orchestrator
