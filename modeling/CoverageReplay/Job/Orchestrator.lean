import CoverageReplay.Assembly.Assembler
import CoverageReplay.Config
import CoverageReplay.Job.Worker

/-!
# Orchestrators

An orchestrator runs jobs at the same time, as many as it has slots. It is a machine: each `Move` is
one step of a worker, of one of the two caches, or of somebody who starts a job or asks for a
status, and `step?` tells what the move does, or that it is not possible. Every order of moves is a
run.

The jobs cache keeps the status of each job under its identifier, the profiles cache the profiles
that the oracle has given. `active` counts the jobs whose start has returned and whose final status
is not stored.
-/

namespace CoverageReplay

/-- Somebody who asks for the status of a job. -/
structure StatusReader where
  id : JobId
  /-- The answer, once there is one. -/
  answer : Option (Except ReplayError (Option JobStatus))

/-- Runs jobs. -/
structure Orchestrator where
  config : ReplayConfig
  oracle : CoverageOracle
  sources : SourceSet
  jobs : Cache Payload
  profiles : Cache Payload
  /-- The slots that are free. -/
  free : Nat
  /-- The jobs that count as running. -/
  active : Nat
  /-- The workers in the order in which their jobs were started. -/
  workers : List Worker
  /-- Those who asked for a status, in the order in which they asked. -/
  readers : List StatusReader
  /-- The tests that the oracle has been consulted for. -/
  consulted : List (String × String)

/-- One step of a run. -/
inductive Move where
  /-- Somebody starts a job, under an identifier made for it. -/
  | start (id : JobId) (job : JobConfig)
  /-- A worker sends what it wants of a cache. -/
  | send (worker : Nat)
  /-- A worker takes the reply. -/
  | receive (worker : Nat)
  /-- A worker takes a slot, or joins those who wait for one. -/
  | acquire (worker : Nat)
  /-- The oracle answers a worker. -/
  | answer (worker : Nat)
  /-- A cache serves a request. -/
  | serve (cache : CacheRole)
  /-- Somebody asks for the status of a job. -/
  | ask (id : JobId)
  /-- Somebody who asked for a status takes the reply. -/
  | read (reader : Nat)

namespace Orchestrator

/-- An orchestrator without jobs. -/
def new (config : ReplayConfig) (oracle : CoverageOracle) (sources : SourceSet) :
    Except ReplayError Orchestrator := do
  config.validate
  return { config, oracle, sources
           jobs := .spawn "jobs" config.cacheQueueDepth
           profiles := .spawn "profiles" config.cacheQueueDepth
           free := config.maxConcurrentJobs
           active := 0, workers := [], readers := [], consulted := [] }

/-- What the snapshots of a job are made with. -/
def assembler (o : Orchestrator) (job : JobConfig) : Assembler :=
  ⟨o.sources, ⟨job.sort, o.config.weights⟩, o.config.maxPrunePasses⟩

/-- The cache of a role. -/
def cache (o : Orchestrator) : CacheRole → Cache Payload
  | .jobs => o.jobs
  | .profiles => o.profiles

/-- The orchestrator with another cache in a role. -/
def setCache (o : Orchestrator) (c : Cache Payload) : CacheRole → Orchestrator
  | .jobs => { o with jobs := c }
  | .profiles => { o with profiles := c }

/-- The number that tells a worker apart from the other clients of a cache. -/
def workerClient (n : Nat) : Client := 2 * n

/-- The number that tells a reader apart from the other clients of a cache. -/
def readerClient (n : Nat) : Client := 2 * n + 1

/-- A truth value as a count. -/
def one (b : Bool) : Nat := if b then 1 else 0

/-- A worker goes on to another stage. Its slot and its place among the active jobs follow, and a
consultation that begins is noted. -/
def goOn (o : Orchestrator) (n : Nat) (w : Worker) (stage : WorkerStage) : Orchestrator :=
  let next := { w with stage, sent := false }
  { o with
    workers := o.workers.set n next
    free := o.free + one w.stage.holdsSlot - one stage.holdsSlot
    active := o.active + one stage.isActive - one w.stage.isActive
    consulted := o.consulted ++ next.consulting?.toList }

/-- Somebody starts a job, which must not name a test twice. -/
def start (o : Orchestrator) (id : JobId) (job : JobConfig) : Except ReplayError Orchestrator := do
  job.validate
  let task := (o.assembler job).run job.package job.tests
  return { o with workers := o.workers ++ [.start id job task] }

/-- A worker sends what it wants of a cache. -/
def send? (o : Orchestrator) (n : Nat) : Option Orchestrator := do
  let w ← o.workers[n]?
  let (role, request) ← w.request?
  if w.sent then none
  else
    let c ← (o.cache role).send? (workerClient n) request
    return { o.setCache c role with workers := o.workers.set n { w with sent := true } }

/-- A worker takes the reply to what it sent. -/
def receive? (o : Orchestrator) (n : Nat) : Option Orchestrator := do
  let w ← o.workers[n]?
  let (role, _) ← w.request?
  if w.sent then
    let (reply, c) ← (o.cache role).receive? (workerClient n)
    return (o.setCache c role).goOn n w (w.onReply o.profiles reply)
  else none

/-- A worker takes a slot. One that finds none free tells so, and waits. -/
def acquire? (o : Orchestrator) (n : Nat) : Option Orchestrator := do
  let w ← o.workers[n]?
  match w.stage, o.free with
  | .arriving, 0 => return o.goOn n w .telling
  | .arriving, _ + 1 | .queued, _ + 1 => return o.goOn n w (.ofTask w.task)
  | _, _ => none

/-- The oracle answers a worker. -/
def answer? (o : Orchestrator) (n : Nat) : Option Orchestrator := do
  let w ← o.workers[n]?
  match w.stage with
  | .asking inquiry next =>
    let (package, test) ← w.consulting?
    return o.goOn n w (.ofInquiry (inquiry.onOutcome (o.oracle package test)) next)
  | _ => none

/-- A cache serves a request. -/
def serve? (o : Orchestrator) (role : CacheRole) : Option Orchestrator :=
  (o.cache role).serve?.map fun c => o.setCache c role

/-- Somebody asks for the status of a job. -/
def ask? (o : Orchestrator) (id : JobId) : Option Orchestrator := do
  let c ← o.jobs.send? (readerClient o.readers.length) (.read id.text)
  return { o with jobs := c, readers := o.readers ++ [⟨id, none⟩] }

/-- Somebody who asked for a status takes the reply. -/
def read? (o : Orchestrator) (n : Nat) : Option Orchestrator := do
  let reader ← o.readers[n]?
  let (reply, c) ← o.jobs.receive? (readerClient n)
  let answer := c.typed Payload.status? reader.id.text reply
  return { o with jobs := c, readers := o.readers.set n { reader with answer := some answer } }

/-- What a move does, if it is possible. -/
def step? (o : Orchestrator) : Move → Option Orchestrator
  | .start id job => (o.start id job).toOption
  | .send n => o.send? n
  | .receive n => o.receive? n
  | .acquire n => o.acquire? n
  | .answer n => o.answer? n
  | .serve role => o.serve? role
  | .ask id => o.ask? id
  | .read n => o.read? n

/-- What some moves do, one after the other, if all are possible. -/
def run? (o : Orchestrator) : List Move → Option Orchestrator
  | [] => some o
  | m :: rest => (o.step? m).bind (run? · rest)

end Orchestrator

end CoverageReplay
