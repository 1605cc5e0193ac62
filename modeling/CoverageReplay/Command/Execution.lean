import CoverageReplay.Command.Console
import CoverageReplay.Document.Order
import CoverageReplay.Document.Settings
import CoverageReplay.Job.Schedule
import CoverageReplay.Snapshots.Checkout
import CoverageReplay.Snapshots.Write
import CoverageReplay.TestOrder.Table

/-!
# Executing commands

`run` replays tests and keeps the snapshots, `order` prints the order of tests, `checkout` copies a
snapshot over a working tree. Profiles and sources are read from files as they are when the command
begins.
-/

namespace CoverageReplay

/-! ## Replaying -/

namespace RunArguments

/-- The job that is asked for. -/
def job (a : RunArguments) : JobConfig := ⟨a.package, a.tests, a.strategy⟩

/-- The identifier of the only job of a command. -/
def jobId : JobId := ⟨List.replicate 16 0⟩

/-- The result of the job, run alone. -/
def replay (settings : ReplayConfig) (a : RunArguments) (files : FileTree) :
    Except CommandError JobResult := do
  let sources := directorySources files a.root settings.verifyRender
  let o ← (Orchestrator.new settings (directoryOracle files a.profiles) sources).mapError .replay
  let o ← (o.start jobId a.job).mapError .replay
  match ← ((o.settle fun _ _ => false).status jobId).mapError .replay with
  | some (.complete result) => return result
  | some (.failed reason) => .error (.jobFailed reason)
  | some (.inProgress details) => .error (.jobFailed details)
  | none => .error (.jobFailed ("job " ++ jobId.text ++ " is not known"))

/-- The line for one snapshot. -/
def snapshotLine (e : ManifestEntry) : String :=
  "  " ++ e.dir ++ "  " ++ toString e.files.length ++ " file(s)\n"

/-- Prints what a run has kept. -/
def summarize (r : Reporter) (a : RunArguments) (m : Manifest) : Session Unit :=
  match a.format with
  | .json => Session.print (m.toJson.pretty ++ "\n")
  | .text => do
    r.say ("Replay of " ++ m.package ++ " (" ++ m.sort.name ++ ")")
    Session.print (String.join (m.snapshots.map snapshotLine))
    r.success (toString m.snapshots.length ++ " snapshot(s) written to " ++ a.out)

/-- Replays tests and keeps the snapshots. -/
def execute (settings : ReplayConfig) (r : Reporter) (a : RunArguments) : Session Unit := do
  match a.replay settings (← get).files with
  | .error e =>
    r.failure e.message
    throw e
  | .ok result =>
    summarize r a (← Session.act (writeSnapshots a.out a.package a.strategy result))

end RunArguments

/-! ## Ordering -/

/-- The profiles of tests, which must be different. -/
def collect (oracle : CoverageOracle) (package : String) (tests : List String) :
    Except ReplayError TestProfiles := do
  ensureDistinct tests
  let named ← tests.mapM fun test =>
    match oracle package test with
    | .answer result => result.map (test, ·)
    | .panic reason => .error (.workerPanicked reason)
  return .ofList named

namespace OrderArguments

/-- The tests in order with their counts. -/
def ranking (settings : ReplayConfig) (a : OrderArguments) (files : FileTree) :
    Except CommandError (List RankedTest) := do
  let profiles ← (collect (directoryOracle files a.profiles) a.package a.tests).mapError .replay
  return TestOrder.rank ⟨a.strategy, settings.weights⟩ profiles

/-- Prints the order of tests. -/
def execute (settings : ReplayConfig) (a : OrderArguments) : Session Unit := do
  let ranked ← Session.look (a.ranking settings)
  match a.format with
  | .json => Session.print ((Json.ofList RankedTest.toJson ranked).pretty ++ "\n")
  | .text => Session.print (OrderTable.render ranked)

end OrderArguments

/-! ## Checking out -/

/-- Copies a snapshot over a working tree. -/
def CheckoutArguments.execute (r : Reporter) (a : CheckoutArguments) : Session Unit := do
  let written ← Session.act (checkoutSnapshot a.out a.index a.root)
  if r.verbose then written.forM r.info
  r.success ("Snapshot " ++ toString a.index ++ " checked out (" ++ toString written.length ++
    " file(s))")

/-! ## All commands -/

namespace Invocation

/-- The settings of a replay. -/
def settings (i : Invocation) (files : FileTree) : Except CommandError ReplayConfig :=
  match i.config with
  | none => .ok .standard
  | some path =>
    (ReplayConfig.load files path).mapError fun e => .config (path ++ ": " ++ e.message)

/-- Does what is asked for. -/
def execute (terminal : Bool) (i : Invocation) : Session Unit := do
  let settings ← Session.look i.settings
  let r := Reporter.ofInvocation terminal i
  match i.command with
  | .run a => a.execute settings r
  | .order a => a.execute settings
  | .checkout a => a.execute r

end Invocation

end CoverageReplay
