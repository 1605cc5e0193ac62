import CoverageReplay.Coverage.Merged
import CoverageReplay.Error
import CoverageReplay.Tree.Identifiers

/-!
# Removing dead code

A pass walks every function body once and removes

1. statements that start at a dead position, 2. `else` branches that are dead or that removing has
emptied, 3. match arms whose body is dead or has been emptied, 4. structures that removing has
emptied: `if` without branches, `for` and `while` loops, blocks, and `match` without arms, 5. `let`
bindings of a single identifier, not beginning with a low line, that were mentioned later as the
code was written and no longer are.

`SourceTree.prune?` repeats passes until one removes nothing. Function bodies are never removed.

Each function of a pass gives what is left and the holes of what was removed, in the order of
removing.
-/

namespace CoverageReplay

/-- Whether a statement is a `let` that lost all later mentions, `later` being the names mentioned
after it. -/
def Node.isUnusedBinding (later : List String) (n : Node) : Bool :=
  match n.kind with
  | .binding (some name) true => !name.startsWith "_" && !later.contains name
  | _ => false

/-- Removes the bindings that lost all later mentions, the last ones first, so that a binding that
only another removed one mentions goes too. The second part lists the names mentioned in what is
left. -/
def dropUnused : List Node → List Node × List String × List Hole
  | [] => ([], [], [])
  | n :: rest =>
    let (kept, later, cuts) := dropUnused rest
    if n.isUnusedBinding later then (kept, later, cuts ++ [n.hole])
    else (n :: kept, n.identifiers ++ later, cuts)

mutual

/-- Removes dead code in a body. -/
def Body.sweep (dead : Position → Bool) : Body → Body × List Hole
  | .mk opening closeEnd nodes pruned =>
    let (swept, cuts) := Body.sweepNodes dead nodes
    let (kept, _, unused) := dropUnused swept
    (.mk opening closeEnd kept (pruned || kept.length < nodes.length), cuts ++ unused)

/-- Removes dead statements, and dead code in the others. -/
def Body.sweepNodes (dead : Position → Bool) : List Node → List Node × List Hole
  | [] => ([], [])
  | n :: rest =>
    let (kept, more) := Body.sweepNodes dead rest
    if dead n.start then (kept, n.hole :: more)
    else
      let (swept, cuts) := n.sweep dead
      if swept.isVacuous then (kept, cuts ++ n.hole :: more) else (swept :: kept, cuts ++ more)

/-- Removes dead code inside a statement. -/
def Node.sweep (dead : Position → Bool) : Node → Node × List Hole
  | .mk start hole idents kind =>
    let (swept, cuts) := kind.sweep dead
    (.mk start hole idents swept, cuts)

/-- Removes dead code inside a statement of some kind. -/
def NodeKind.sweep (dead : Position → Bool) : NodeKind → NodeKind × List Hole
  | .leaf => (.leaf, [])
  | .binding name used => (.binding name used, [])
  | .block body removable =>
    let (swept, cuts) := body.sweep dead
    (.block swept removable, cuts)
  | .loop body removable =>
    let (swept, cuts) := body.sweep dead
    (.loop swept removable, cuts)
  | .branch yes no lostElse =>
    let (sweptYes, cuts) := yes.sweep dead
    let (sweptNo, lost, more) := no.sweep dead
    (.branch sweptYes sweptNo (lostElse || lost), cuts ++ more)
  | .select arms pruned =>
    let (kept, cuts) := NodeKind.sweepArms dead arms
    (.select kept (pruned || kept.length < arms.length), cuts)

/-- Removes an `else` branch, or dead code inside it. The second part tells whether it is
removed. -/
def Otherwise.sweep (dead : Position → Bool) : Otherwise → Otherwise × Bool × List Hole
  | .absent => (.absent, false, [])
  | .block hole body =>
    let (swept, cuts) := body.sweep dead
    if swept.isEmptied then (.absent, true, cuts ++ [hole]) else (.block hole swept, false, cuts)
  | .chain hole node =>
    if dead node.start then (.absent, true, [hole])
    else
      let (swept, cuts) := node.sweep dead
      if swept.isVacuous then (.absent, true, cuts ++ [hole]) else (.chain hole swept, false, cuts)

/-- Removes dead arms, and dead code in the others. -/
def NodeKind.sweepArms (dead : Position → Bool) : List Arm → List Arm × List Hole
  | [] => ([], [])
  | a :: rest =>
    let (kept, more) := NodeKind.sweepArms dead rest
    if dead a.start then (kept, a.hole :: more)
    else
      let (swept, emptied, cuts) := a.sweep dead
      if emptied then (kept, cuts ++ a.hole :: more) else (swept :: kept, cuts ++ more)

/-- Removes dead code inside an arm. The second part tells whether its block was emptied. -/
def Arm.sweep (dead : Position → Bool) : Arm → Arm × Bool × List Hole
  | .flat start hole idents => (.flat start hole idents, false, [])
  | .block start hole idents body =>
    let (swept, cuts) := body.sweep dead
    (.block start hole idents swept, swept.isEmptied, cuts)

end

/-- How much pruning did. -/
structure PruneStats where
  /-- The passes run, the last one, which removed nothing, included. -/
  passes : Nat
  /-- The pieces removed by all passes. -/
  removed : Nat
  deriving DecidableEq, Repr, Inhabited

namespace SourceTree

/-- Removes dead code in some bodies. -/
def sweepBodies (dead : Position → Bool) : List Body → List Body × List Hole
  | [] => ([], [])
  | b :: rest =>
    let (swept, cuts) := b.sweep dead
    let (others, more) := sweepBodies dead rest
    (swept :: others, cuts ++ more)

/-- One pass, and the number of pieces it removed. A file without coverage stays as it is. -/
def pass (coverage : MergedCoverage) (t : SourceTree) : SourceTree × Nat :=
  match coverage.file? t.path with
  | none => (t, 0)
  | some file =>
    let (bodies, cuts) := sweepBodies file.isDead t.bodies
    ({ t with bodies, holes := t.holes ++ cuts }, cuts.length)

/-- Passes until one removes nothing, at most `left` more of them. -/
def pruneFrom (coverage : MergedCoverage) (stats : PruneStats) :
    (left : Nat) → SourceTree → Option (SourceTree × PruneStats)
  | 0, _ => none
  | left + 1, t =>
    let (next, removed) := t.pass coverage
    let stats := ⟨stats.passes + 1, stats.removed + removed⟩
    if removed = 0 then some (next, stats) else pruneFrom coverage stats left next

/-- Removes all dead code, in at most `maxPasses` passes. -/
def prune? (coverage : MergedCoverage) (maxPasses : Nat) (t : SourceTree) :
    Except ReplayError (SourceTree × PruneStats) :=
  match pruneFrom coverage ⟨0, 0⟩ maxPasses t with
  | some done => .ok done
  | none => .error (.pruneDiverged t.path maxPasses)

end SourceTree

end CoverageReplay
