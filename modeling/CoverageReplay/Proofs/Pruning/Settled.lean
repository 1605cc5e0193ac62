import CoverageReplay.Proofs.Pruning.Fresh

/-!
# One pass settles a tree

Removing cascades: a branch that loses its last statement goes, then the `if` around it, then the
`let` that only this `if` mentioned. `pass_settles` says that all this happens in a single pass: a
second pass removes nothing, also with other coverage that finds nothing dead but what was dead
before. So pruning is over after two passes, the second of which only looks. The tree may be marked
in any way, as long as the first pass sweeps it, which takes coverage of its file;
`pass_unsettled_emptied` shows a tree with a false mark that coverage without the file leaves to the
second pass.

The reason is that a sweep decides about a piece after it has swept the piece, so that each sweep
leaves only statements and arms that are *settled*: alive, not emptied, and left alone by a sweep.
-/

namespace CoverageReplay

/-! ## Statements and arms that a sweep leaves alone -/

/-- Whether a sweep keeps a statement as it is. -/
structure Node.IsSettled (dead : Position → Bool) (n : Node) : Prop where
  alive : dead n.start = false
  swept : n.sweep dead = (n, [])
  filled : n.isVacuous = false

/-- Whether a sweep keeps an arm as it is. -/
structure Arm.IsSettled (dead : Position → Bool) (m : Arm) : Prop where
  alive : dead m.start = false
  swept : m.sweep dead = (m, false, [])

section Lists

variable {dead : Position → Bool}

/-- A sweep keeps settled statements as they are. -/
theorem Body.sweepNodes_of_settled {nodes : List Node}
    (h : ∀ n ∈ nodes, n.IsSettled dead) : sweepNodes dead nodes = (nodes, []) := by
  induction nodes with
  | nil => rfl
  | cons n rest ih =>
    have hn := h n (List.mem_cons_self ..)
    have hrest := ih fun k hk => h k (List.mem_cons_of_mem _ hk)
    simp [sweepNodes, hrest, hn.alive, hn.swept, hn.filled]

/-- A sweep keeps settled arms as they are. -/
theorem NodeKind.sweepArms_of_settled {arms : List Arm}
    (h : ∀ m ∈ arms, m.IsSettled dead) : sweepArms dead arms = (arms, []) := by
  induction arms with
  | nil => rfl
  | cons m rest ih =>
    have hm := h m (List.mem_cons_self ..)
    have hrest := ih fun k hk => h k (List.mem_cons_of_mem _ hk)
    simp [sweepArms, hrest, hm.alive, hm.swept]

/-- The names that are still needed are those that the kept statements mention. -/
theorem dropUnused_names (nodes : List Node) :
    (dropUnused nodes).2.1 = Body.nodesIdentifiers (dropUnused nodes).1 := by
  induction nodes with
  | nil => rfl
  | cons n rest ih =>
    simp only [dropUnused]
    split
    next => exact ih
    next => simp only [Body.nodesIdentifiers, ih]

/-- What is left when unused bindings are dropped was there before. -/
theorem mem_of_mem_dropUnused {nodes : List Node} {n : Node} (h : n ∈ (dropUnused nodes).1) :
    n ∈ nodes := by
  induction nodes with
  | nil => exact h
  | cons k rest ih =>
    simp only [dropUnused] at h
    split at h
    next => exact List.mem_cons_of_mem _ (ih h)
    next =>
      rcases List.mem_cons.mp h with rfl | hrest
      · exact List.mem_cons_self ..
      · exact List.mem_cons_of_mem _ (ih hrest)

/-- Dropping unused bindings a second time drops none. -/
theorem dropUnused_dropUnused (nodes : List Node) :
    dropUnused (dropUnused nodes).1 = ((dropUnused nodes).1, (dropUnused nodes).2.1, []) := by
  -- By `ih` the names needed by later statements are the same the second time, so are the answers.
  induction nodes with
  | nil => rfl
  | cons n rest ih =>
    simp only [dropUnused]
    split
    next => exact ih
    next hkeep => simp [dropUnused, ih, hkeep]

/-- A sweep leaves a body alone if its statements are settled and none is an unused binding. -/
theorem Body.sweep_of_settled {b : Body} {names : List String}
    (settled : ∀ n ∈ b.nodes, n.IsSettled dead)
    (used : dropUnused b.nodes = (b.nodes, names, [])) : b.sweep dead = (b, []) := by
  obtain ⟨opening, closeEnd, nodes, pruned⟩ := b
  have hswept := sweepNodes_of_settled settled
  simp only [Body.nodes] at hswept used
  simp [sweep, hswept, used]

end Lists

/-- A sweep leaves a statement at its start. -/
@[simp] theorem Node.start_sweep (dead : Position → Bool) (n : Node) :
    (n.sweep dead).1.start = n.start := by
  cases n
  rfl

/-- A sweep leaves an arm at its start. -/
@[simp] theorem Arm.start_sweep (dead : Position → Bool) (m : Arm) :
    (m.sweep dead).1.start = m.start := by
  cases m with
  | flat => rfl
  | block => rfl

/-! ## What a sweep leaves is settled -/

section SweepSweep

variable {dead dead' : Position → Bool}

mutual

/-- A second sweep of a body, with nothing dead that was not dead before, removes nothing. -/
theorem Body.sweep_sweep (fewer : ∀ p, dead' p → dead p) :
    ∀ b : Body, (b.sweep dead).1.sweep dead' = ((b.sweep dead).1, [])
  | .mk _ _ nodes _ =>
    Body.sweep_of_settled
      (fun n hn => Body.isSettled_of_mem_sweepNodes fewer nodes n (mem_of_mem_dropUnused hn))
      (dropUnused_dropUnused _)

/-- What a sweep leaves of some statements is settled. -/
theorem Body.isSettled_of_mem_sweepNodes (fewer : ∀ p, dead' p → dead p) :
    ∀ (nodes : List Node), ∀ n ∈ (Body.sweepNodes dead nodes).1, n.IsSettled dead'
  | [], n, hn => absurd hn (List.not_mem_nil)
  | k :: rest, n, hn => by
    simp only [Body.sweepNodes] at hn
    split at hn
    next => exact Body.isSettled_of_mem_sweepNodes fewer rest n hn
    next halive =>
      split at hn
      next => exact Body.isSettled_of_mem_sweepNodes fewer rest n hn
      next hfilled =>
        -- The sweep asks whether a statement is vacuous after it has swept it, so the answer holds
        -- of what it leaves.
        rcases List.mem_cons.mp hn with rfl | hrest
        · refine ⟨?_, Node.sweep_sweep fewer k, Bool.eq_false_iff.mpr hfilled⟩
          rw [Node.start_sweep]
          exact Bool.eq_false_iff.mpr fun hdead => halive (fewer _ hdead)
        · exact Body.isSettled_of_mem_sweepNodes fewer rest n hrest

/-- Sweeping what a sweep left of a statement changes nothing. -/
theorem Node.sweep_sweep (fewer : ∀ p, dead' p → dead p) :
    ∀ n : Node, (n.sweep dead).1.sweep dead' = ((n.sweep dead).1, [])
  | .mk start hole idents kind => by
    simp only [Node.sweep, NodeKind.sweep_sweep fewer kind]

theorem NodeKind.sweep_sweep (fewer : ∀ p, dead' p → dead p) :
    ∀ k : NodeKind, (k.sweep dead).1.sweep dead' = ((k.sweep dead).1, [])
  | .leaf => rfl
  | .binding _ _ => rfl
  | .block body _ => by simp only [NodeKind.sweep, Body.sweep_sweep fewer body]
  | .loop body _ => by simp only [NodeKind.sweep, Body.sweep_sweep fewer body]
  | .branch yes no lostElse => by
    simp [NodeKind.sweep, Body.sweep_sweep fewer yes, Otherwise.sweep_sweep fewer no]
  | .select arms pruned => by
    have hsettled := NodeKind.sweepArms_of_settled (NodeKind.isSettled_of_mem_sweepArms fewer arms)
    simp [NodeKind.sweep, hsettled]

/-- Sweeping what a sweep left of an `else` branch changes nothing. -/
theorem Otherwise.sweep_sweep (fewer : ∀ p, dead' p → dead p) :
    ∀ o : Otherwise, (o.sweep dead).1.sweep dead' = ((o.sweep dead).1, false, [])
  | .absent => rfl
  | .block hole body => by
    simp only [Otherwise.sweep]
    split
    next => rfl
    next hfilled => simp [Otherwise.sweep, Body.sweep_sweep fewer body, hfilled]
  | .chain hole n => by
    simp only [Otherwise.sweep]
    split
    next => rfl
    next halive =>
      split
      next => rfl
      next hfilled =>
        have halive' : ¬ dead' n.start := fun hdead => halive (fewer _ hdead)
        simp [Otherwise.sweep, halive', Node.sweep_sweep fewer n, hfilled]

/-- What a sweep leaves of some arms is settled. -/
theorem NodeKind.isSettled_of_mem_sweepArms (fewer : ∀ p, dead' p → dead p) :
    ∀ (arms : List Arm), ∀ m ∈ (NodeKind.sweepArms dead arms).1, m.IsSettled dead'
  | [], m, hm => absurd hm (List.not_mem_nil)
  | k :: rest, m, hm => by
    simp only [NodeKind.sweepArms] at hm
    split at hm
    next => exact NodeKind.isSettled_of_mem_sweepArms fewer rest m hm
    next halive =>
      split at hm
      next => exact NodeKind.isSettled_of_mem_sweepArms fewer rest m hm
      next hfilled =>
        rcases List.mem_cons.mp hm with rfl | hrest
        · refine ⟨?_, Arm.sweep_sweep fewer k (Bool.eq_false_iff.mpr hfilled)⟩
          rw [Arm.start_sweep]
          exact Bool.eq_false_iff.mpr fun hdead => halive (fewer _ hdead)
        · exact NodeKind.isSettled_of_mem_sweepArms fewer rest m hrest

/-- Sweeping what a sweep left of an arm changes nothing. -/
theorem Arm.sweep_sweep (fewer : ∀ p, dead' p → dead p) :
    ∀ m : Arm, (m.sweep dead).2.1 = false →
      (m.sweep dead).1.sweep dead' = ((m.sweep dead).1, false, [])
  | .flat _ _ _, _ => rfl
  | .block start hole idents body, hfilled => by
    simp only [Arm.sweep] at hfilled
    simp only [Arm.sweep, Body.sweep_sweep fewer body, hfilled]

end

/-- Sweeping what a sweep left of the bodies of a file changes nothing. -/
theorem SourceTree.sweepBodies_sweepBodies (fewer : ∀ p, dead' p → dead p) (bodies : List Body) :
    sweepBodies dead' (sweepBodies dead bodies).1 = ((sweepBodies dead bodies).1, []) := by
  induction bodies with
  | nil => rfl
  | cons b rest ih => simp [sweepBodies, ih, Body.sweep_sweep fewer b]

end SweepSweep

/-! ## Fresh trees in which nothing is dead -/

mutual

/-- The positions in a body at which coverage is looked up: where statements, the `if` of an
`else if` and the bodies of match arms start, at any depth. -/
def Body.starts : Body → List Position
  | .mk _ _ nodes _ => Body.nodesStarts nodes

/-- Those of some statements. -/
def Body.nodesStarts : List Node → List Position
  | [] => []
  | n :: rest => n.starts ++ Body.nodesStarts rest

/-- That of a statement and those in it. -/
def Node.starts : Node → List Position
  | .mk start _ _ kind => start :: kind.starts

/-- Those in a statement of some kind. -/
def NodeKind.starts : NodeKind → List Position
  | .leaf => []
  | .binding _ _ => []
  | .block body _ => body.starts
  | .loop body _ => body.starts
  | .branch yes no _ => yes.starts ++ no.starts
  | .select arms _ => NodeKind.armsStarts arms

/-- Those of an `else` branch. A block has none of its own. -/
def Otherwise.starts : Otherwise → List Position
  | .absent => []
  | .block _ body => body.starts
  | .chain _ n => n.starts

/-- Those of some arms. -/
def NodeKind.armsStarts : List Arm → List Position
  | [] => []
  | m :: rest => m.starts ++ NodeKind.armsStarts rest

/-- That of an arm and those in it. -/
def Arm.starts : Arm → List Position
  | .flat start _ _ => [start]
  | .block start _ _ body => start :: body.starts

end

/-- The positions at which coverage is looked up in a tree. -/
def SourceTree.starts (t : SourceTree) : List Position :=
  t.bodies.flatMap Body.starts

/-- Whether none of some positions is dead. -/
def AllAlive (dead : Position → Bool) (ps : List Position) : Prop :=
  ∀ p ∈ ps, dead p = false

instance (dead : Position → Bool) (ps : List Position) : Decidable (AllAlive dead ps) :=
  inferInstanceAs (Decidable (∀ p ∈ ps, dead p = false))

@[simp] theorem allAlive_cons {dead : Position → Bool} {p : Position} {ps : List Position} :
    AllAlive dead (p :: ps) ↔ dead p = false ∧ AllAlive dead ps :=
  List.forall_mem_cons

@[simp] theorem allAlive_append {dead : Position → Bool} {ps qs : List Position} :
    AllAlive dead (ps ++ qs) ↔ AllAlive dead ps ∧ AllAlive dead qs :=
  List.forall_mem_append

/-- In a fresh body no binding is unused. -/
theorem dropUnused_of_fresh {nodes : List Node} (h : Body.nodesFresh nodes) :
    dropUnused nodes = (nodes, Body.nodesIdentifiers nodes, []) := by
  induction nodes with
  | nil => rfl
  | cons n rest ih =>
    simp only [Body.nodesFresh, Bool.and_eq_true] at h
    obtain ⟨⟨_, hmark⟩, hrest⟩ := h
    have hused : n.isUnusedBinding (Body.nodesIdentifiers rest) = false := by
      unfold Node.isUnusedBinding
      unfold Node.markHolds at hmark
      split
      next name hkind =>
        rw [hkind] at hmark
        simp only [Bool.and_eq_false_iff, Bool.not_eq_false', List.contains_iff_mem]
        exact Or.inr ((Body.nodesMention_iff name rest).mp hmark)
      next => rfl
    simp [dropUnused, ih hrest, hused, Body.nodesIdentifiers]

section Fresh

variable {dead : Position → Bool}

mutual

/-- A sweep that finds nothing dead in a fresh body leaves it alone. -/
theorem Body.sweep_of_alive :
    ∀ b : Body, b.isFresh → AllAlive dead b.starts → b.sweep dead = (b, [])
  | .mk _ _ nodes _, h, alive =>
    have hnodes := (Bool.and_eq_true _ _ ▸ h).2
    Body.sweep_of_settled (Body.isSettled_of_alive nodes hnodes alive) (dropUnused_of_fresh hnodes)

/-- Fresh statements in which no position is dead are settled. -/
theorem Body.isSettled_of_alive :
    ∀ nodes : List Node, Body.nodesFresh nodes → AllAlive dead (Body.nodesStarts nodes) →
      ∀ n ∈ nodes, n.IsSettled dead
  | [], _, _, n, hn => absurd hn (List.not_mem_nil)
  | k :: rest, h, alive, n, hn => by
    simp only [Body.nodesFresh, Bool.and_eq_true] at h
    rw [Body.nodesStarts, allAlive_append] at alive
    rcases List.mem_cons.mp hn with heq | hrest
    · rw [heq]
      obtain ⟨hstart, hswept⟩ := Node.sweep_of_alive k h.1.1 alive.1
      exact ⟨hstart, hswept, Node.isVacuous_of_isFresh h.1.1⟩
    · exact Body.isSettled_of_alive rest h.2 alive.2 n hrest

/-- A sweep leaves a fresh statement as it is if no position in it is dead. -/
theorem Node.sweep_of_alive :
    ∀ n : Node, n.isFresh → AllAlive dead n.starts → dead n.start = false ∧ n.sweep dead = (n, [])
  | .mk start hole idents kind, h, alive => by
    rw [Node.starts, allAlive_cons] at alive
    refine ⟨alive.1, ?_⟩
    rw [Node.sweep, NodeKind.sweep_of_alive kind h alive.2]

theorem NodeKind.sweep_of_alive :
    ∀ k : NodeKind, k.isFresh → AllAlive dead k.starts → k.sweep dead = (k, [])
  | .leaf, _, _ => rfl
  | .binding _ _, _, _ => rfl
  | .block body _, h, alive => by rw [NodeKind.sweep, Body.sweep_of_alive body h alive]
  | .loop body _, h, alive => by rw [NodeKind.sweep, Body.sweep_of_alive body h alive]
  | .branch yes no lostElse, h, alive => by
    simp only [NodeKind.isFresh, Bool.and_eq_true] at h
    rw [NodeKind.starts, allAlive_append] at alive
    simp [NodeKind.sweep, Body.sweep_of_alive yes h.1.2 alive.1,
      Otherwise.sweep_of_alive no h.2 alive.2]
  | .select arms pruned, h, alive => by
    simp only [NodeKind.isFresh, Bool.and_eq_true] at h
    simp [NodeKind.sweep,
      NodeKind.sweepArms_of_settled (NodeKind.isSettled_of_alive arms h.2 alive)]

/-- A sweep leaves a fresh `else` branch as it is if no position in it is dead. -/
theorem Otherwise.sweep_of_alive :
    ∀ o : Otherwise, o.isFresh → AllAlive dead o.starts → o.sweep dead = (o, false, [])
  | .absent, _, _ => rfl
  | .block hole body, h, alive => by
    simp [Otherwise.sweep, Body.sweep_of_alive body h alive, Body.isEmptied_of_isFresh h]
  | .chain hole n, h, alive => by
    obtain ⟨hstart, hswept⟩ := Node.sweep_of_alive n h alive
    simp [Otherwise.sweep, hstart, hswept, Node.isVacuous_of_isFresh h]

/-- Fresh arms in which no position is dead are settled. -/
theorem NodeKind.isSettled_of_alive :
    ∀ arms : List Arm, NodeKind.armsFresh arms → AllAlive dead (NodeKind.armsStarts arms) →
      ∀ m ∈ arms, m.IsSettled dead
  | [], _, _, m, hm => absurd hm (List.not_mem_nil)
  | k :: rest, h, alive, m, hm => by
    simp only [NodeKind.armsFresh, Bool.and_eq_true] at h
    rw [NodeKind.armsStarts, allAlive_append] at alive
    rcases List.mem_cons.mp hm with heq | hrest
    · rw [heq]
      exact Arm.isSettled_of_alive k h.1 alive.1
    · exact NodeKind.isSettled_of_alive rest h.2 alive.2 m hrest

/-- A fresh arm in which no position is dead is settled. -/
theorem Arm.isSettled_of_alive :
    ∀ m : Arm, m.isFresh → AllAlive dead m.starts → m.IsSettled dead
  | .flat _ _ _, _, alive => ⟨(allAlive_cons.mp alive).1, rfl⟩
  | .block start hole idents body, h, alive => by
    rw [Arm.starts, allAlive_cons] at alive
    refine ⟨alive.1, ?_⟩
    simp [Arm.sweep, Body.sweep_of_alive body h alive.2, Body.isEmptied_of_isFresh h]

end

/-- A sweep leaves the fresh bodies of a file as they are if no position in them is dead. -/
theorem SourceTree.sweepBodies_of_alive {bodies : List Body} (h : bodies.all Body.isFresh)
    (alive : AllAlive dead (bodies.flatMap Body.starts)) :
    sweepBodies dead bodies = (bodies, []) := by
  induction bodies with
  | nil => rfl
  | cons b rest ih =>
    rw [List.all_cons, Bool.and_eq_true] at h
    rw [List.flatMap_cons, allAlive_append] at alive
    simp [sweepBodies, ih h.2 alive.2, Body.sweep_of_alive b h.1 alive.1]

end Fresh

/-! ## Passes over a tree -/

namespace SourceTree

/-- The trees that there are: those that lowering gives, and what passes leave of them. -/
inductive Reachable : SourceTree → Prop where
  | lowered {path source : String} {t : SourceTree}
    (parsed : SourceTree.parse? path source = .ok t) : Reachable t
  | passed {t : SourceTree} (m : MergedCoverage) (before : Reachable t) : Reachable (t.pass m).1

/-- A tree with its bodies swept. -/
def swept (dead : Position → Bool) (t : SourceTree) : SourceTree × Nat :=
  let (bodies, cuts) := sweepBodies dead t.bodies
  ({ t with bodies, holes := t.holes ++ cuts }, cuts.length)

/-- Which positions of a file are dead is asked of what was merged of this file. -/
theorem isDead_of_file {m : MergedCoverage} {path : String} {file : FileCoverage}
    (h : m.file? path = some file) : m.isDead path = file.isDead := by
  funext p
  simp [MergedCoverage.isDead, h]

theorem isDead_of_no_file {m : MergedCoverage} {path : String} (h : m.file? path = none)
    (p : Position) : m.isDead path p = false := by
  simp [MergedCoverage.isDead, h]

/-- A pass sweeps a tree whose file has coverage. -/
theorem pass_of_file {m : MergedCoverage} {t : SourceTree} (h : (m.file? t.path).isSome) :
    t.pass m = t.swept (m.isDead t.path) := by
  obtain ⟨file, hfile⟩ := Option.isSome_iff_exists.mp h
  rw [isDead_of_file hfile]
  simp [pass, hfile, swept]

/-- A pass leaves a tree alone whose file has no coverage. -/
theorem pass_of_no_file {m : MergedCoverage} {t : SourceTree} (h : m.file? t.path = none) :
    t.pass m = (t, 0) := by
  simp [pass, h]

@[simp] theorem path_pass (m : MergedCoverage) (t : SourceTree) : (t.pass m).1.path = t.path := by
  unfold pass
  split
  next => rfl
  next => rfl

theorem swept_eq_self {dead : Position → Bool} {t : SourceTree}
    (h : sweepBodies dead t.bodies = (t.bodies, [])) : t.swept dead = (t, 0) := by
  simp [swept, h]

/-- A tree that a sweep has left is not changed by a sweep that finds nothing dead but what was dead
then. -/
theorem swept_swept {dead dead' : Position → Bool} (fewer : ∀ p, dead' p → dead p)
    (t : SourceTree) : (t.swept dead).1.swept dead' = ((t.swept dead).1, 0) :=
  swept_eq_self (sweepBodies_sweepBodies fewer t.bodies)

/-- Nothing that is alive is removed from a tree that lowering and passes have made. -/
theorem Reachable.swept_of_alive {t : SourceTree} (h : t.Reachable) {dead : Position → Bool}
    (alive : ∀ p, dead p = false) : t.swept dead = (t, 0) := by
  induction h with
  | lowered parsed =>
    exact swept_eq_self (sweepBodies_of_alive (isFresh_of_parse? parsed) fun p _ => alive p)
  | @passed t m before ih =>
    cases hfile : m.file? t.path with
    | none =>
      rw [pass_of_no_file hfile]
      exact ih
    | some file =>
      rw [pass_of_file (Option.isSome_of_eq_some hfile)]
      exact swept_swept (fun p hp => absurd hp (by simp [alive p])) t

/-- A second pass removes nothing if it finds nothing dead but what was dead in the first one, and
if the first one has swept the tree, the second one does not, or the tree is one that there is. -/
theorem pass_pass_eq {t : SourceTree} {m m' : MergedCoverage}
    (fewer : ∀ p, m'.isDead t.path p → m.isDead t.path p)
    (seen : (m.file? t.path).isSome ∨ m'.file? t.path = none ∨ t.Reachable) :
    (t.pass m).1.pass m' = ((t.pass m).1, 0) := by
  cases hfile' : m'.file? t.path with
  | none => exact pass_of_no_file (by rw [path_pass]; exact hfile')
  | some file' =>
    rw [pass_of_file (by rw [path_pass, hfile']; rfl), path_pass]
    cases hfile : m.file? t.path with
    | some file =>
      rw [pass_of_file (Option.isSome_of_eq_some hfile)]
      exact swept_swept fewer t
    | none =>
      -- The first pass has not looked at the tree, so it is as lowering and passes have made it.
      rw [pass_of_no_file hfile]
      rcases seen with hsome | hnone | hreach
      · rw [hfile] at hsome
        cases hsome
      · rw [hfile'] at hnone
        cases hnone
      · refine hreach.swept_of_alive fun p => Bool.eq_false_iff.mpr fun hdead => ?_
        have hdead' := fewer p hdead
        rw [isDead_of_no_file hfile] at hdead'
        cases hdead'

/-- A second pass under the same coverage removes nothing. -/
theorem pass_pass_self (t : SourceTree) (m : MergedCoverage) :
    (t.pass m).1.pass m = ((t.pass m).1, 0) := by
  refine pass_pass_eq (fun _ h => h) ?_
  cases hfile : m.file? t.path with
  | none => exact Or.inr (Or.inl rfl)
  | some file => exact Or.inl rfl

/-- With a ceiling of at least two, pruning is one pass, and one more to see that nothing is
left. -/
theorem prune?_eq (t : SourceTree) (m : MergedCoverage) {maxPasses : Nat} (two : 2 ≤ maxPasses) :
    t.prune? m maxPasses =
      .ok ((t.pass m).1, ⟨if (t.pass m).2 = 0 then 1 else 2, (t.pass m).2⟩) := by
  obtain ⟨left, rfl⟩ : ∃ left, maxPasses = left + 2 := ⟨maxPasses - 2, by omega⟩
  have hfrom : pruneFrom m ⟨0, 0⟩ (left + 2) t =
      some ((t.pass m).1, ⟨if (t.pass m).2 = 0 then 1 else 2, (t.pass m).2⟩) := by
    by_cases hzero : (t.pass m).2 = 0
    · simp [pruneFrom, hzero]
    · simp [pruneFrom, hzero, pass_pass_self]
  rw [prune?, hfrom]

/-- Whether coverage reports the same regions of a file as other coverage, and knows at least as
much of it to have run. -/
def Grows (path : String) (m m' : MergedCoverage) : Prop :=
  (m'.file? path).map FileCoverage.instrumented = (m.file? path).map FileCoverage.instrumented ∧
    ∀ file file', m.file? path = some file → m'.file? path = some file' →
      ∀ p, file.covered.contains p → file'.covered.contains p

/-- As coverage grows, fewer positions are dead. -/
theorem Grows.fewer {path : String} {m m' : MergedCoverage} (h : Grows path m m') (p : Position)
    (hdead : m'.isDead path p) : m.isDead path p := by
  obtain ⟨hsame, hmore⟩ := h
  cases hfile' : m'.file? path with
  | none =>
    rw [isDead_of_no_file hfile'] at hdead
    cases hdead
  | some file' =>
    cases hfile : m.file? path with
    | none =>
      rw [hfile, hfile'] at hsame
      cases hsame
    | some file =>
      rw [hfile, hfile'] at hsame
      injection hsame with hinst
      rw [isDead_of_file hfile'] at hdead
      rw [isDead_of_file hfile]
      simp only [FileCoverage.isDead, Bool.and_eq_true, Bool.not_eq_true', ← hinst] at hdead ⊢
      refine ⟨hdead.1, Bool.eq_false_iff.mpr fun hcovered => ?_⟩
      rw [hmore file file' hfile hfile' p hcovered] at hdead
      cases hdead.2

/-- As long as coverage grows it knows the same files. -/
theorem Grows.file?_eq_none {path : String} {m m' : MergedCoverage} (h : Grows path m m')
    (hfile : m.file? path = none) : m'.file? path = none := by
  have hsame := h.1
  rw [hfile] at hsame
  exact Option.map_eq_none_iff.mp hsame

/-- **One pass settles a tree.** A second pass removes nothing and changes nothing, whatever the
tree and whatever is marked in it, also with coverage that finds fewer positions dead. (A file of
which coverage knows nothing is not swept; then the tree has to be one that there is, for only those
have marks that hold.) So pruning with a ceiling of at least two succeeds within two passes, and its
result stays as it is while coverage of the same regions grows. -/
theorem pass_settles :
    (∀ (t : SourceTree) (m m' : MergedCoverage),
      (∀ p, m'.isDead t.path p → m.isDead t.path p) →
      (m.file? t.path).isSome ∨ m'.file? t.path = none ∨ t.Reachable →
      (t.pass m).1.pass m' = ((t.pass m).1, 0)) ∧
    (∀ (t : SourceTree) (m : MergedCoverage) (maxPasses : Nat), 2 ≤ maxPasses →
      ∃ next stats, t.prune? m maxPasses = .ok (next, stats) ∧ next = (t.pass m).1 ∧
        stats.passes ≤ 2 ∧ next.pass m = (next, 0) ∧
        ∀ m', Grows t.path m m' → next.pass m' = (next, 0)) := by
  refine ⟨fun t m m' fewer seen => pass_pass_eq fewer seen, fun t m maxPasses two => ?_⟩
  refine ⟨_, _, prune?_eq t m two, rfl, ?_, pass_pass_self t m, fun m' grows => ?_⟩
  · show (if (t.pass m).2 = 0 then 1 else 2) ≤ 2
    split
    next => omega
    next => omega
  · refine pass_pass_eq grows.fewer ?_
    cases hfile : m.file? t.path with
    | none => exact Or.inr (Or.inl (grows.file?_eq_none hfile))
    | some file => exact Or.inl rfl

/-- A function whose only call, `g(a)`, takes the `if` around it and the `let` before it along. -/
def cascade : SourceTree where
  path := "f.rs"
  source := "fn f(c: bool) \x7b\n    let a = 1;\n    if c \x7b\n        g(a);\n    \x7d\n\x7d\n"
  bodies :=
    [.mk ⟨1, 15⟩ 63
      [.mk ⟨2, 5⟩ ⟨16, 31⟩ [] (.binding (some "a") true),
        .mk ⟨3, 5⟩ ⟨31, 62⟩ ["c"]
          (.branch (.mk ⟨3, 10⟩ 61 [.mk ⟨4, 9⟩ ⟨42, 56⟩ ["g", "a"] .leaf] false) .absent false)]
      false]
  holes := []

/-- Coverage of `cascade` in which the call ran some number of times. -/
def cascadeRun (count : UInt32) : Profile :=
  .ofBlocks .set
    [⟨"f.rs", ⟨⟨1, 1⟩, ⟨4, 1⟩⟩, 2, 1⟩, ⟨"f.rs", ⟨⟨4, 1⟩, ⟨5, 1⟩⟩, 1, count⟩]

/-- All three statements of `cascade` go in the first pass, none in a second one, not even when the
call has run in the meantime. -/
theorem pass_settles_cascade :
    (cascade.pass (.ofProfiles [cascadeRun 0])).2 = 3 ∧
      (cascade.pass (.ofProfiles [cascadeRun 0])).1.pass
          (.ofProfiles [cascadeRun 0, cascadeRun 1]) =
        ((cascade.pass (.ofProfiles [cascadeRun 0])).1, 0) ∧
      ∃ next stats, cascade.prune? (.ofProfiles [cascadeRun 0]) 2 = .ok (next, stats) ∧
        stats.passes ≤ 2 := by
  have alive : ∀ p, (MergedCoverage.ofProfiles [cascadeRun 0, cascadeRun 1]).isDead "f.rs" p =
      false := by
    intro p
    have hfile : (MergedCoverage.ofProfiles [cascadeRun 0, cascadeRun 1]).file? "f.rs" =
        some ⟨⟨[⟨⟨1, 1⟩, ⟨5, 1⟩⟩]⟩, ⟨[⟨⟨1, 1⟩, ⟨5, 1⟩⟩]⟩⟩ := by decide
    rw [isDead_of_file hfile]
    simp [FileCoverage.isDead]
  refine ⟨by decide +kernel, ?_, ?_⟩
  · refine pass_settles.1 cascade _ _ (fun p hp => ?_) (Or.inl (by decide))
    rw [show cascade.path = "f.rs" from rfl, alive p] at hp
    cases hp
  · obtain ⟨next, stats, hprune, _, hpasses, _⟩ :=
      pass_settles.2 cascade (.ofProfiles [cascadeRun 0]) 2 (Nat.le_refl 2)
    exact ⟨next, stats, hprune, hpasses⟩

/-- A function with an empty block that is marked as if it had lost its statements. No lowering
gives this mark, and only a sweep finds it. -/
def emptied : SourceTree where
  path := "f.rs"
  source := ""
  bodies := [.mk ⟨1, 1⟩ 0 [.mk ⟨2, 1⟩ ⟨0, 0⟩ [] (.block (.mk ⟨2, 1⟩ 0 [] true) true)] false]
  holes := []

/-- Coverage in which the whole function of `emptied` ran. -/
def emptiedRun : Profile := .ofBlocks .set [⟨"f.rs", ⟨⟨1, 1⟩, ⟨3, 1⟩⟩, 1, 1⟩]

/-- Marks that do not hold need the first pass to have seen the file. Under coverage that knows
nothing of it a pass looks at nothing; a pass under coverage that knows the file then takes the
block, although it finds no position dead. -/
theorem pass_unsettled_emptied :
    (∀ p, (MergedCoverage.ofProfiles [emptiedRun]).isDead emptied.path p →
        MergedCoverage.empty.isDead emptied.path p) ∧
      ((emptied.pass .empty).1.pass (.ofProfiles [emptiedRun])).2 = 1 ∧
      (emptied.pass .empty).1.pass (.ofProfiles [emptiedRun]) ≠ ((emptied.pass .empty).1, 0) := by
  have hfile : (MergedCoverage.ofProfiles [emptiedRun]).file? emptied.path =
      some ⟨⟨[⟨⟨1, 1⟩, ⟨3, 1⟩⟩]⟩, ⟨[⟨⟨1, 1⟩, ⟨3, 1⟩⟩]⟩⟩ := by decide
  have hremoved : ((emptied.pass .empty).1.pass (.ofProfiles [emptiedRun])).2 = 1 := by decide
  refine ⟨fun p hdead => ?_, hremoved, fun hsettled => ?_⟩
  · rw [isDead_of_file hfile] at hdead
    simp [FileCoverage.isDead] at hdead
  · rw [hsettled] at hremoved
    cases hremoved

end SourceTree

end CoverageReplay
