import CoverageReplay.Proofs.Except
import CoverageReplay.Proofs.Pruning.Growth
import CoverageReplay.Proofs.Splicing.Places

/-!
# What pruning leaves

What pruning leaves of a parsed tree are pieces that a further sweep would keep, so no statement, no
arm and no `else if` left starts at a dead position (`pruned_pieces_settled`).

The block of an `else` is the exception. A sweep asks whether its statements are dead, and not
whether its opening brace is, so a block with a dead brace stays as long as one of its statements
does, and for good if it was written without any (`dead_else_stays`).
-/

namespace CoverageReplay

/-- Where an `else` branch starts: at the brace of its block, or at the `if` of an `else if`. -/
def Otherwise.start? : Otherwise → Option Position
  | .absent => none
  | .block _ body => some body.opening
  | .chain _ n => some n.start

/-- Whether a sweep keeps a piece as it is. -/
def Piece.IsSettled (dead : Position → Bool) : Piece → Prop
  | .statement n => n.IsSettled dead
  | .otherwise o => o.sweep dead = (o, false, [])
  | .arm m => m.IsSettled dead

/-! ## A property of all pieces -/

/-- Whether all pieces that can be looked up have a property. -/
def AllPieces (P : Piece → Prop) (look : Address → Option Piece) : Prop :=
  ∀ a p, look a = some p → P p

namespace AllPieces

variable {P Q : Piece → Prop} {look inner head tail : Address → Option Piece}

theorem mono (h : AllPieces P look) (weaker : ∀ p, P p → Q p) : AllPieces Q look :=
  fun a p hp => weaker p (h a p hp)

/-- Anything holds of all pieces if there are none. -/
theorem of_none (h : ∀ a, look a = none) : AllPieces P look := by
  intro a p hp
  rw [h a] at hp
  cases hp

/-- What holds of all pieces of the first element and of all in the rest holds of all pieces of a
list. -/
theorem of_conses {s : Step} (c : Conses look s head tail) (h₁ : AllPieces P head)
    (h₂ : AllPieces P tail) : AllPieces P look := by
  intro a p hp
  cases a with
  | nil =>
    rw [c.nil] at hp
    cases hp
  | cons t a =>
    rcases c.cover t a (Option.isSome_of_eq_some hp) with rfl | ⟨u, rfl⟩
    · rw [c.head] at hp
      exact h₁ a p hp
    · rw [c.tail] at hp
      exact h₂ (u :: a) p hp

/-- A piece and what is nested in it. -/
theorem of_inner (same : ∀ s a, look (s :: a) = inner (s :: a)) {root : Piece}
    (hroot : look [] = some root) (h : P root) (hinner : AllPieces P inner) : AllPieces P look := by
  intro a p hp
  cases a with
  | nil =>
    rw [hroot] at hp
    injection hp with hp
    rwa [← hp]
  | cons s a =>
    rw [same] at hp
    exact hinner (s :: a) p hp

/-- What holds of all pieces in both branches holds of all in an `if`. -/
theorem of_branch {yes : Body} {no : Otherwise} {lost : Bool} (h₁ : AllPieces P yes.piece?)
    (h₂ : AllPieces P no.piece?) : AllPieces P (NodeKind.branch yes no lost).piece? := by
  intro a p hp
  cases a with
  | nil => cases hp
  | cons t a =>
    cases t with
    | yes => exact h₁ a p hp
    | otherwise => exact h₂ a p hp
    | body i => cases hp
    | statement i => cases hp
    | arm i => cases hp

end AllPieces

/-! ## What a sweep does not cut is settled -/

section Uncut

variable {dead : Position → Bool}

/-- If nothing is cut out of some statements, the first one is settled and nothing is cut out of the
others. -/
theorem Node.isSettled_of_uncut {n : Node} {rest : List Node}
    (h : (Body.sweepNodes dead (n :: rest)).2 = []) :
    n.IsSettled dead ∧ (Body.sweepNodes dead rest).2 = [] := by
  simp only [Body.sweepNodes] at h
  split at h
  next => cases h
  next halive =>
    split at h
    next => simp at h
    next hfilled =>
      rw [List.append_eq_nil_iff] at h
      have hsame := Node.eq_of_sweep n h.1
      rw [hsame] at hfilled
      exact ⟨⟨Bool.eq_false_iff.mpr halive, Prod.ext hsame h.1, Bool.eq_false_iff.mpr hfilled⟩, h.2⟩

/-- If nothing is cut out of some arms, the first one is settled and nothing is cut out of the
others. -/
theorem Arm.isSettled_of_uncut {m : Arm} {rest : List Arm}
    (h : (NodeKind.sweepArms dead (m :: rest)).2 = []) :
    m.IsSettled dead ∧ (NodeKind.sweepArms dead rest).2 = [] := by
  simp only [NodeKind.sweepArms] at h
  split at h
  next => cases h
  next halive =>
    split at h
    next => simp at h
    next hfilled =>
      rw [List.append_eq_nil_iff] at h
      have hswept : m.sweep dead = (m, false, []) :=
        Prod.ext (Arm.eq_of_sweep m h.1) (Prod.ext (Bool.eq_false_iff.mpr hfilled) h.1)
      exact ⟨⟨Bool.eq_false_iff.mpr halive, hswept⟩, h.2⟩

/-- If nothing is cut out of an `else` branch, it stays as it is. -/
theorem Otherwise.sweep_of_uncut {o : Otherwise} (h : (o.sweep dead).2.2 = []) :
    o.sweep dead = (o, false, []) := by
  obtain ⟨hsame, hlost⟩ := Otherwise.eq_of_sweep o h
  exact Prod.ext hsame (Prod.ext hlost h)

mutual

/-- If nothing is cut out of a body, all its pieces are settled. -/
theorem Body.pieces_of_uncut :
    ∀ b : Body, (b.sweep dead).2 = [] → AllPieces (Piece.IsSettled dead) b.piece?
  | .mk _ _ nodes _, h => by
    simp only [Body.sweep, List.append_eq_nil_iff] at h
    exact Body.nodesPieces_of_uncut nodes h.1

/-- If a sweep cuts nothing of some statements, all pieces in them are settled. -/
theorem Body.nodesPieces_of_uncut :
    ∀ nodes : List Node, (Body.sweepNodes dead nodes).2 = [] →
      AllPieces (Piece.IsSettled dead) (Body.nodesPiece? nodes)
  | [], _ => .of_none fun _ => rfl
  | n :: rest, h => by
    obtain ⟨hn, hrest⟩ := Node.isSettled_of_uncut h
    have hinner := Node.pieces_of_uncut n (congrArg Prod.snd hn.swept)
    exact .of_conses (.statements n rest) (.of_inner n.piece?_cons n.piece?_nil hn hinner)
      (Body.nodesPieces_of_uncut rest hrest)

theorem Node.pieces_of_uncut :
    ∀ n : Node, (n.sweep dead).2 = [] → AllPieces (Piece.IsSettled dead) n.kind.piece?
  | .mk _ _ _ kind, h => NodeKind.pieces_of_uncut kind h

/-- If nothing is cut out of what a statement is made of, all pieces in it are settled. -/
theorem NodeKind.pieces_of_uncut :
    ∀ k : NodeKind, (k.sweep dead).2 = [] → AllPieces (Piece.IsSettled dead) k.piece?
  | .leaf, _ => .of_none fun _ => rfl
  | .binding _ _, _ => .of_none fun _ => rfl
  | .block body _, h => Body.pieces_of_uncut body h
  | .loop body _, h => Body.pieces_of_uncut body h
  | .branch yes no _, h => by
    simp only [NodeKind.sweep, List.append_eq_nil_iff] at h
    exact .of_branch (Body.pieces_of_uncut yes h.1) (Otherwise.pieces_of_uncut no h.2)
  | .select arms _, h => NodeKind.armsPieces_of_uncut arms h

/-- If nothing is cut out of an `else` branch, all pieces in it are settled. -/
theorem Otherwise.pieces_of_uncut :
    ∀ o : Otherwise, (o.sweep dead).2.2 = [] → AllPieces (Piece.IsSettled dead) o.piece?
  | .absent, _ => .of_none fun _ => rfl
  | .block hole body, h => by
    have hswept := Otherwise.sweep_of_uncut h
    -- Whether the branch stays or goes, what is cut from its body is cut from it.
    have hbody : (body.sweep dead).2 = [] := by
      simp only [Otherwise.sweep] at h
      split at h
      next => simp at h
      next => exact h
    exact .of_inner (Otherwise.piece?_block hole body) rfl hswept (Body.pieces_of_uncut body hbody)
  | .chain hole n, h => by
    have hswept := Otherwise.sweep_of_uncut h
    have hn : (n.sweep dead).2 = [] := by
      simp only [Otherwise.sweep] at h
      split at h
      next => cases h
      next =>
        split at h
        next => simp at h
        next => exact h
    exact .of_inner (Otherwise.piece?_chain hole n) rfl hswept (Node.pieces_of_uncut n hn)

/-- If nothing is cut out of some arms, all pieces in them are settled. -/
theorem NodeKind.armsPieces_of_uncut :
    ∀ arms : List Arm, (NodeKind.sweepArms dead arms).2 = [] →
      AllPieces (Piece.IsSettled dead) (NodeKind.armsPiece? arms)
  | [], _ => .of_none fun _ => rfl
  | m :: rest, h => by
    obtain ⟨hm, hrest⟩ := Arm.isSettled_of_uncut h
    exact .of_conses (.arms m rest) (Arm.pieces_of_settled m hm)
      (NodeKind.armsPieces_of_uncut rest hrest)

/-- With an arm all pieces in it are settled. -/
theorem Arm.pieces_of_settled :
    ∀ m : Arm, m.IsSettled dead → AllPieces (Piece.IsSettled dead) m.piece?
  | .flat start hole idents, hm =>
    .of_inner (Arm.piece?_flat start hole idents) rfl hm (.of_none fun _ => rfl)
  | .block start hole idents body, hm =>
    .of_inner (Arm.piece?_block start hole idents body) rfl hm
      (Body.pieces_of_uncut body (congrArg (·.2.2) hm.swept))

end

/-- If nothing is cut out of the bodies of a file, all its pieces are settled. -/
theorem SourceTree.bodiesPieces_of_uncut {bodies : List Body}
    (h : (sweepBodies dead bodies).2 = []) :
    AllPieces (Piece.IsSettled dead) (bodiesPiece? bodies) := by
  induction bodies with
  | nil => exact .of_none fun _ => rfl
  | cons b rest ih =>
    simp only [sweepBodies, List.append_eq_nil_iff] at h
    exact .of_conses (.bodies b rest) (Body.pieces_of_uncut b h.1) (ih h.2)

end Uncut

/-! ## Dead positions of what is left -/

/-- A body that a sweep leaves has no dead statement. -/
theorem Body.alive_of_sweep {dead : Position → Bool} {b : Body} (h : (b.sweep dead).2 = [])
    {n : Node} (hn : n ∈ b.nodes) : dead n.start = false := by
  obtain ⟨opening, closeEnd, nodes, pruned⟩ := b
  simp only [Body.sweep, List.append_eq_nil_iff] at h
  replace h := h.1
  change n ∈ nodes at hn
  induction nodes with
  | nil => cases hn
  | cons k rest ih =>
    obtain ⟨hk, hrest⟩ := Node.isSettled_of_uncut h
    rcases List.mem_cons.mp hn with rfl | hn
    · exact hk.alive
    · exact ih hrest hn

/-- A dead `else` branch that a sweep leaves is a block. Nothing has ever been removed from it if it
is empty, and its statements are alive if it is not. -/
theorem Otherwise.block_of_settled {dead : Position → Bool} {o : Otherwise} {p : Position}
    (h : o.sweep dead = (o, false, [])) (hstart : o.start? = some p) (hdead : dead p) :
    ∃ hole b, o = .block hole b ∧ (b.nodes = [] → b.pruned = false) ∧
      ∀ n ∈ b.nodes, dead n.start = false := by
  cases o with
  | absent => cases hstart
  | block hole b =>
    simp only [Otherwise.sweep] at h
    split at h
    next => cases h
    next hfilled =>
      injection h with hsame hcuts
      injection hsame with _ hsame
      rw [hsame] at hfilled
      refine ⟨hole, b, rfl, fun hempty => ?_, fun n hn =>
        Body.alive_of_sweep (congrArg Prod.snd hcuts) hn⟩
      simpa [Body.isEmptied, hempty] using hfilled
  | chain hole n =>
    injection hstart with hstart
    subst hstart
    simp only [Otherwise.sweep, if_pos hdead] at h
    cases h

namespace SourceTree

variable {t : SourceTree} {m : MergedCoverage}

/-- Where the `else` branch at an address starts. -/
def elseStart? (t : SourceTree) (a : Address) : Option Position :=
  match t.piece? a with
  | some (.otherwise o) => o.start?
  | _ => none

/-- The start of an `else` branch is asked of an `else` branch that is there. -/
theorem exists_of_elseStart? {a : Address} {p : Position} (h : t.elseStart? a = some p) :
    ∃ o, t.piece? a = some (.otherwise o) ∧ o.start? = some p := by
  rw [elseStart?] at h
  split at h
  next o ho => exact ⟨o, ho, h⟩
  next => cases h

/-- Another sweep of what a pass leaves of a fresh tree cuts nothing. -/
theorem pieces_settled_of_pass (fresh : t.isFresh) :
    AllPieces (Piece.IsSettled (m.isDead t.path)) (t.pass m).1.piece? := by
  have hfewer : ∀ p, m.isDead t.path p → m.isDead t.path p := fun _ h => h
  rw [pass_of_fresh fresh]
  exact bodiesPieces_of_uncut (congrArg Prod.snd (sweepBodies_sweepBodies hfewer t.bodies))

/-- An `else` branch around which nothing goes, itself goes exactly if it dies. -/
theorem PrunesTo.else_iff {next : SourceTree} {gone : Address → Bool} (h : t.PrunesTo m next gone)
    {a : Address} {o : Otherwise} (ho : t.piece? a = some (.otherwise o))
    (outer : ∀ b, b <+: a → b ≠ a → gone b = false) :
    gone a ↔ (Piece.otherwise o).Dies (m.isDead t.path) {c | gone (a ++ c)} := by
  rw [h.least.iff_demanded outer]
  exact demanded_iff_dies ho fun n hn => by cases hn

/-- **Only blocks are dead among the `else` branches left.** Let pruning a parsed tree succeed. Of
the `else` branches around which nothing goes, blocks go exactly if they had statements and lose
them all, dead or not, and an `else if` goes exactly if it is dead or emptied. Of what is left a
sweep would keep each piece, at whatever depth: no statement, no arm and no `else if` is dead. An
`else` branch that is dead nevertheless is a block; it has been written without statements, or has
some left and none of them is dead. -/
theorem pruned_pieces_settled (path source : String) (t next : SourceTree) (m : MergedCoverage)
    (maxPasses : Nat) (stats : PruneStats) (parsed : parse? path source = .ok t)
    (pruned : t.prune? m maxPasses = .ok (next, stats)) :
    (∃ gone, t.PrunesTo m next gone ∧
      ∀ a, (∀ b, b <+: a → b ≠ a → gone b = false) →
        (∀ hole b, t.piece? a = some (.otherwise (.block hole b)) →
          (gone a ↔ b.LostAll {c | gone (a ++ c)})) ∧
        ∀ hole n, t.piece? a = some (.otherwise (.chain hole n)) →
          (gone a ↔ m.isDead path n.start ∨ n.kind.Emptied {c | gone (a ++ c)})) ∧
    AllPieces (Piece.IsSettled (m.isDead path)) next.piece? ∧
      ∀ a p, next.elseStart? a = some p → m.isDead path p →
        ∃ hole b, next.piece? a = some (.otherwise (.block hole b)) ∧
          (b.nodes = [] → b.pruned = false) ∧ ∀ n ∈ b.nodes, m.isDead path n.start = false := by
  have hfresh := isFresh_of_parse? parsed
  obtain ⟨blocks, _, rfl⟩ := exists_lowered_of_parse? parsed
  obtain ⟨rfl, _⟩ := pass_of_prune? pruned
  obtain ⟨gone, hprunes⟩ := exists_prunesTo hfresh m
  have hsettled := pieces_settled_of_pass hfresh (m := m)
  refine ⟨⟨gone, hprunes, fun a outer => ⟨fun hole b hb => hprunes.else_iff hb outer,
    fun hole n hn => hprunes.else_iff hn outer⟩⟩, hsettled, fun a p hstart hdead => ?_⟩
  obtain ⟨o, ho, hstart⟩ := exists_of_elseStart? hstart
  obtain ⟨hole, b, rfl, hblock⟩ :=
    Otherwise.block_of_settled (hsettled a (.otherwise o) ho) hstart hdead
  exact ⟨hole, b, ho, hblock⟩

/-- An `if` with a call in either branch. -/
def twoCalls : String :=
  "fn f(c: bool) \x7b\n    if c \x7b\n        a();\n    \x7d else \x7b\n        b();\n" ++
    "    \x7d\n\x7d\n"

/-- Coverage of `twoCalls` in which the first branch has run and the brace after `else` has not. -/
def deadBrace : MergedCoverage :=
  .ofProfiles [.ofBlocks .set
    [⟨"f.rs", ⟨⟨1, 1⟩, ⟨4, 1⟩⟩, 2, 1⟩, ⟨"f.rs", ⟨⟨4, 12⟩, ⟨4, 13⟩⟩, 1, 0⟩]]

/-- The dead `else` block that pruning leaves in `twoCalls` has a statement, and all it has are
alive. -/
theorem pruned_pieces_settled_twoCalls :
    ∃ t next stats hole b, parse? "f.rs" twoCalls = .ok t ∧
      t.prune? deadBrace 256 = .ok (next, stats) ∧
      next.piece? [.body 0, .statement 0, .otherwise] = some (.otherwise (.block hole b)) ∧
      (next.piece? [.body 0, .statement 0, .otherwise, .statement 0]).isSome ∧
      ∀ n ∈ b.nodes, deadBrace.isDead "f.rs" n.start = false := by
  have hrun : ((parse? "f.rs" twoCalls).toOption.bind fun t =>
      (t.prune? deadBrace 256).toOption.bind fun r =>
        some (r.1.elseStart? [.body 0, .statement 0, .otherwise],
          (r.1.piece? [.body 0, .statement 0, .otherwise, .statement 0]).isSome)) =
      some (some ⟨4, 12⟩, true) := by decide +kernel
  obtain ⟨t, hparse, hrun⟩ := exists_of_toOption_bind hrun
  obtain ⟨⟨next, stats⟩, hprune, hrun⟩ := exists_of_toOption_bind hrun
  simp only [Option.some.injEq, Prod.mk.injEq] at hrun
  obtain ⟨hstart, hinner⟩ := hrun
  have hsettled := pruned_pieces_settled "f.rs" twoCalls t next deadBrace 256 stats hparse hprune
  obtain ⟨hole, b, hpiece, _, halive⟩ := hsettled.2.2 _ _ hstart (by decide +kernel)
  exact ⟨t, next, stats, hole, b, hparse, hprune, hpiece, hinner, halive⟩

/-- The brace after the `else` of `twoCalls` is dead by `deadBrace`, but pruning leaves the text as
it is. -/
theorem dead_else_stays :
    ∃ t next stats, parse? "f.rs" twoCalls = .ok t ∧ t.prune? deadBrace 256 = .ok (next, stats) ∧
      next.elseStart? [.body 0, .statement 0, .otherwise] = some ⟨4, 12⟩ ∧
      deadBrace.isDead "f.rs" ⟨4, 12⟩ ∧ (next.render? true).toOption = some twoCalls := by
  have hrun : ((parse? "f.rs" twoCalls).toOption.bind fun t =>
      (t.prune? deadBrace 256).toOption.bind fun r =>
        some (r.1.elseStart? [.body 0, .statement 0, .otherwise], (r.1.render? true).toOption)) =
      some (some ⟨4, 12⟩, some twoCalls) := by decide +kernel
  obtain ⟨t, hparse, hrun⟩ := exists_of_toOption_bind hrun
  obtain ⟨⟨next, stats⟩, hprune, hrun⟩ := exists_of_toOption_bind hrun
  simp only [Option.some.injEq, Prod.mk.injEq] at hrun
  exact ⟨t, next, stats, hparse, hprune, hrun.1, by decide +kernel, hrun.2⟩

end SourceTree

end CoverageReplay
