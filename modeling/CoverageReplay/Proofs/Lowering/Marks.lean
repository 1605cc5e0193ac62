import CoverageReplay.Proofs.Pruning.Bodies

/-!
# Marks of use and later mentions

A `let` is marked as used when a search finds its name in a later statement, and it is removed when
its name is not in the list of what the later statements mention. `marks_match_mentions` says that
search and list agree, on every statement, and that so do the marks: in every body of a parsed tree,
at whatever depth, a `let` of a single identifier is marked exactly if removing finds its name among
all its later siblings.

Every such body is a block that was lowered by itself (`isLowered_of_bodyAt?`), so only the marks
that `markUsed` leaves have to be looked at.
-/

namespace CoverageReplay

open Rust

/-! ## Bodies of a lowered tree -/

/-- Marking leaves the bodies in the statements. -/
theorem nodesBodyAt?_markUsed (nodes : List Node) (a : Address) :
    Body.nodesBodyAt? (markUsed nodes) a = Body.nodesBodyAt? nodes a := by
  fun_induction markUsed nodes generalizing a with
  | case1 => rfl
  | case2 start hole idents name used rest ih =>
    simp only [Body.nodesBodyAt?, ih, Node.bodyAt?, NodeKind.bodyAt?]
  | case3 n rest _ ih => simp only [Body.nodesBodyAt?, ih]

section Lowered

variable {l : Layout} {b : Body}

mutual

/-- A body in a lowered block is a lowered block. -/
theorem lowered_of_bodyAt?_lowerBlock :
    ∀ (block : CodeBlock) {a : Address}, (lowerBlock l block).bodyAt? a = some b →
      ∃ inner, b = lowerBlock l inner
  | .mk opening closing statements, _, h => by
    rcases Body.bodyAt?_cases h with ⟨_, rfl⟩ | h
    · exact ⟨.mk opening closing statements, rfl⟩
    · rw [lowerBlock, Body.nodes, nodesBodyAt?_markUsed] at h
      exact lowered_of_bodyAt?_lowerStatements statements h

/-- A body in lowered statements is a lowered block. -/
theorem lowered_of_bodyAt?_lowerStatements :
    ∀ (statements : List Statement) {a : Address},
      Body.nodesBodyAt? (lowerStatements l statements) a = some b → ∃ inner, b = lowerBlock l inner
  | [], _, h => nomatch h
  | s :: rest, _, h => by
    rw [lowerStatements] at h
    rcases Body.nodesBodyAt?_cases h with ⟨_, _, h⟩ | ⟨_, _, _, h⟩
    · exact lowered_of_bodyAt?_lowerStatement s h
    · exact lowered_of_bodyAt?_lowerStatements rest h

theorem lowered_of_bodyAt?_lowerStatement :
    ∀ (s : Statement) {a : Address}, (lowerStatement l s).bodyAt? a = some b →
      ∃ inner, b = lowerBlock l inner
  | .binding _ _ _ _, _, h => nomatch h
  | .expression tokens form, _, h => lowered_of_bodyAt?_lowerForm tokens form h
  | .other _, _, h => nomatch h

/-- A body in what a statement is lowered to is a lowered block. -/
theorem lowered_of_bodyAt?_lowerForm (own : List TokenTree) :
    ∀ (form : Form) {a : Address}, (lowerForm l own form).2.bodyAt? a = some b →
      ∃ inner, b = lowerBlock l inner
  | .ifThen _ yes none, _, h => by
    rw [lowerForm] at h
    rcases NodeKind.bodyAt?_branch_cases h with ⟨_, _, h⟩ | ⟨_, _, h⟩
    · exact lowered_of_bodyAt?_lowerBlock yes h
    · cases h
  | .ifThen _ yes (some no), _, h => by
    rw [lowerForm] at h
    rcases NodeKind.bodyAt?_branch_cases h with ⟨_, _, h⟩ | ⟨_, _, h⟩
    · exact lowered_of_bodyAt?_lowerBlock yes h
    · exact lowered_of_bodyAt?_lowerElse _ no h
  | .forLoop _ body, _, h => lowered_of_bodyAt?_lowerBlock body h
  | .whileLoop _ body, _, h => lowered_of_bodyAt?_lowerBlock body h
  | .loop body, _, h => lowered_of_bodyAt?_lowerBlock body h
  | .block _ body, _, h => lowered_of_bodyAt?_lowerBlock body h
  | .unsafeBlock body, _, h => lowered_of_bodyAt?_lowerBlock body h
  | .matchOn _ arms, _, h => lowered_of_bodyAt?_lowerArms arms h
  | .flat _, _, h => nomatch h

/-- A body in a lowered `else` branch is a lowered block. -/
theorem lowered_of_bodyAt?_lowerElse (start : Nat) :
    ∀ (e : Expression) {a : Address}, (lowerElse l start e).bodyAt? a = some b →
      ∃ inner, b = lowerBlock l inner
  | .mk tokens form, a, h => by
    cases form with
    | block labelled body => exact lowered_of_bodyAt?_lowerBlock body h
    | ifThen condition yes no =>
      exact lowered_of_bodyAt?_lowerForm tokens (.ifThen condition yes no) h
    | forLoop head body => exact lowered_of_bodyAt?_lowerBlock body h
    | whileLoop condition body => exact lowered_of_bodyAt?_lowerBlock body h
    | loop body => exact lowered_of_bodyAt?_lowerBlock body h
    | unsafeBlock body => exact lowered_of_bodyAt?_lowerBlock body h
    | matchOn scrutinee arms => exact lowered_of_bodyAt?_lowerArms arms h
    | flat kind => cases h

/-- A body in lowered arms is a lowered block. -/
theorem lowered_of_bodyAt?_lowerArms :
    ∀ (arms : List MatchArm) {a : Address}, NodeKind.armsBodyAt? (lowerArms l arms) a = some b →
      ∃ inner, b = lowerBlock l inner
  | [], _, h => nomatch h
  | m :: rest, _, h => by
    rw [lowerArms] at h
    rcases NodeKind.armsBodyAt?_cases h with ⟨_, _, h⟩ | ⟨_, _, _, h⟩
    · exact lowered_of_bodyAt?_lowerArm m h
    · exact lowered_of_bodyAt?_lowerArms rest h

theorem lowered_of_bodyAt?_lowerArm :
    ∀ (m : MatchArm) {a : Address}, (lowerArm l m).bodyAt? a = some b →
      ∃ inner, b = lowerBlock l inner
  | .mk _ _ (.mk own form), a, h => by
    cases form with
    | block labelled body =>
      cases labelled with
      | false => exact lowered_of_bodyAt?_lowerBlock body h
      | true => cases h
    | ifThen condition yes no => cases h
    | forLoop head body => cases h
    | whileLoop condition body => cases h
    | loop body => cases h
    | unsafeBlock body => cases h
    | matchOn scrutinee arms => cases h
    | flat kind => cases h

end

end Lowered

/-- Every body of a parsed tree is a block that was lowered. -/
theorem SourceTree.isLowered_of_bodyAt? {path source : String} {t : SourceTree}
    (parsed : parse? path source = .ok t) {a : Address} {b : Body} (h : t.bodyAt? a = some b) :
    ∃ l block, b = lowerBlock l block := by
  obtain ⟨blocks, hblocks, rfl⟩ := exists_lowered_of_parse? parsed
  rw [bodyAt?, lowered] at h
  clear parsed hblocks
  induction blocks generalizing a with
  | nil => cases h
  | cons block rest ih =>
    rcases bodiesBodyAt?_cases h with ⟨_, _, h⟩ | ⟨_, _, _, h⟩
    · exact ⟨_, lowered_of_bodyAt?_lowerBlock block h⟩
    · exact ih h

/-! ## Marks -/

/-- A mark tells whether the statements behind the `let` mention its name. -/
theorem used_of_markUsed {nodes front rest : List Node} {n : Node} {name : String} {used : Bool}
    (h : markUsed nodes = front ++ n :: rest) (hkind : n.kind = .binding (some name) used) :
    used = Body.nodesMention name rest := by
  fun_induction markUsed nodes generalizing front with
  | case1 => exact absurd h.symm (List.append_ne_nil_of_right_ne_nil _ (List.cons_ne_nil _ _))
  | case2 start hole idents binder old later ih =>
    cases front with
    | nil =>
      -- The binding asked for is the first one, which was marked by the statements after it.
      injection h with hnode hrest
      rw [← hnode, Node.kind] at hkind
      injection hkind with hname hused
      injection hname with hname
      rw [← hused, ← hrest, ← hname, nodesMention_markUsed]
    | cons first front =>
      injection h with _ h
      exact ih h
  | case3 first later hfirst ih =>
    cases front with
    | nil =>
      injection h with hnode _
      obtain ⟨start, hole, idents, kind⟩ := n
      rw [Node.kind] at hkind
      exact absurd (hkind ▸ hnode) (hfirst start hole idents name used)
    | cons first front =>
      injection h with _ h
      exact ih h

/-- The last of fresh statements are fresh. -/
theorem nodesFresh_of_append {front rest : List Node} (h : Body.nodesFresh (front ++ rest)) :
    Body.nodesFresh rest := by
  induction front with
  | nil => exact h
  | cons n front ih =>
    simp only [List.cons_append, Body.nodesFresh, Bool.and_eq_true] at h
    exact ih h.2

/-- In a lowered block a `let` is marked exactly if its name is among the identifiers that removing
collects from the statements behind it, all of which are still there. -/
theorem used_iff_of_lowerBlock {l : Layout} {block : CodeBlock} {front rest : List Node} {n : Node}
    {name : String} {used : Bool} (h : (lowerBlock l block).nodes = front ++ n :: rest)
    (hkind : n.kind = .binding (some name) used) :
    dropUnused rest = (rest, Body.nodesIdentifiers rest, []) ∧
      (used ↔ name ∈ Body.nodesIdentifiers rest) := by
  have hfresh := isFresh_lowerBlock l block
  obtain ⟨opening, closing, statements⟩ := block
  rw [lowerBlock, Body.isFresh, Bool.and_eq_true] at hfresh
  rw [lowerBlock, Body.nodes] at h
  have hlater : Body.nodesFresh (n :: rest) := nodesFresh_of_append (h ▸ hfresh.2)
  rw [Body.nodesFresh, Bool.and_eq_true] at hlater
  refine ⟨dropUnused_of_fresh hlater.2, ?_⟩
  rw [used_of_markUsed h hkind]
  exact Body.nodesMention_iff name rest

/-- The name and the mark of a `let` of a single identifier. -/
def Node.mark? (n : Node) : Option (String × Bool) :=
  match n.kind with
  | .binding (some name) used => some (name, used)
  | _ => none

/-- A statement with a mark is a binding. -/
theorem Node.kind_of_mark? {n : Node} {name : String} {used : Bool}
    (h : n.mark? = some (name, used)) :
    n.kind = .binding (some name) used := by
  unfold Node.mark? at h
  split at h
  next hkind =>
    injection h with h
    injection h with hname hused
    rw [hkind, hname, hused]
  next => cases h

namespace SourceTree

/-- **Marks and mentions agree.** For every statement, whatever is nested in it, looking for a name
finds it exactly if it is one of the identifiers listed. In every body of a parsed tree, at whatever
depth, a `let` of a single identifier is marked as used exactly if its name is among the identifiers
that removing has collected when it comes to it, and these are the identifiers of all its later
siblings. -/
theorem marks_match_mentions :
    (∀ (n : Node) (name : String), n.mentions name ↔ name ∈ n.identifiers) ∧
    ∀ (path source : String) (t : SourceTree), parse? path source = .ok t →
      ∀ a b, t.bodyAt? a = some b →
        ∀ front n rest name (used : Bool), b.nodes = front ++ n :: rest →
          n.kind = .binding (some name) used →
          (dropUnused rest).2.1 = Body.nodesIdentifiers rest ∧
          (used ↔ name ∈ (dropUnused rest).2.1) := by
  refine ⟨fun n name => Node.mentions_iff name n, fun path source t parsed a b hbody => ?_⟩
  intro front n rest name used hnodes hkind
  obtain ⟨l, block, rfl⟩ := isLowered_of_bodyAt? parsed hbody
  obtain ⟨hdrop, hused⟩ := used_iff_of_lowerBlock hnodes hkind
  rw [hdrop]
  exact ⟨rfl, hused⟩

/-- A loop with three bindings: one is mentioned in the second branch of an `if`, one in an arm of a
`match` and one only before it. -/
def nestedMentions : String :=
  "fn f() \x7b loop \x7b g(c); let a = 1; let b = 2; let c = 3;" ++
    " if d \x7b \x7d else if e \x7b match d \x7b _ => \x7b g(b) \x7d \x7d \x7d" ++
    " else \x7b g(a) \x7d \x7d \x7d"

/-- In `nestedMentions` the binding of `c` is the only one that is not marked. -/
theorem marks_match_mentions_nestedMentions :
    ∃ (t : SourceTree) (b : Body) (call x y z : Node) (rest : List Node),
      parse? "f.rs" nestedMentions = .ok t ∧ t.bodyAt? [.body 0, .statement 0] = some b ∧
      b.nodes = call :: x :: y :: z :: rest ∧ x.kind = .binding (some "a") true ∧
      z.kind = .binding (some "c") false ∧ "a" ∈ (dropUnused (y :: z :: rest)).2.1 ∧
      "c" ∉ (dropUnused rest).2.1 := by
  have hrun : ((parse? "f.rs" nestedMentions).toOption.bind fun t =>
      (t.bodyAt? [.body 0, .statement 0]).map fun b => b.nodes.map Node.mark?) =
      some [none, some ("a", true), some ("b", true), some ("c", false), none] := by
    decide +kernel
  obtain ⟨t, hparse, hrun⟩ := exists_of_toOption_bind hrun
  obtain ⟨b, hbody, hmarks⟩ := Option.map_eq_some_iff.mp hrun
  obtain ⟨call, later, hnodes, _, hmarks⟩ := List.map_eq_cons_iff.mp hmarks
  obtain ⟨x, later, rfl, hx, hmarks⟩ := List.map_eq_cons_iff.mp hmarks
  obtain ⟨y, later, rfl, _, hmarks⟩ := List.map_eq_cons_iff.mp hmarks
  obtain ⟨z, rest, rfl, hz, _⟩ := List.map_eq_cons_iff.mp hmarks
  have hall := marks_match_mentions.2 "f.rs" nestedMentions t hparse _ b hbody
  refine ⟨t, b, call, x, y, z, rest, hparse, hbody, hnodes, Node.kind_of_mark? hx,
    Node.kind_of_mark? hz, ?_, ?_⟩
  · exact (hall [call] x _ "a" true hnodes (Node.kind_of_mark? hx)).2.mp rfl
  · intro hmem
    cases (hall [call, x, y] z rest "c" false hnodes (Node.kind_of_mark? hz)).2.mpr hmem

end SourceTree

end CoverageReplay
