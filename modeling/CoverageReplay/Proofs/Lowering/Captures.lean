import CoverageReplay.Proofs.Except
import CoverageReplay.Proofs.Lowering.Formats
import CoverageReplay.Proofs.Pruning.Remains

/-!
# Format strings keep bindings

Each piece of a lowered tree mentions the names in the tokens that it was lowered from, those of
nested bodies excepted (`names_lowerBlock`). Among them are the names of what format strings show,
as far as these are in ASCII. So pruning removes no `let` for lack of mentions while such a format
string is left behind it (`shown_names_recorded`).

The names of widths and precisions are not among them, and a `let` that only these read can be lost
(`width_not_recorded`).
-/

namespace CoverageReplay

open Rust

/-! ## The code of a piece -/

/-- The tokens outside the bodies of an expression of some form, all its tokens given. -/
def Rust.Form.own (tokens : List TokenTree) : Form → List TokenTree
  | .ifThen condition _ _ => condition
  | .forLoop head _ => head
  | .whileLoop condition _ => condition
  | .loop _ => []
  | .block _ _ => []
  | .unsafeBlock _ => []
  | .matchOn scrutinee _ => scrutinee
  | .flat _ => tokens

mutual

/-- The code at an address in a block: the tokens of the piece there outside the bodies nested in
it, of a `let` those of its value. -/
def Rust.CodeBlock.code? : CodeBlock → Address → Option (List TokenTree)
  | .mk _ _ statements, a => Rust.statementsCode? statements a

/-- The code at an address in some statements. -/
def Rust.statementsCode? : List Statement → Address → Option (List TokenTree)
  | [], _ => none
  | s :: rest, a =>
    match a with
    | .statement 0 :: a => s.code? a
    | .statement (i + 1) :: a => Rust.statementsCode? rest (.statement i :: a)
    | _ => none

/-- The code at an address in a statement, whose own is at the empty one. -/
def Rust.Statement.code? : Statement → Address → Option (List TokenTree)
  | .binding _ _ _ value, a =>
    match a with
    | [] => some value
    | _ :: _ => none
  | .expression tokens form, a =>
    match a with
    | [] => some (form.own tokens)
    | s :: a => form.code? (s :: a)
  | .other tokens, a =>
    match a with
    | [] => some tokens
    | _ :: _ => none

/-- The code at an address in the bodies of an expression of some form. -/
def Rust.Form.code? : Form → Address → Option (List TokenTree)
  | .ifThen _ yes none, a =>
    match a with
    | .yes :: a => yes.code? a
    | _ => none
  | .ifThen _ yes (some no), a =>
    match a with
    | .yes :: a => yes.code? a
    | .otherwise :: a => no.code? a
    | _ => none
  | .forLoop _ body, a => body.code? a
  | .whileLoop _ body, a => body.code? a
  | .loop body, a => body.code? a
  | .block _ body, a => body.code? a
  | .unsafeBlock body, a => body.code? a
  | .matchOn _ arms, a => Rust.armsCode? arms a
  | .flat _, _ => none

/-- The code at an address in an `else` branch, whose own is at the empty one. -/
def Rust.Expression.code? : Expression → Address → Option (List TokenTree)
  | .mk tokens form, a =>
    match a with
    | [] => some (form.own tokens)
    | s :: a => form.code? (s :: a)

/-- The code at an address in some arms. -/
def Rust.armsCode? : List MatchArm → Address → Option (List TokenTree)
  | [], _ => none
  | m :: rest, a =>
    match a with
    | .arm 0 :: a => m.code? a
    | .arm (i + 1) :: a => Rust.armsCode? rest (.arm i :: a)
    | _ => none

/-- The code at an address in an arm, whose own is at the empty one. -/
def Rust.MatchArm.code? : MatchArm → Address → Option (List TokenTree)
  | .mk _ head (.mk _ (.block false body)), a =>
    match a with
    | [] => some head
    | s :: a => body.code? (s :: a)
  | .mk _ head (.mk own _), a =>
    match a with
    | [] => some (head ++ own)
    | _ :: _ => none

end

/-- The code at an address in some function bodies. -/
def Rust.blocksCode? : List CodeBlock → Address → Option (List TokenTree)
  | [], _ => none
  | b :: rest, a =>
    match a with
    | .body 0 :: a => b.code? a
    | .body (i + 1) :: a => Rust.blocksCode? rest (.body i :: a)
    | _ => none

/-! ## Pieces mention the names in their code -/

/-- Code has the identifiers of its two parts. -/
theorem tokenIdentifiers_append (front back : List TokenTree) :
    tokenIdentifiers (front ++ back) = tokenIdentifiers front ++ tokenIdentifiers back := by
  induction front with
  | nil => rfl
  | cons t rest ih =>
    rw [List.cons_append, tokenIdentifiers, ih, tokenIdentifiers, List.append_assoc]

/-- Marking bindings changes no names. -/
theorem names_markUsed (nodes : List Node) (a : Address) :
    (Body.nodesPiece? (markUsed nodes) a).map Piece.names =
      (Body.nodesPiece? nodes a).map Piece.names := by
  induction nodes generalizing a with
  | nil => rfl
  | cons n rest ih =>
    -- Marking looks at one statement at a time, and what it changes in it is no name.
    obtain ⟨marked, hmarked, hnames⟩ : ∃ marked, markUsed (n :: rest) = marked :: markUsed rest ∧
        ∀ a, (marked.piece? a).map Piece.names = (n.piece? a).map Piece.names := by
      obtain ⟨start, hole, idents, kind⟩ := n
      cases kind with
      | binding name used =>
        cases name with
        | none => exact ⟨_, rfl, fun _ => rfl⟩
        | some name =>
          refine ⟨_, rfl, fun a => ?_⟩
          cases a with
          | nil => rfl
          | cons => rfl
      | leaf => exact ⟨_, rfl, fun _ => rfl⟩
      | block body removable => exact ⟨_, rfl, fun _ => rfl⟩
      | loop body removable => exact ⟨_, rfl, fun _ => rfl⟩
      | branch yes no lostElse => exact ⟨_, rfl, fun _ => rfl⟩
      | select arms pruned => exact ⟨_, rfl, fun _ => rfl⟩
    rw [hmarked]
    cases a with
    | nil => rfl
    | cons t a =>
      cases t with
      | statement i =>
        cases i with
        | zero => exact hnames a
        | succ i => exact ih (.statement i :: a)
      | body i => rfl
      | yes => rfl
      | otherwise => rfl
      | arm i => rfl

/-- A statement is lowered with the identifiers of its own code. -/
theorem idents_lowerForm (l : Layout) (tokens : List TokenTree) (form : Form) :
    (lowerForm l tokens form).1 = tokenIdentifiers (form.own tokens) := by
  cases form with
  | ifThen condition yes no =>
    cases no with
    | none => rfl
    | some => rfl
  | _ => rfl

mutual

/-- The pieces of a lowered block name what the code at their addresses mentions. -/
theorem names_lowerBlock (l : Layout) :
    ∀ (b : CodeBlock) (a : Address),
      ((lowerBlock l b).piece? a).map Piece.names = (b.code? a).map tokenIdentifiers
  | .mk _ _ statements, a =>
    (names_markUsed (lowerStatements l statements) a).trans (names_lowerStatements l statements a)

/-- The pieces of lowered statements mention the names in their code. -/
theorem names_lowerStatements (l : Layout) :
    ∀ (statements : List Statement) (a : Address),
      (Body.nodesPiece? (lowerStatements l statements) a).map Piece.names =
        (Rust.statementsCode? statements a).map tokenIdentifiers
  | [], _ => rfl
  | s :: rest, a => by
    cases a with
    | nil => rfl
    | cons t a =>
      cases t with
      | statement i =>
        cases i with
        | zero => exact names_lowerStatement l s a
        | succ i => exact names_lowerStatements l rest (.statement i :: a)
      | body i => rfl
      | yes => rfl
      | otherwise => rfl
      | arm i => rfl

theorem names_lowerStatement (l : Layout) :
    ∀ (s : Statement) (a : Address),
      ((lowerStatement l s).piece? a).map Piece.names = (s.code? a).map tokenIdentifiers
  | .binding _ _ _ _, [] => rfl
  | .binding _ _ _ _, _ :: _ => rfl
  | .expression tokens form, [] => congrArg some (idents_lowerForm l tokens form)
  | .expression tokens form, s :: a => names_lowerForm l tokens form (s :: a)
  | .other _, [] => rfl
  | .other _, _ :: _ => rfl

theorem names_lowerForm (l : Layout) (own : List TokenTree) :
    ∀ (form : Form) (a : Address),
      ((lowerForm l own form).2.piece? a).map Piece.names = (form.code? a).map tokenIdentifiers
  | .ifThen _ yes none, a => by
    cases a with
    | nil => rfl
    | cons t a =>
      cases t with
      | yes => exact names_lowerBlock l yes a
      | body i => rfl
      | statement i => rfl
      | otherwise => rfl
      | arm i => rfl
  | .ifThen _ yes (some no), a => by
    cases a with
    | nil => rfl
    | cons t a =>
      cases t with
      | yes => exact names_lowerBlock l yes a
      | otherwise => exact names_lowerElse l _ no a
      | body i => rfl
      | statement i => rfl
      | arm i => rfl
  | .forLoop _ body, a => names_lowerBlock l body a
  | .whileLoop _ body, a => names_lowerBlock l body a
  | .loop body, a => names_lowerBlock l body a
  | .block _ body, a => names_lowerBlock l body a
  | .unsafeBlock body, a => names_lowerBlock l body a
  | .matchOn _ arms, a => names_lowerArms l arms a
  | .flat _, _ => rfl

theorem names_lowerElse (l : Layout) (start : Nat) :
    ∀ (e : Expression) (a : Address),
      ((lowerElse l start e).piece? a).map Piece.names = (e.code? a).map tokenIdentifiers
  | .mk tokens form, [] => by
    have hidents := congrArg some (idents_lowerForm l tokens form)
    cases form with
    | ifThen | forLoop | whileLoop | loop | block | unsafeBlock | matchOn | flat => exact hidents
  | .mk tokens form, s :: a => by
    have hform := names_lowerForm l tokens form (s :: a)
    cases form with
    | ifThen | forLoop | whileLoop | loop | block | unsafeBlock | matchOn | flat => exact hform

theorem names_lowerArms (l : Layout) :
    ∀ (arms : List MatchArm) (a : Address),
      (NodeKind.armsPiece? (lowerArms l arms) a).map Piece.names =
        (Rust.armsCode? arms a).map tokenIdentifiers
  | [], _ => rfl
  | m :: rest, a => by
    cases a with
    | nil => rfl
    | cons t a =>
      cases t with
      | arm i =>
        cases i with
        | zero => exact names_lowerArm l m a
        | succ i => exact names_lowerArms l rest (.arm i :: a)
      | body i => rfl
      | statement i => rfl
      | yes => rfl
      | otherwise => rfl

theorem names_lowerArm (l : Layout) :
    ∀ (m : MatchArm) (a : Address),
      ((lowerArm l m).piece? a).map Piece.names = (m.code? a).map tokenIdentifiers
  | .mk _ head (.mk own form), a => by
    have happend := congrArg some (tokenIdentifiers_append head own).symm
    have hform := names_lowerForm l own form a
    cases form with
    | block labelled body =>
      cases labelled with
      | false =>
        cases a with
        | nil => rfl
        | cons => exact hform
      | true =>
        cases a with
        | nil => exact happend
        | cons => rfl
    | ifThen | forLoop | whileLoop | loop | unsafeBlock | matchOn | flat =>
      cases a with
      | nil => exact happend
      | cons => rfl

end

theorem names_lowerBlocks (l : Layout) (blocks : List CodeBlock) (a : Address) :
    (SourceTree.bodiesPiece? (blocks.map (lowerBlock l)) a).map Piece.names =
      (Rust.blocksCode? blocks a).map tokenIdentifiers := by
  induction blocks generalizing a with
  | nil => rfl
  | cons b rest ih =>
    cases a with
    | nil => rfl
    | cons t a =>
      cases t with
      | body i =>
        cases i with
        | zero => exact names_lowerBlock l b a
        | succ i => exact ih (.body i :: a)
      | statement i => rfl
      | yes => rfl
      | otherwise => rfl
      | arm i => rfl

/-! ## Statements mention what the pieces in them do -/

mutual

theorem Body.names_subset : ∀ b : Body, AllPieces (fun p => p.names ⊆ b.identifiers) b.piece?
  | .mk _ _ nodes _ => Body.nodesNames_subset nodes

/-- What a piece of some statements mentions these mention. -/
theorem Body.nodesNames_subset :
    ∀ nodes : List Node,
      AllPieces (fun p => p.names ⊆ Body.nodesIdentifiers nodes) (Body.nodesPiece? nodes)
  | [] => .of_none fun _ => rfl
  | n :: rest =>
    .of_conses (.statements n rest)
      ((Node.names_subset n).mono fun _ h => List.subset_append_of_subset_left _ h)
      ((Body.nodesNames_subset rest).mono fun _ h => List.subset_append_of_subset_right _ h)

theorem Node.names_subset : ∀ n : Node, AllPieces (fun p => p.names ⊆ n.identifiers) n.piece?
  | .mk _ _ _ kind =>
    .of_inner (Node.piece?_cons _) rfl (List.subset_append_left _ _)
      ((NodeKind.names_subset kind).mono fun _ h => List.subset_append_of_subset_right _ h)

theorem NodeKind.names_subset :
    ∀ k : NodeKind, AllPieces (fun p => p.names ⊆ k.identifiers) k.piece?
  | .leaf => .of_none fun _ => rfl
  | .binding _ _ => .of_none fun _ => rfl
  | .block body _ => Body.names_subset body
  | .loop body _ => Body.names_subset body
  | .branch yes no _ =>
    .of_branch ((Body.names_subset yes).mono fun _ h => List.subset_append_of_subset_left _ h)
      ((Otherwise.names_subset no).mono fun _ h => List.subset_append_of_subset_right _ h)
  | .select arms _ => NodeKind.armsNames_subset arms

theorem Otherwise.names_subset :
    ∀ o : Otherwise, AllPieces (fun p => p.names ⊆ o.identifiers) o.piece?
  | .absent => .of_none fun _ => rfl
  | .block hole body =>
    .of_inner (Otherwise.piece?_block hole body) rfl (List.nil_subset _) (Body.names_subset body)
  | .chain hole n =>
    have hn := Node.names_subset n
    have same : ∀ s a, (Otherwise.chain hole n).piece? (s :: a) = n.piece? (s :: a) :=
      fun _ _ => rfl
    .of_inner same rfl (hn [] (.statement n) n.piece?_nil) hn

theorem NodeKind.armsNames_subset :
    ∀ arms : List Arm,
      AllPieces (fun p => p.names ⊆ NodeKind.armsIdentifiers arms) (NodeKind.armsPiece? arms)
  | [] => .of_none fun _ => rfl
  | m :: rest =>
    .of_conses (.arms m rest)
      ((Arm.names_subset m).mono fun _ h => List.subset_append_of_subset_left _ h)
      ((NodeKind.armsNames_subset rest).mono fun _ h => List.subset_append_of_subset_right _ h)

theorem Arm.names_subset : ∀ m : Arm, AllPieces (fun p => p.names ⊆ m.identifiers) m.piece?
  | .flat start hole idents =>
    .of_inner (Arm.piece?_flat start hole idents) rfl (List.Subset.refl _) (.of_none fun _ => rfl)
  | .block start hole idents body =>
    .of_inner (Arm.piece?_block start hole idents body) rfl (List.subset_append_left _ _)
      ((Body.names_subset body).mono fun _ h => List.subset_append_of_subset_right _ h)

end

/-! ## Literals -/

mutual

/-- The literals of a token. -/
def Rust.TokenTree.literals : TokenTree → List String
  | .ident _ _ => []
  | .punct _ _ _ => []
  | .literal text _ => [text]
  | .group _ _ content _ => tokenLiterals content

/-- The literals of some tokens. -/
def tokenLiterals : List TokenTree → List String
  | [] => []
  | t :: rest => t.literals ++ tokenLiterals rest

end

mutual

/-- A token mentions what lowering finds in its literals. -/
theorem captures_subset_identifiers {text : String} :
    ∀ t : TokenTree, text ∈ t.literals → captures text.toList ⊆ t.identifiers
  | .ident _ _, h => nomatch h
  | .punct _ _ _, h => nomatch h
  | .literal _ _, h => by
    rw [List.mem_singleton.mp h]
    exact List.Subset.refl _
  | .group _ _ content _, h => captures_subset_tokenIdentifiers content h

/-- Code mentions what lowering finds in its literals. -/
theorem captures_subset_tokenIdentifiers {text : String} :
    ∀ code : List TokenTree, text ∈ tokenLiterals code →
      captures text.toList ⊆ tokenIdentifiers code
  | [], h => nomatch h
  | t :: rest, h => by
    rcases List.mem_append.mp h with h | h
    · exact List.subset_append_of_subset_left _ (captures_subset_identifiers t h)
    · exact List.subset_append_of_subset_right _ (captures_subset_tokenIdentifiers rest h)

end

/-- Whether a literal of some code holds a template. Around it stand the quotes, and what of the
literal is written with escapes. -/
def HoldsTemplate (code : List TokenTree) (t : Template) : Prop :=
  ∃ text ∈ tokenLiterals code, ∃ front back, text.toList = front ++ t.print ++ back

/-- Code that holds a template mentions the names that the template shows. -/
theorem HoldsTemplate.mem_tokenIdentifiers {code : List TokenTree} {t : Template} {name : String}
    (h : HoldsTemplate code t) (hname : name ∈ t.shown) (ascii : isAsciiName name) :
    name ∈ tokenIdentifiers code := by
  obtain ⟨text, hliteral, front, back, htext⟩ := h
  refine captures_subset_tokenIdentifiers code hliteral ?_
  rw [htext]
  exact t.mem_captures ascii hname front back

/-! ## What pruning keeps -/

section Keeps

variable {dead : Position → Bool} {look : Address → Option Piece} {R : Set Address}
  {gone : Address → Bool} {a y : Address} {n : Node}

/-- Why a rule asks for a statement. -/
theorem Demanded.of_statement (h : Demanded dead look R a) (hpiece : look a = some (.statement n)) :
    (dead n.start ∨ n.kind.Emptied {c | a ++ c ∈ R}) ∨
      ∃ name, n.kind = .binding (some name) true ∧
        ∀ x p, a.Follows x → look x = some p → name ∈ p.names → x ∈ R := by
  cases h with
  | dies hq hdies =>
    rw [hpiece] at hq
    injection hq with hq
    subst hq
    exact Or.inl hdies
  | @unused _ name hq hbinding _ hunmentioned =>
    rw [hpiece] at hq
    injection hq with hq
    injection hq with hq
    subst hq
    exact Or.inr ⟨name, hbinding, hunmentioned⟩

/-- A live `let` is not in the least set if a later piece that mentions its name is not. -/
theorem LeastRemoval.binding_stays (h : LeastRemoval dead look gone) {p : Piece} {name : String}
    {used : Bool} (hpiece : look a = some (.statement n))
    (hkind : n.kind = .binding (some name) used) (alive : dead n.start = false)
    (hfollows : a.Follows y) (hp : look y = some p) (hname : name ∈ p.names)
    (kept : gone y = false) : gone a = false := by
  obtain ⟨front, i, j, rest, rfl, hij, rfl⟩ := hfollows
  have outer : ∀ b, b <+: front ++ [.statement i] → b ≠ front ++ [.statement i] →
      gone b = false := by
    -- What goes around the `let` goes with the later piece.
    intro b hb hne
    obtain ⟨between, rfl⟩ := (List.prefix_concat_iff.mp hb).resolve_left hne
    refine Bool.eq_false_iff.mpr fun hgone => Bool.eq_false_iff.mp kept ?_
    rw [List.append_assoc] at hp ⊢
    exact h.1.nested b _ hgone (h.piece hgone) (Option.isSome_of_eq_some hp)
  refine Bool.eq_false_iff.mpr fun hgone => Bool.eq_false_iff.mp kept ?_
  rcases ((h.iff_demanded outer).mp hgone).of_statement hpiece with
    (hdead | hemptied) | ⟨bound, hbinding, hunmentioned⟩
  · exact absurd hdead (Bool.eq_false_iff.mp alive)
  · rw [hkind] at hemptied
    exact hemptied.elim
  · rw [hkind] at hbinding
    injection hbinding with hbound _
    injection hbound with hbound
    subst hbound
    exact hunmentioned _ p ⟨front, i, j, rest, rfl, hij, rfl⟩ hp hname

/-- A live statement without parts is not in the least set if nothing is around it. -/
theorem LeastRemoval.leaf_stays (h : LeastRemoval dead look gone)
    (hpiece : look a = some (.statement n)) (hkind : n.kind = .leaf) (alive : dead n.start = false)
    (outermost : ∀ b, b <+: a → b ≠ a → look b = none) : gone a = false := by
  refine Bool.eq_false_iff.mpr fun hgone => ?_
  have hdemanded := (h.iff_demanded fun b hb hne => h.eq_false (outermost b hb hne)).mp hgone
  rcases hdemanded.of_statement hpiece with (hdead | hemptied) | ⟨bound, hbinding, _⟩
  · exact absurd hdead (Bool.eq_false_iff.mp alive)
  · rw [hkind] at hemptied
    exact hemptied
  · rw [hkind] at hbinding
    cases hbinding

end Keeps

/-- A piece that lowering makes of some code mentions what the code mentions. -/
theorem exists_names_of_map_eq {look : Address → Option Piece} {a : Address} {code : List TokenTree}
    {found : Option (List TokenTree)} (hfound : found = some code)
    (hnames : (look a).map Piece.names = found.map tokenIdentifiers) :
    ∃ p, look a = some p ∧ p.names = tokenIdentifiers code := by
  rw [hfound] at hnames
  exact Option.map_eq_some_iff.mp hnames

namespace SourceTree

/-- The name that the `let` at an address binds, and where it starts. -/
def binding? (t : SourceTree) (a : Address) : Option (String × Position) :=
  match t.piece? a with
  | some (.statement (.mk start _ _ (.binding (some name) _))) => some (name, start)
  | _ => none

/-- A binding that is found is a statement of the tree. -/
theorem exists_of_binding? {t : SourceTree} {a : Address} {name : String} {p : Position}
    (h : t.binding? a = some (name, p)) :
    ∃ n used, t.piece? a = some (.statement n) ∧ n.kind = .binding (some name) used ∧
      n.start = p := by
  rw [binding?] at h
  split at h
  next start hole idents bound used hpiece =>
    injection h with h
    injection h with hname hstart
    subst hname hstart
    exact ⟨_, used, hpiece, rfl, rfl⟩
  next => cases h

/-- Where the statement at an address starts, if it has no parts. -/
def leaf? (t : SourceTree) (a : Address) : Option Position :=
  match t.piece? a with
  | some (.statement (.mk start _ _ .leaf)) => some start
  | _ => none

/-- A statement without bodies that is found is a statement of the tree. -/
theorem exists_of_leaf? {t : SourceTree} {a : Address} {p : Position} (h : t.leaf? a = some p) :
    ∃ n, t.piece? a = some (.statement n) ∧ n.kind = .leaf ∧ n.start = p := by
  rw [leaf?] at h
  split at h
  next start hole idents hpiece => exact ⟨_, hpiece, rfl, Option.some.inj h⟩
  next => cases h

/-- **What a format string shows is mentioned.** Let a template show the value of an ASCII name. If
a literal in the code of a statement, or of a piece in it, holds the template, lowering records the
name with the piece and so with the statement. So pruning a parsed tree does not remove a `let` of
that name that is alive while a later piece with such a literal is left. -/
theorem shown_names_recorded (template : Template) (name : String) (shown : name ∈ template.shown)
    (ascii : isAsciiName name) :
    (∀ (l : Layout) (s : Statement) (a : Address) (code : List TokenTree), s.code? a = some code →
      HoldsTemplate code template →
        ∃ p, (lowerStatement l s).piece? a = some p ∧ name ∈ p.names ∧
          name ∈ (lowerStatement l s).identifiers) ∧
    ∀ (path source : String) (t next : SourceTree) (m : MergedCoverage) (maxPasses : Nat)
      (stats : PruneStats), parse? path source = .ok t → t.prune? m maxPasses = .ok (next, stats) →
      ∃ blocks gone, bodies? (String.ofList (dropMark source.toList)) = .ok blocks ∧
        t.PrunesTo m next gone ∧
        ∀ a y p code, t.binding? a = some (name, p) → m.isDead path p = false → a.Follows y →
          Rust.blocksCode? blocks y = some code → HoldsTemplate code template → gone y = false →
            gone a = false := by
  refine ⟨fun l s a code hcode hholds =>
    ?_, fun path source t next m maxPasses stats parsed pruned => ?_⟩
  · obtain ⟨p, hp, hnames⟩ := exists_names_of_map_eq hcode (names_lowerStatement l s a)
    have hmem : name ∈ p.names := by
      rw [hnames]
      exact hholds.mem_tokenIdentifiers shown ascii
    exact ⟨p, hp, hmem, Node.names_subset (lowerStatement l s) a p hp hmem⟩
  · have hfresh := isFresh_of_parse? parsed
    obtain ⟨blocks, hblocks, rfl⟩ := exists_lowered_of_parse? parsed
    obtain ⟨rfl, _⟩ := pass_of_prune? pruned
    obtain ⟨gone, hprunes⟩ := exists_prunesTo hfresh m
    refine ⟨blocks, gone, hblocks, hprunes, ?_⟩
    intro a y p code hbinding halive hfollows hcode hholds hkept
    obtain ⟨n, used, hpiece, hkind, rfl⟩ := exists_of_binding? hbinding
    have hlowered := names_lowerBlocks (Layout.ofSource source) blocks y
    obtain ⟨q, hq, hnames⟩ := exists_names_of_map_eq hcode hlowered
    refine hprunes.least.binding_stays hpiece hkind halive hfollows hq ?_ hkept
    rw [hnames]
    exact hholds.mem_tokenIdentifiers shown ascii

/-- A function that passes `w` to a call and shows it. -/
def readShown : String :=
  "fn f() \x7b\n    let w = 8;\n    g(w);\n    println!(\"\x7bw\x7d\");\n\x7d\n"

/-- Coverage of the three statements of `readShown`, and of `readWidth`, in which only the call has
not run. -/
def callSkipped : MergedCoverage :=
  .ofProfiles [.ofBlocks .set
    [⟨"f.rs", ⟨⟨1, 1⟩, ⟨3, 1⟩⟩, 1, 1⟩, ⟨"f.rs", ⟨⟨3, 1⟩, ⟨4, 1⟩⟩, 1, 0⟩,
      ⟨"f.rs", ⟨⟨4, 1⟩, ⟨5, 1⟩⟩, 1, 1⟩]]

/-- Shows `w`. -/
def shownTemplate : Template :=
  [.placeholder { argument := some (.named "w"), spec := none, blanks := ⟨[], rfl⟩ }]

/-- From `readShown` pruning by `callSkipped` removes the call. The `let` before it stays, since
what is left shows `w`. -/
theorem shown_names_recorded_readShown :
    ∃ t next stats gone, parse? "f.rs" readShown = .ok t ∧
      t.prune? callSkipped 256 = .ok (next, stats) ∧
      stats.removed = 1 ∧ t.PrunesTo callSkipped next gone ∧
      t.binding? [.body 0, .statement 0] = some ("w", ⟨2, 5⟩) ∧
      gone [.body 0, .statement 0] = false ∧
      "w" ∈ (lowerStatement (.ofSource readShown)
        (.other [.literal "\"\x7bw\x7d\"" default])).identifiers := by
  have hrun : ((parse? "f.rs" readShown).toOption.bind fun t =>
      (t.prune? callSkipped 256).toOption.bind fun r =>
        some (t.binding? [.body 0, .statement 0], r.2.removed, (t.piece? [.body 0]).isNone,
          t.leaf? [.body 0, .statement 2])) =
      some (some ("w", ⟨2, 5⟩), 1, true, some ⟨4, 5⟩) := by decide +kernel
  have houtline : ((bodies? (String.ofList (dropMark readShown.toList))).toOption.bind fun blocks =>
      (Rust.blocksCode? blocks [.body 0, .statement 2]).map tokenLiterals) =
      some ["\"\x7bw\x7d\""] := by decide +kernel
  obtain ⟨t, hparse, hrun⟩ := exists_of_toOption_bind hrun
  obtain ⟨⟨next, stats⟩, hprune, hrun⟩ := exists_of_toOption_bind hrun
  simp only [Option.some.injEq, Prod.mk.injEq] at hrun
  obtain ⟨hbinding, hremoved, houter, hleaf⟩ := hrun
  obtain ⟨hrecorded, hkept⟩ := shown_names_recorded shownTemplate "w" (by decide) (by decide)
  obtain ⟨blocks, gone, hblocks, hprunes, hstays⟩ :=
    hkept "f.rs" readShown t next callSkipped 256 stats hparse hprune
  obtain ⟨blocks', hblocks', hcode⟩ := exists_of_toOption_bind houtline
  obtain ⟨code, hcode, hliterals⟩ := Option.map_eq_some_iff.mp hcode
  rw [hblocks] at hblocks'
  injection hblocks' with hsame
  subst hsame
  have hholds : HoldsTemplate code shownTemplate :=
    ⟨"\"\x7bw\x7d\"", by rw [hliterals]; decide, ['"'], ['"'], by decide⟩
  have hpath : t.path = "f.rs" := by
    obtain ⟨_, _, ht⟩ := exists_lowered_of_parse? hparse
    rw [ht]
    rfl
  -- The statement with the format string is not asked for, and nothing that can go is around it.
  obtain ⟨n, hpiece, hkind, hstart⟩ := exists_of_leaf? hleaf
  have halive : callSkipped.isDead t.path n.start = false := by
    rw [hpath, hstart]
    decide +kernel
  have hlast : gone [.body 0, .statement 2] = false := by
    refine hprunes.least.leaf_stays hpiece hkind halive fun b hb hne => ?_
    rcases List.prefix_cons_iff.mp hb with rfl | ⟨c, rfl, hc⟩
    · exact bodiesPiece?_nil _
    · rcases List.prefix_cons_iff.mp hc with rfl | ⟨d, rfl, hd⟩
      · exact Option.isNone_iff_eq_none.mp houter
      · exact absurd (by rw [List.prefix_nil.mp hd]) hne
  refine ⟨t, next, stats, gone, hparse, hprune, hremoved, hprunes, hbinding, ?_, ?_⟩
  · exact hstays _ _ _ code hbinding (by decide +kernel) ⟨[.body 0], 0, 2, [], rfl, by decide, rfl⟩
      hcode hholds hlast
  · obtain ⟨_, _, _, hmem⟩ := hrecorded (.ofSource readShown)
      (.other [.literal "\"\x7bw\x7d\"" default]) [] _ rfl
      ⟨"\"\x7bw\x7d\"", by decide, ['"'], ['"'], by decide⟩
    exact hmem

/-- A function that passes `w` to a call and reads it as a width. -/
def readWidth : String :=
  "fn f() \x7b\n    let w = 8;\n    g(w);\n    println!(\"\x7b:>w$\x7d\", 1);\n\x7d\n"

/-- Shows the next argument, to the right in a width of `w`. -/
def widthTemplate : Template :=
  [.placeholder
    { argument := none
      spec := some { align := some (none, .right), width := some (.parameter (.named "w")) }
      blanks := ⟨[], rfl⟩ }]

/-- What pruning by `callSkipped` leaves of `readWidth`. -/
def readWidthRemains : String :=
  "fn f() \x7b\n    println!(\"\x7b:>w$\x7d\", 1);\n\x7d\n"

/-- The template `{:>w$}` captures `w`, but of its statement only the name `println` is recorded.
Pruning `readWidth` by `callSkipped` then removes the `let` that binds `w`, though it is alive. -/
theorem width_not_recorded :
    ∃ blocks code t next stats,
      bodies? (String.ofList (dropMark readWidth.toList)) = .ok blocks ∧
      Rust.blocksCode? blocks [.body 0, .statement 2] = some code ∧
      HoldsTemplate code widthTemplate ∧ "w" ∈ widthTemplate.captured ∧
      parse? "f.rs" readWidth = .ok t ∧
      (t.piece? [.body 0, .statement 2]).map Piece.names = some ["println"] ∧
      t.binding? [.body 0, .statement 0] = some ("w", ⟨2, 5⟩) ∧
      callSkipped.isDead "f.rs" ⟨2, 5⟩ = false ∧
      t.prune? callSkipped 256 = .ok (next, stats) ∧ next.splice? = .ok readWidthRemains := by
  have houtline : ((bodies? (String.ofList (dropMark readWidth.toList))).toOption.bind fun blocks =>
      (Rust.blocksCode? blocks [.body 0, .statement 2]).map tokenLiterals) =
      some ["\"\x7b:>w$\x7d\"", "1"] := by decide +kernel
  obtain ⟨blocks, hblocks, hcode⟩ := exists_of_toOption_bind houtline
  obtain ⟨code, hcode, hliterals⟩ := Option.map_eq_some_iff.mp hcode
  have hholds : HoldsTemplate code widthTemplate :=
    ⟨"\"\x7b:>w$\x7d\"", by rw [hliterals]; decide, ['"'], ['"'], by decide⟩
  have hrun : ((parse? "f.rs" readWidth).toOption.bind fun t =>
      (t.prune? callSkipped 256).toOption.bind fun r =>
        some ((t.piece? [.body 0, .statement 2]).map Piece.names,
          t.binding? [.body 0, .statement 0], r.1.source, r.1.holes)) =
      some (some ["println"], some ("w", ⟨2, 5⟩), readWidth, [⟨24, 34⟩, ⟨9, 24⟩]) := by
    decide +kernel
  obtain ⟨t, hparse, hrun⟩ := exists_of_toOption_bind hrun
  obtain ⟨⟨next, stats⟩, hprune, hrun⟩ := exists_of_toOption_bind hrun
  simp only [Option.some.injEq, Prod.mk.injEq] at hrun
  obtain ⟨hnames, hbinding, hsource, hholes⟩ := hrun
  have hsplice : next.splice? = .ok readWidthRemains := by
    rw [splice?_eq (by rw [hholes, hsource]; decide +kernel), hholes, hsource]
    decide +kernel
  exact ⟨blocks, code, t, next, stats, hblocks, hcode, hholds, by decide, hparse, hnames, hbinding,
    by decide +kernel, hprune, hsplice⟩

end SourceTree

end CoverageReplay
