import CoverageReplay.Proofs.Splicing.Characters
import CoverageReplay.Proofs.Splicing.Sweep

/-!
# Where the pieces of an outline lie

The pieces of an outline have spans in the source, from which lowering makes holes. `Nests` says
what is expected of the spans: those of siblings come one after the other, those of nested pieces
lie between the braces around them, and each begins with a character that shows. Then the holes of a
lowered tree are all different, each takes exactly what shows of its span, and those of nested
pieces take nothing that the outer ones do not (`Forest.Nested`).
-/

namespace CoverageReplay

open Rust

/-! ## The pieces of an outline -/

/-- A removable piece of an outline: its span in bytes and the hole that lowering makes of it. At
`head` begins a character of the piece that stands before all pieces nested in it. -/
structure Extent where
  head : Nat
  span : Hole
  hole : Hole
  deriving DecidableEq

/-- All tokens of a statement. -/
def Rust.Statement.tokens : Statement → List TokenTree
  | .binding tokens _ _ _ => tokens
  | .expression tokens _ => tokens
  | .other tokens => tokens

/-- All tokens of an arm. -/
def Rust.MatchArm.tokens : MatchArm → List TokenTree
  | .mk tokens _ _ => tokens

/-- The closing brace of a block. -/
def Rust.CodeBlock.closing : CodeBlock → Span
  | .mk _ closing _ => closing

/-- The piece of some tokens, with the lines that it takes. -/
def Extent.ofTokens (l : Layout) (tokens : List TokenTree) : Extent :=
  ⟨l.byte (spanOf tokens).start, l.bytesOf (spanOf tokens), l.holeOf (spanOf tokens)⟩

/-- The `else` branch of some tokens, which begins where the block before it ends. -/
def Extent.ofElse (l : Layout) (start : Nat) (tokens : List TokenTree) : Extent :=
  ⟨l.byte (spanOf tokens).start, ⟨start, l.byte (spanOf tokens).stop⟩,
    ⟨start, l.byte (spanOf tokens).stop⟩⟩

mutual

/-- The pieces of a block. -/
def Rust.CodeBlock.extents (l : Layout) : CodeBlock → Forest Extent
  | .mk _ _ statements => Rust.statementsExtents l statements

/-- Some statements and the pieces in them. -/
def Rust.statementsExtents (l : Layout) : List Statement → Forest Extent
  | [] => .nil
  | s :: rest => .cons (.ofTokens l s.tokens) (s.inner l) (Rust.statementsExtents l rest)

/-- The pieces in a statement. -/
def Rust.Statement.inner (l : Layout) : Statement → Forest Extent
  | .binding _ _ _ _ => .nil
  | .expression _ form => form.extents l
  | .other _ => .nil

/-- The pieces in an expression of some form. -/
def Rust.Form.extents (l : Layout) : Form → Forest Extent
  | .ifThen _ yes none => yes.extents l
  | .ifThen _ yes (some no) => (yes.extents l).append (no.extents l (l.byte yes.closing.stop))
  | .forLoop _ body => body.extents l
  | .whileLoop _ body => body.extents l
  | .loop body => body.extents l
  | .block _ body => body.extents l
  | .unsafeBlock body => body.extents l
  | .matchOn _ arms => Rust.armsExtents l arms
  | .flat _ => .nil

/-- The `else` branch that an expression makes after a block that ends at byte `start`, and the
pieces in it. -/
def Rust.Expression.extents (l : Layout) (start : Nat) : Expression → Forest Extent
  | .mk tokens form => .cons (.ofElse l start tokens) (form.extents l) .nil

/-- Some arms and the pieces in them. -/
def Rust.armsExtents (l : Layout) : List MatchArm → Forest Extent
  | [] => .nil
  | m :: rest => .cons (.ofTokens l m.tokens) (m.inner l) (Rust.armsExtents l rest)

/-- The pieces in an arm. -/
def Rust.MatchArm.inner (l : Layout) : MatchArm → Forest Extent
  | .mk _ _ (.mk _ (.block false body)) => body.extents l
  | _ => .nil

end

/-- The pieces of some function bodies. -/
def Rust.blocksExtents (l : Layout) : List CodeBlock → Forest Extent
  | [] => .nil
  | b :: rest => (b.extents l).append (Rust.blocksExtents l rest)

/-! ## Lowering -/

/-- Marking bindings as used moves no place. -/
theorem nodesForest_markUsed (nodes : List Node) :
    Body.nodesForest (markUsed nodes) = Body.nodesForest nodes := by
  induction nodes with
  | nil => rfl
  | cons n rest ih =>
    obtain ⟨start, hole, idents, kind⟩ := n
    cases kind with
    | binding name used =>
      cases name with
      | none => exact congrArg (Forest.cons hole .nil) ih
      | some => exact congrArg (Forest.cons hole .nil) ih
    | leaf => exact congrArg (Forest.cons hole .nil) ih
    | block body removable => exact congrArg (Forest.cons hole body.forest) ih
    | loop body removable => exact congrArg (Forest.cons hole body.forest) ih
    | branch yes no lostElse => exact congrArg (Forest.cons hole (yes.forest.append no.forest)) ih
    | select arms pruned => exact congrArg (Forest.cons hole (NodeKind.armsForest arms)) ih

/-- A statement is lowered to the place of its extent. -/
@[simp] theorem hole_lowerStatement (l : Layout) (s : Statement) :
    (lowerStatement l s).hole = (Extent.ofTokens l s.tokens).hole := by
  cases s with
  | binding => rfl
  | expression => rfl
  | other => rfl

/-- An arm is lowered to the place of its extent. -/
@[simp] theorem hole_lowerArm (l : Layout) (m : MatchArm) :
    (lowerArm l m).hole = (Extent.ofTokens l m.tokens).hole := by
  unfold lowerArm
  split
  next => rfl
  next => rfl

@[simp] theorem closeEnd_lowerBlock (l : Layout) (b : CodeBlock) :
    (lowerBlock l b).closeEnd = l.byte b.closing.stop := by
  cases b
  rfl

mutual

/-- The holes of a lowered block are those of the pieces of the outline. -/
theorem forest_lowerBlock (l : Layout) :
    ∀ b : CodeBlock, (lowerBlock l b).forest = (b.extents l).map Extent.hole
  | .mk _ _ statements => by
    rw [lowerBlock, Body.forest, nodesForest_markUsed, forest_lowerStatements l statements]
    rfl

/-- Statements are lowered to the places of their extents. -/
theorem forest_lowerStatements (l : Layout) :
    ∀ statements : List Statement,
      Body.nodesForest (lowerStatements l statements) =
        (Rust.statementsExtents l statements).map Extent.hole
  | [] => rfl
  | s :: rest => by
    rw [lowerStatements, Body.nodesForest, hole_lowerStatement, inner_lowerStatement l s,
      forest_lowerStatements l rest]
    rfl

theorem inner_lowerStatement (l : Layout) :
    ∀ s : Statement, (lowerStatement l s).inner = (s.inner l).map Extent.hole
  | .binding _ _ _ _ => rfl
  | .expression tokens form => forest_lowerForm l tokens form
  | .other _ => rfl

/-- What a statement is made of is lowered to the places of its extents. -/
theorem forest_lowerForm (l : Layout) (own : List TokenTree) :
    ∀ form : Form, (lowerForm l own form).2.forest = (form.extents l).map Extent.hole
  | .ifThen _ yes none => by
    simp only [lowerForm, NodeKind.forest, Otherwise.forest, Forest.append_nil, Rust.Form.extents,
      forest_lowerBlock l yes]
  | .ifThen _ yes (some no) => by
    simp only [lowerForm, NodeKind.forest, closeEnd_lowerBlock, Rust.Form.extents,
      Forest.map_append, forest_lowerBlock l yes, forest_lowerElse l (l.byte yes.closing.stop) no]
  | .forLoop _ body => forest_lowerBlock l body
  | .whileLoop _ body => forest_lowerBlock l body
  | .loop body => forest_lowerBlock l body
  | .block _ body => forest_lowerBlock l body
  | .unsafeBlock body => forest_lowerBlock l body
  | .matchOn _ arms => forest_lowerArms l arms
  | .flat _ => rfl

/-- What follows an `else` is lowered to the places of its extents. -/
theorem forest_lowerElse (l : Layout) (start : Nat) :
    ∀ e : Expression, (lowerElse l start e).forest = (e.extents l start).map Extent.hole
  | .mk tokens form => by
    have hform := forest_lowerForm l tokens form
    rw [Rust.Expression.extents, Forest.map, ← hform]
    cases form with
    | ifThen | forLoop | whileLoop | loop | block | unsafeBlock | matchOn | flat => rfl

/-- Arms are lowered to the places of their extents. -/
theorem forest_lowerArms (l : Layout) :
    ∀ arms : List MatchArm,
      NodeKind.armsForest (lowerArms l arms) = (Rust.armsExtents l arms).map Extent.hole
  | [] => rfl
  | m :: rest => by
    rw [lowerArms, NodeKind.armsForest, hole_lowerArm, inner_lowerArm l m, forest_lowerArms l rest]
    rfl

/-- What is in an arm is lowered to the places of its extents. -/
theorem inner_lowerArm (l : Layout) :
    ∀ m : MatchArm, (lowerArm l m).inner = (m.inner l).map Extent.hole
  | .mk _ _ (.mk own form) => by
    have hform := forest_lowerForm l own form
    cases form with
    | block labelled body =>
      cases labelled with
      | false => exact hform
      | true => rfl
    | ifThen condition yes no => rfl
    | forLoop head body => rfl
    | whileLoop condition body => rfl
    | loop body => rfl
    | unsafeBlock body => rfl
    | matchOn scrutinee arms => rfl
    | flat kind => rfl

end

/-- Blocks are lowered to the places of their extents. -/
theorem bodiesForest_lowerBlock (l : Layout) (blocks : List CodeBlock) :
    SourceTree.bodiesForest (blocks.map (lowerBlock l)) =
      (Rust.blocksExtents l blocks).map Extent.hole := by
  induction blocks with
  | nil => rfl
  | cons b rest ih =>
    rw [List.map_cons, SourceTree.bodiesForest, ih, forest_lowerBlock, Rust.blocksExtents,
      Forest.map_append]

/-! ## Well-nested outlines -/

/-- Whether a stretch of bytes begins with a character that shows and ends with a character. -/
structure Hole.Shows (cs : List Char) (h : Hole) : Prop where
  first : IsVisible cs h.start
  last : isBoundary cs h.stop
  nonempty : h.start < h.stop

instance (cs : List Char) (h : Hole) : Decidable (h.Shows cs) :=
  decidable_of_iff (IsVisible cs h.start ∧ isBoundary cs h.stop ∧ h.start < h.stop)
    ⟨fun ⟨first, last, nonempty⟩ => ⟨first, last, nonempty⟩,
      fun ⟨first, last, nonempty⟩ => ⟨first, last, nonempty⟩⟩

mutual

/-- Whether a block lies between two bytes, and the statements in it one after the other between its
braces. -/
def Rust.CodeBlock.Nests (l : Layout) (cs : List Char) (lo hi : Nat) : CodeBlock → Prop
  | .mk opening closing statements =>
    (l.bytesOf opening).Shows cs ∧ (l.bytesOf closing).Shows cs ∧ lo ≤ l.byte opening.start ∧
      Rust.statementsNest l cs (l.byte opening.stop) (l.byte closing.start) statements ∧
      l.byte closing.stop ≤ hi

/-- Whether some statements follow each other between two bytes. -/
def Rust.statementsNest (l : Layout) (cs : List Char) (lo hi : Nat) : List Statement → Prop
  | [] => lo ≤ hi
  | s :: rest =>
    (l.bytesOf (spanOf s.tokens)).Shows cs ∧ lo ≤ l.byte (spanOf s.tokens).start ∧
      s.Nests l cs (l.byte (spanOf s.tokens).start) (l.byte (spanOf s.tokens).stop) ∧
      Rust.statementsNest l cs (l.byte (spanOf s.tokens).stop) hi rest

/-- Whether what is nested in a statement lies between two bytes. -/
def Rust.Statement.Nests (l : Layout) (cs : List Char) (lo hi : Nat) : Statement → Prop
  | .binding _ _ _ _ => True
  | .expression _ form => form.Nests l cs lo hi
  | .other _ => True

/-- Whether what is nested in an expression that begins at byte `lo` lies between its first
character and byte `hi`. -/
def Rust.Form.Nests (l : Layout) (cs : List Char) (lo hi : Nat) : Form → Prop
  | .ifThen _ yes none => yes.Nests l cs lo hi
  | .ifThen _ yes (some no) =>
    yes.Nests l cs lo (l.byte yes.closing.stop) ∧ no.Nests l cs (l.byte yes.closing.stop) hi
  | .forLoop _ body => body.Nests l cs lo hi
  | .whileLoop _ body => body.Nests l cs lo hi
  | .loop body => body.Nests l cs lo hi
  | .block _ body => body.Nests l cs lo hi
  | .unsafeBlock body => body.Nests l cs lo hi
  | .matchOn _ arms => Rust.armsNest l cs (lo + 1) hi arms
  | .flat _ => True

/-- Whether the expression of an `else` branch lies between two bytes. -/
def Rust.Expression.Nests (l : Layout) (cs : List Char) (lo hi : Nat) : Expression → Prop
  | .mk tokens form =>
    (l.bytesOf (spanOf tokens)).Shows cs ∧ lo ≤ l.byte (spanOf tokens).start ∧
      form.Nests l cs (l.byte (spanOf tokens).start) (l.byte (spanOf tokens).stop) ∧
      l.byte (spanOf tokens).stop ≤ hi

/-- Whether some arms follow each other between two bytes. -/
def Rust.armsNest (l : Layout) (cs : List Char) (lo hi : Nat) : List MatchArm → Prop
  | [] => lo ≤ hi
  | m :: rest =>
    (l.bytesOf (spanOf m.tokens)).Shows cs ∧ lo ≤ l.byte (spanOf m.tokens).start ∧
      m.Nests l cs (l.byte (spanOf m.tokens).start) (l.byte (spanOf m.tokens).stop) ∧
      Rust.armsNest l cs (l.byte (spanOf m.tokens).stop) hi rest

/-- Whether the block of an arm lies between two bytes. -/
def Rust.MatchArm.Nests (l : Layout) (cs : List Char) (lo hi : Nat) : MatchArm → Prop
  | .mk _ _ (.mk _ (.block false body)) => body.Nests l cs lo hi
  | _ => True

end

/-- Whether some function bodies follow each other after a byte. -/
def Rust.blocksNest (l : Layout) (cs : List Char) (lo : Nat) : List CodeBlock → Prop
  | [] => True
  | b :: rest =>
    b.Nests l cs lo (l.byte b.closing.stop) ∧ Rust.blocksNest l cs (l.byte b.closing.stop) rest

/-! ## Nested extents -/

/-- Whether the hole of a piece takes what shows of its span, and the head is in it. -/
structure Extent.Sound (cs : List Char) (e : Extent) : Prop where
  head_visible : IsVisible cs e.head
  start_le : e.span.start ≤ e.head
  head_lt : e.head < e.span.stop
  fits : e.hole.fits cs
  same : ∀ k, IsVisible cs k → (e.hole.covers k ↔ e.span.covers k)

/-- Whether pieces follow each other between two bytes, nested ones after the heads of those around
them. -/
def Forest.Nested (cs : List Char) (lo hi : Nat) : Forest Extent → Prop
  | .nil => lo ≤ hi
  | .cons e inner rest =>
    e.Sound cs ∧ lo ≤ e.span.start ∧ inner.Nested cs (e.head + 1) e.span.stop ∧
      rest.Nested cs e.span.stop hi

namespace Forest.Nested

variable {cs : List Char} {f g : Forest Extent} {lo lo' mid hi hi' : Nat}

/-- Where something is nested there is room for it. -/
theorem le (h : f.Nested cs lo hi) : lo ≤ hi := by
  induction f generalizing lo with
  | nil => exact h
  | cons e inner rest _ ih =>
    obtain ⟨hsound, hlo, _, hrest⟩ := h
    have hstart := hsound.start_le
    have hhead := hsound.head_lt
    have hstop := ih hrest
    omega

/-- What is nested in a range is nested in each wider one. -/
theorem mono (h : f.Nested cs lo hi) (hlo : lo' ≤ lo) (hhi : hi ≤ hi') : f.Nested cs lo' hi' := by
  induction f generalizing lo lo' with
  | nil => exact Nat.le_trans hlo (Nat.le_trans h hhi)
  | cons e inner rest _ ih =>
    obtain ⟨hsound, hstart, hinner, hrest⟩ := h
    exact ⟨hsound, Nat.le_trans hlo hstart, hinner, ih hrest (Nat.le_refl _)⟩

/-- What is nested in two ranges that follow each other is nested in both together. -/
theorem append (h₁ : f.Nested cs lo mid) (h₂ : g.Nested cs mid hi) :
    (f.append g).Nested cs lo hi := by
  induction f generalizing lo with
  | nil => exact h₂.mono h₁ (Nat.le_refl _)
  | cons e inner rest _ ih =>
    obtain ⟨hsound, hstart, hinner, hrest⟩ := h₁
    exact ⟨hsound, hstart, hinner, ih hrest⟩

/-- Each extent that is nested in a range is sound and lies in it. -/
theorem of_mem (h : f.Nested cs lo hi) {e : Extent} (he : e ∈ f.labels) :
    e.Sound cs ∧ lo ≤ e.span.start ∧ e.span.stop ≤ hi := by
  induction f generalizing lo hi with
  | nil => cases he
  | cons x inner rest ih₁ ih₂ =>
    obtain ⟨hsound, hstart, hinner, hrest⟩ := h
    have hspan := hsound.start_le
    have hhead := hsound.head_lt
    have hstop := hrest.le
    rcases List.mem_append.mp he with he | he
    · rcases List.mem_cons.mp he with rfl | he
      · exact ⟨hsound, hstart, hstop⟩
      · obtain ⟨he, hlo, hhi⟩ := ih₁ hinner he
        exact ⟨he, by omega, by omega⟩
    · obtain ⟨he, hlo, hhi⟩ := ih₂ hrest he
      exact ⟨he, by omega, hhi⟩

/-- No hole takes the head of a piece that stands before it. -/
theorem hole_ne (x e : Extent) (hx : x.Sound cs) (he : e.Sound cs)
    (before : x.head < e.span.start) :
    x.hole ≠ e.hole := by
  intro heq
  have hcovers : x.span.covers x.head := Hole.covers_iff.mpr ⟨hx.start_le, hx.head_lt⟩
  rw [← hx.same _ hx.head_visible, heq, he.same _ hx.head_visible, Hole.covers_iff] at hcovers
  omega

/-- All holes are different. -/
theorem nodup (h : f.Nested cs lo hi) : (f.labels.map Extent.hole).Nodup := by
  induction f generalizing lo hi with
  | nil => exact List.nodup_nil
  | cons x inner rest ih₁ ih₂ =>
    obtain ⟨hsound, hstart, hinner, hrest⟩ := h
    have hhead := hsound.head_lt
    rw [Forest.labels, List.cons_append, List.map_cons, List.map_append, List.nodup_cons,
      List.nodup_append]
    refine ⟨fun hmem => ?_, ih₁ hinner, ih₂ hrest, ?_⟩
    · -- All others begin after the head of the first piece.
      rw [← List.map_append] at hmem
      obtain ⟨e, he, heq⟩ := List.mem_map.mp hmem
      rcases List.mem_append.mp he with he | he
      · obtain ⟨he, hlo, _⟩ := hinner.of_mem he
        exact hole_ne x e hsound he (by omega) heq.symm
      · obtain ⟨he, hlo, _⟩ := hrest.of_mem he
        exact hole_ne x e hsound he (by omega) heq.symm
    · -- What is nested in the first piece ends before the pieces after it begin.
      intro a ha b hb
      obtain ⟨e, he, rfl⟩ := List.mem_map.mp ha
      obtain ⟨e', he', rfl⟩ := List.mem_map.mp hb
      obtain ⟨hsound, _, hhi⟩ := hinner.of_mem he
      obtain ⟨hsound', hlo, _⟩ := hrest.of_mem he'
      have hhead' := hsound.head_lt
      exact hole_ne e e' hsound hsound' (by omega)

/-- What shows of a nested piece is taken by the holes around it. -/
theorem inside (h : f.Nested cs lo hi) :
    (f.map Extent.hole).Inside fun x y => ∀ k, IsVisible cs k → x.covers k → y.covers k := by
  induction f generalizing lo hi with
  | nil => trivial
  | cons x inner rest ih₁ ih₂ =>
    obtain ⟨hsound, _, hinner, hrest⟩ := h
    refine ⟨fun y hy k hvisible hcovers => ?_, ih₁ hinner, ih₂ hrest⟩
    rw [Forest.labels_map] at hy
    obtain ⟨e, he, rfl⟩ := List.mem_map.mp hy
    obtain ⟨hin, hlo, hhi⟩ := hinner.of_mem he
    rw [hin.same k hvisible, Hole.covers_iff] at hcovers
    rw [hsound.same k hvisible, Hole.covers_iff]
    have hstart := hsound.start_le
    omega

end Forest.Nested

section Nests

variable {l : Layout} {source : String}

/-- The hole that lowering makes of a span takes what shows of it. -/
theorem Extent.sound_ofTokens (bytes : l.bytes = source.toUTF8.data) {tokens : List TokenTree}
    (shows : (l.bytesOf (spanOf tokens)).Shows source.toList) :
    (Extent.ofTokens l tokens).Sound source.toList := by
  obtain ⟨c, hc, _⟩ := shows.first
  have hfits : (l.bytesOf (spanOf tokens)).fits source.toList :=
    Hole.fits_iff.mpr ⟨Nat.le_of_lt shows.nonempty, isBoundary_of_charAt? hc, shows.last⟩
  obtain ⟨hhole, hsame⟩ := lineHole_spec hfits
  rw [← bytes] at hhole hsame
  exact ⟨shows.first, Nat.le_refl _, shows.nonempty, hhole, hsame⟩

/-- An `else` branch that begins where the branch before it ends has a sound extent. -/
theorem Extent.sound_ofElse {tokens : List TokenTree} {start : Nat}
    (shows : (l.bytesOf (spanOf tokens)).Shows source.toList)
    (boundary : isBoundary source.toList start) (after : start ≤ l.byte (spanOf tokens).start) :
    (Extent.ofElse l start tokens).Sound source.toList := by
  have hlt : l.byte (spanOf tokens).start < l.byte (spanOf tokens).stop := shows.nonempty
  refine ⟨shows.first, after, hlt, ?_, fun _ _ => Iff.rfl⟩
  exact Hole.fits_iff.mpr ⟨Nat.le_of_lt (Nat.lt_of_le_of_lt after hlt), boundary, shows.last⟩

/-- A block that nests ends at a boundary in its range. -/
theorem Rust.CodeBlock.Nests.closing {b : CodeBlock} {lo hi : Nat}
    (h : b.Nests l source.toList lo hi) :
    isBoundary source.toList (l.byte b.closing.stop) ∧ l.byte b.closing.stop ≤ hi := by
  obtain ⟨opening, closing, statements⟩ := b
  exact ⟨h.2.1.last, h.2.2.2.2⟩

mutual

/-- The pieces of a well-nested block begin after its first character. -/
theorem Rust.CodeBlock.Nests.nested (bytes : l.bytes = source.toUTF8.data) :
    ∀ (b : CodeBlock) {lo hi : Nat}, b.Nests l source.toList lo hi →
      (b.extents l).Nested source.toList (lo + 1) hi
  | .mk opening closing statements, _, _, h => by
    obtain ⟨hopening, hclosing, hlo, hstatements, hhi⟩ := h
    have hfirst : l.byte opening.start < l.byte opening.stop := hopening.nonempty
    have hlast : l.byte closing.start < l.byte closing.stop := hclosing.nonempty
    exact (Rust.statementsNested bytes statements hstatements).mono (by omega) (by omega)

/-- The extents of statements that nest are nested. -/
theorem Rust.statementsNested (bytes : l.bytes = source.toUTF8.data) :
    ∀ (statements : List Statement) {lo hi : Nat},
      Rust.statementsNest l source.toList lo hi statements →
        (Rust.statementsExtents l statements).Nested source.toList lo hi
  | [], _, _, h => h
  | s :: rest, _, _, h => by
    obtain ⟨hshows, hlo, hinner, hrest⟩ := h
    exact ⟨Extent.sound_ofTokens bytes hshows, hlo,
      Rust.Statement.Nests.nested bytes s hshows.nonempty hinner,
      Rust.statementsNested bytes rest hrest⟩

theorem Rust.Statement.Nests.nested (bytes : l.bytes = source.toUTF8.data) :
    ∀ (s : Statement) {lo hi : Nat}, lo < hi → s.Nests l source.toList lo hi →
      (s.inner l).Nested source.toList (lo + 1) hi
  | .binding _ _ _ _, _, _, hlt, _ => hlt
  | .expression _ form, _, _, hlt, h => Rust.Form.Nests.nested bytes form hlt h
  | .other _, _, _, hlt, _ => hlt

/-- The extents in what a statement is made of are nested if that nests. -/
theorem Rust.Form.Nests.nested (bytes : l.bytes = source.toUTF8.data) :
    ∀ (form : Form) {lo hi : Nat}, lo < hi → form.Nests l source.toList lo hi →
      (form.extents l).Nested source.toList (lo + 1) hi
  | .ifThen _ yes none, _, _, _, h => Rust.CodeBlock.Nests.nested bytes yes h
  | .ifThen _ yes (some no), _, _, _, h =>
    (Rust.CodeBlock.Nests.nested bytes yes h.1).append
      (Rust.Expression.Nests.nested bytes no h.1.closing.1 h.2)
  | .forLoop _ body, _, _, _, h => Rust.CodeBlock.Nests.nested bytes body h
  | .whileLoop _ body, _, _, _, h => Rust.CodeBlock.Nests.nested bytes body h
  | .loop body, _, _, _, h => Rust.CodeBlock.Nests.nested bytes body h
  | .block _ body, _, _, _, h => Rust.CodeBlock.Nests.nested bytes body h
  | .unsafeBlock body, _, _, _, h => Rust.CodeBlock.Nests.nested bytes body h
  | .matchOn _ arms, _, _, _, h => Rust.armsNested bytes arms h
  | .flat _, _, _, hlt, _ => hlt

/-- An `else` branch begins where the block before it ends. -/
theorem Rust.Expression.Nests.nested (bytes : l.bytes = source.toUTF8.data) :
    ∀ (e : Expression) {lo hi : Nat}, isBoundary source.toList lo → e.Nests l source.toList lo hi →
      (e.extents l lo).Nested source.toList lo hi
  | .mk tokens form, lo, _, hboundary, h => by
    obtain ⟨hshows, hlo, hform, hhi⟩ := h
    exact ⟨Extent.sound_ofElse hshows hboundary hlo, Nat.le_refl lo,
      Rust.Form.Nests.nested bytes form hshows.nonempty hform, hhi⟩

/-- The extents of arms that nest are nested. -/
theorem Rust.armsNested (bytes : l.bytes = source.toUTF8.data) :
    ∀ (arms : List MatchArm) {lo hi : Nat}, Rust.armsNest l source.toList lo hi arms →
      (Rust.armsExtents l arms).Nested source.toList lo hi
  | [], _, _, h => h
  | m :: rest, _, _, h => by
    obtain ⟨hshows, hlo, hinner, hrest⟩ := h
    exact ⟨Extent.sound_ofTokens bytes hshows, hlo,
      Rust.MatchArm.Nests.nested bytes m hshows.nonempty hinner, Rust.armsNested bytes rest hrest⟩

/-- The extents in an arm that nests are nested. -/
theorem Rust.MatchArm.Nests.nested (bytes : l.bytes = source.toUTF8.data) :
    ∀ (m : MatchArm) {lo hi : Nat}, lo < hi → m.Nests l source.toList lo hi →
      (m.inner l).Nested source.toList (lo + 1) hi
  | .mk _ _ (.mk _ (.block false body)), _, _, _, h => Rust.CodeBlock.Nests.nested bytes body h
  | .mk _ _ (.mk _ (.block true _)), _, _, hlt, _ => hlt
  | .mk _ _ (.mk _ (.ifThen _ _ _)), _, _, hlt, _ => hlt
  | .mk _ _ (.mk _ (.forLoop _ _)), _, _, hlt, _ => hlt
  | .mk _ _ (.mk _ (.whileLoop _ _)), _, _, hlt, _ => hlt
  | .mk _ _ (.mk _ (.loop _)), _, _, hlt, _ => hlt
  | .mk _ _ (.mk _ (.unsafeBlock _)), _, _, hlt, _ => hlt
  | .mk _ _ (.mk _ (.matchOn _ _)), _, _, hlt, _ => hlt
  | .mk _ _ (.mk _ (.flat _)), _, _, hlt, _ => hlt

end

/-- The pieces of well-nested function bodies are nested too. -/
theorem Rust.blocksNested (bytes : l.bytes = source.toUTF8.data) {blocks : List CodeBlock}
    {lo : Nat} (h : Rust.blocksNest l source.toList lo blocks) :
    ∃ hi, (Rust.blocksExtents l blocks).Nested source.toList lo hi := by
  induction blocks generalizing lo with
  | nil => exact ⟨lo, Nat.le_refl lo⟩
  | cons b rest ih =>
    obtain ⟨hi, hrest⟩ := ih h.2
    have hfirst := Rust.CodeBlock.Nests.nested bytes b h.1
    exact ⟨hi, (hfirst.mono (Nat.le_succ lo) (Nat.le_refl _)).append hrest⟩

end Nests

end CoverageReplay
