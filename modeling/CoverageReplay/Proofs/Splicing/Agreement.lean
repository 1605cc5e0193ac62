import CoverageReplay.Proofs.Splicing.Outline
import CoverageReplay.Proofs.Splicing.Splice

/-!
# The text agrees with the tree

Pruning keeps two records of what it has removed: the tree without the pieces, and the list of their
holes, around which the source is copied. `splice?_passes` says that the two agree, whatever passes
a tree has gone through: of the characters that show, the text lacks those in the spans of the
pieces that the tree lacks, and no others.

The holes are those of lost pieces only, and they take nothing that shows beyond the spans. In the
other direction, a piece that is lost without a hole of its own was nested in one that has been cut.
-/

namespace CoverageReplay

open Rust

namespace SourceTree

/-- The tree of some function bodies before any pass. -/
def lowered (l : Layout) (path source : String) (blocks : List CodeBlock) : SourceTree :=
  ⟨path, source, blocks.map (lowerBlock l), []⟩

theorem forest_lowered (l : Layout) (path source : String) (blocks : List CodeBlock) :
    (lowered l path source blocks).forest = (Rust.blocksExtents l blocks).map Extent.hole :=
  bodiesForest_lowerBlock l blocks

/-- **The text agrees with the tree.** Let the spans of some function bodies be well nested, and let
any passes go over the tree that lowering makes of them. Then splicing succeeds and leaves out some
characters of the source; one that shows is left out exactly if it lies in the span of a piece that
the tree no longer contains. (No two pieces have the same hole, so a tree contains a piece if it has
its hole.) -/
theorem splice?_passes (l : Layout) (path source : String) (bytes : l.bytes = source.toUTF8.data)
    (blocks : List CodeBlock) (nests : Rust.blocksNest l source.toList 0 blocks)
    (runs : List MergedCoverage) :
    ((Rust.blocksExtents l blocks).labels.map Extent.hole).Nodup ∧
      ∃ keep, ((lowered l path source blocks).passes runs).splice? =
          .ok (String.ofList (select keep 0 source.toList)) ∧
        ∀ k, IsVisible source.toList k →
          (keep k = false ↔ ∃ e ∈ (Rust.blocksExtents l blocks).labels,
            e.span.covers k ∧ e.hole ∉ ((lowered l path source blocks).passes runs).places) := by
  obtain ⟨hi, hnested⟩ := Rust.blocksNested bytes nests
  have hshrinks := passes_shrinks (lowered l path source blocks) rfl runs
  have hsource : ((lowered l path source blocks).passes runs).source = source :=
    source_passes _ runs
  generalize (lowered l path source blocks).passes runs = t at hshrinks hsource ⊢
  rw [forest_lowered] at hshrinks
  have hnodup := hnested.nodup
  obtain ⟨hcuts, hlost⟩ := hshrinks.cuts_of_nodup (fun _ _ _ hk => hk) hnested.inside
    (by rwa [Forest.labels_map])
  -- A hole is that of a piece that the tree lacks.
  have hholes : ∀ h ∈ t.holes, ∃ e ∈ (Rust.blocksExtents l blocks).labels,
      e.hole = h ∧ e.hole ∉ t.places := by
    intro h hh
    obtain ⟨hmem, hgone⟩ := hcuts h hh
    rw [Forest.labels_map] at hmem
    obtain ⟨e, he, rfl⟩ := List.mem_map.mp hmem
    exact ⟨e, he, rfl, hgone⟩
  refine ⟨hnodup, fun k => !t.holes.any (·.covers k), ?_, fun k hvisible => ?_⟩
  · rw [← hsource]
    refine splice?_eq fun h hh => ?_
    obtain ⟨e, he, rfl, _⟩ := hholes h hh
    rw [hsource]
    exact (hnested.of_mem he).1.fits
  · rw [Bool.not_eq_false', List.any_eq_true]
    constructor
    · intro hgap
      obtain ⟨h, hh, hcovers⟩ := hgap
      obtain ⟨e, he, rfl, hgone⟩ := hholes h hh
      exact ⟨e, he, ((hnested.of_mem he).1.same k hvisible).mp hcovers, hgone⟩
    · intro hpiece
      obtain ⟨e, he, hcovers, hgone⟩ := hpiece
      -- If the piece has not been cut itself, a piece around it has.
      obtain ⟨h, hh, hinside⟩ :=
        hlost e.hole (by rw [Forest.labels_map]; exact List.mem_map_of_mem he) hgone
      exact ⟨h, hh, hinside k hvisible (((hnested.of_mem he).1.same k hvisible).mpr hcovers)⟩

/-- A function with one `if`, all in one line. -/
def branching : String :=
  "fn f() \x7b\n    if c \x7b g(); \x7d else \x7b h(); \x7d\n\x7d\n"

/-- How lowering looks at `branching`. -/
def branchingLayout : Layout :=
  ⟨branching.toUTF8.data, 0, .ofText branching.toList⟩

/-- A stretch of the second line. -/
def inLine (start stop : Nat) : Span :=
  ⟨⟨2, start⟩, ⟨2, stop⟩⟩

/-- A block of the second line that holds a call. -/
def callBlock (name : String) (column : Nat) : CodeBlock :=
  .mk (inLine column (column + 1)) (inLine (column + 7) (column + 8))
    [.expression
      [.ident name (inLine (column + 2) (column + 3)),
        .group .paren (inLine (column + 3) (column + 4)) [] (inLine (column + 4) (column + 5)),
        .punct ';' false (inLine (column + 5) (column + 6))]
      (.flat .plain)]

/-- The outline of `branching`, without the tokens that groups hold. -/
def branchingBlock : CodeBlock :=
  .mk ⟨⟨1, 7⟩, ⟨1, 8⟩⟩ ⟨⟨3, 0⟩, ⟨3, 1⟩⟩
    [.expression
      [.ident "if" (inLine 4 6), .ident "c" (inLine 7 8),
        .group .brace (inLine 9 10) [] (inLine 16 17), .ident "else" (inLine 18 22),
        .group .brace (inLine 23 24) [] (inLine 30 31)]
      (.ifThen [.ident "c" (inLine 7 8)] (callBlock "g" 9)
        (some (.mk [.group .brace (inLine 23 24) [] (inLine 30 31)]
          (.block false (callBlock "h" 23)))))]

/-- Coverage in which the call of the `else` branch of `branching` did not run. -/
def elseSkipped : MergedCoverage :=
  .ofProfiles [.ofBlocks .set [⟨"f.rs", ⟨⟨2, 26⟩, ⟨2, 30⟩⟩, 1, 0⟩]]

/-- Of `branching` a pass leaves the call that may have run; that of the `else` branch is left
out. -/
theorem splice?_passes_branching :
    branchingLayout.bytes = branching.toUTF8.data ∧
      Rust.blocksNest branchingLayout branching.toList 0 [branchingBlock] ∧
      ∃ keep,
        ((lowered branchingLayout "f.rs" branching [branchingBlock]).passes [elseSkipped]).splice? =
          .ok (String.ofList (select keep 0 branching.toList)) ∧
        keep 34 = false := by
  have hnests : Rust.blocksNest branchingLayout branching.toList 0 [branchingBlock] := by
    refine ⟨⟨by decide, by decide, by decide, ⟨by decide, by decide, ⟨?_, ?_⟩, ?_⟩, by
      decide⟩, trivial⟩
    · refine ⟨by decide, by decide, by decide, ⟨by decide, by decide, trivial, ?_⟩, by decide⟩
      show (24 : Nat) ≤ 25
      decide
    · refine ⟨by decide, by decide, ⟨by decide, by decide, by decide, ?_, by decide⟩, by decide⟩
      refine ⟨by decide, by decide, trivial, ?_⟩
      show (38 : Nat) ≤ 39
      decide
    · show (40 : Nat) ≤ 41
      decide
  have hplaces : ((lowered branchingLayout "f.rs" branching [branchingBlock]).passes
      [elseSkipped]).places = [⟨9, 41⟩, ⟨20, 24⟩] := by decide +kernel
  obtain ⟨_, keep, hsplice, hkeep⟩ :=
    splice?_passes branchingLayout "f.rs" branching rfl [branchingBlock] hnests [elseSkipped]
  refine ⟨rfl, hnests, keep, hsplice,
    (hkeep 34 (by decide)).mpr ⟨⟨32, ⟨26, 40⟩, ⟨26, 40⟩⟩, ?_, ?_, ?_⟩⟩
  · decide
  · decide
  · rw [hplaces]
    decide

end SourceTree

end CoverageReplay
