import CoverageReplay.Proofs.Coverage.NormalForm
import CoverageReplay.Proofs.Coverage.ProfileLines

/-!
# Profiles written and read back

A profile is not changed by going through the list of its blocks (`ofBlocks_blocks`), so it is got
back from its text if each block is got back from its line. What that takes is `Block.IsWritable`;
signs that divide the fields may stand in the name of the file, since it ends at the last colon
(`blockLine_render`).
-/

namespace CoverageReplay

open Text

/-! ## Lines that are written -/

/-- Whether the line of a block tells the block. -/
structure Block.IsWritable (b : Block) : Prop where
  named : b.file ≠ ""
  /-- The name goes on one line. -/
  oneLine : '\n' ∉ b.file.toList
  /-- Blanks in front of a line do not count, so the name does not begin with one. -/
  solid : StartsSolid b.file.toList
  start : b.range.start.line ≠ 0 ∧ b.range.start.column ≠ 0
  stop : b.range.stop.line ≠ 0 ∧ b.range.stop.column ≠ 0
  ordered : b.range.start ≤ b.range.stop

section Written

variable {b : Block} {p : Position} {n : UInt32}

theorem toList_toString (n : Nat) : (toString n).toList = decimal n := by
  simp [decimal, toString]

theorem numberText_toString (n : UInt32) : NumberText n (toString n.toNat).toList := by
  rw [toList_toString]
  exact .plain (digits?_eq_some_iff.mp (digits?_decimal n.toNat))

/-- What is written for a position spells it, if both its numbers count from one. -/
theorem positionText_text (h : p.line ≠ 0 ∧ p.column ≠ 0) : PositionText p p.text.toList := by
  have htext : p.text.toList = (toString p.line.toNat).toList ++
      '.' :: (toString p.column.toNat).toList := by
    simp [Position.text]
  rw [htext]
  exact .mk (numberText_toString _) (numberText_toString _) h.1 h.2

/-- The line of a block without the line feed at its end. -/
def blockText (b : Block) : List Char :=
  b.file.toList ++ ':' :: (b.range.start.text.toList ++ ',' :: b.range.stop.text.toList ++
    ' ' :: (toString b.statements.toNat).toList ++ ' ' :: (toString b.executed.toNat).toList)

theorem toList_renderBlock (b : Block) :
    (Profile.renderBlock b).toList = blockText b ++ ['\n'] := by
  simp [Profile.renderBlock, blockText]

/-- The line that is written for a block is a line of that block. -/
theorem blockLine_render (h : b.IsWritable) : BlockLine b (blockText b) := by
  have hrange : RangeText b.range (b.range.start.text.toList ++ ',' :: b.range.stop.text.toList) :=
    .mk (positionText_text h.start) (positionText_text h.stop) h.ordered
  have hspace : IsGap [' '] := by simp [isBlank]
  have hends (cs : List Char) : EndsWord (' ' :: cs) := by
    intro c hc
    cases hc
    rfl
  have hnil : EndsWord [] := by
    intro c hc
    cases hc
  have hstatements := numberText_toString b.statements
  have hexecuted := numberText_toString b.executed
  have hfields : Spaced [b.range.start.text.toList ++ ',' :: b.range.stop.text.toList,
      (toString b.statements.toNat).toList, (toString b.executed.toNat).toList]
      ([] ++ (b.range.start.text.toList ++ ',' :: b.range.stop.text.toList) ++
        ([' '] ++ (toString b.statements.toNat).toList ++
          ([' '] ++ (toString b.executed.toNat).toList ++ []))) :=
    .cons isGap_nil hrange.isWord (hends _) (.cons hspace hstatements.isWord (hends _)
      (.cons hspace hexecuted.isWord hnil (.nil isGap_nil)))
  have hline := BlockLine.mk isGap_nil h.named h.solid hfields hrange hstatements hexecuted
  simpa [blockText] using hline

end Written

/-! ## Texts that are written -/

namespace Profile

variable {blocks : List Block}

/-- No line feed stands within that line. -/
theorem newline_not_mem_blockText {b : Block} (h : b.IsWritable) : '\n' ∉ blockText b := by
  have hnumber (n : Nat) : '\n' ∉ Nat.toDigits 10 n := by
    intro hmem
    cases isDigit_of_mem_decimal hmem
  have hfile := h.oneLine
  simp [blockText, Position.text, hnumber, hfile]

/-- Each block has its line, and behind the last feed nothing is left. -/
theorem splitOn_renderBlocks (h : ∀ b ∈ blocks, b.IsWritable) :
    (blocks.flatMap fun b => (renderBlock b).toList).splitOn '\n' =
      blocks.map blockText ++ [[]] := by
  induction blocks with
  | nil => rfl
  | cons b blocks ih =>
    rw [List.forall_mem_cons] at h
    rw [List.flatMap_cons, toList_renderBlock, List.append_assoc, List.singleton_append,
      List.splitOn_append_cons_self_of_not_mem (newline_not_mem_blockText h.1), ih h.2,
        List.map_cons, List.cons_append]

/-- The lines that are written for blocks spell them. -/
theorem blockLines_render (h : ∀ b ∈ blocks, b.IsWritable) :
    BlockLines (blocks.map blockText ++ [[]]) blocks := by
  induction blocks with
  | nil => exact .blank isGap_nil .nil
  | cons b blocks ih =>
    rw [List.forall_mem_cons] at h
    exact .block (blockLine_render h.1) (ih h.2)

/-- The lines of the text of a profile are its header and the lines of its blocks. -/
theorem profileLines_render {p : Profile} (h : ∀ b ∈ p.blocks, b.IsWritable) :
    ProfileLines (p.render.toList.splitOn '\n') p.mode p.blocks := by
  have hspace : IsGap [' '] := by simp [isBlank]
  have hheader :
      HeaderLine p.mode ([] ++ ("mode:".toList ++ ([' '] ++ p.mode.name.toList)) ++ []) :=
    .mk isGap_nil hspace isGap_nil
  have hfeed : '\n' ∉ "mode:".toList ++ ([' '] ++ p.mode.name.toList) := by
    cases p.mode with
    | set => decide
    | count => decide
    | atomic => decide
  have htext : p.render.toList = ("mode:".toList ++ ([' '] ++ p.mode.name.toList)) ++
      '\n' :: p.blocks.flatMap fun b => (renderBlock b).toList := by
    simp [render, String.toList_join, List.flatMap_map]
  rw [List.nil_append, List.append_nil] at hheader
  rw [htext, List.splitOn_append_cons_self_of_not_mem hfeed, splitOn_renderBlocks h]
  exact .headed (List.forall_mem_nil _) hheader (blockLines_render h)

/-- A profile in normal form is got back from its text, if each of its blocks can be got back from a
line. -/
theorem parse?_render_ofBlocks (mode : Mode) (blocks : List Block)
    (h : ∀ b ∈ (ofBlocks mode blocks).blocks, b.IsWritable) :
    parse? (ofBlocks mode blocks).render = .ok (ofBlocks mode blocks) := by
  rw [parse?_of_profileLines (profileLines_render h)]
  exact congrArg Except.ok (ofBlocks_blocks mode blocks)

/-- Two reports of a region whose file has signs in its name that also divide fields. -/
def driveBlocks : List Block :=
  [⟨"C:\\my files, 1.5.go", ⟨⟨10, 1⟩, ⟨12, 3⟩⟩, 2, 4294967295⟩,
    ⟨"C:\\my files, 1.5.go", ⟨⟨10, 1⟩, ⟨12, 3⟩⟩, 4294967295, 1⟩]

theorem parse?_render_ofBlocks_drive :
    (∀ b ∈ (ofBlocks .count driveBlocks).blocks, b.IsWritable) ∧
      parse? (ofBlocks .count driveBlocks).render = .ok (ofBlocks .count driveBlocks) := by
  have hwritable : ∀ b ∈ (ofBlocks .count driveBlocks).blocks, b.IsWritable := by
    intro b hb
    have hblock : b = ⟨"C:\\my files, 1.5.go", ⟨⟨10, 1⟩, ⟨12, 3⟩⟩, 4294967295, 4294967295⟩ := by
      revert b
      decide +kernel
    subst hblock
    exact {
      named := by decide
      oneLine := by decide
      solid := by
        intro c hc
        cases hc
        rfl
      start := by decide
      stop := by decide
      ordered := by decide }
  exact ⟨hwritable, parse?_render_ofBlocks .count driveBlocks hwritable⟩

end Profile

end CoverageReplay
