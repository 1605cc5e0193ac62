import CoverageReplay.Proofs.Coverage.Blocks
import CoverageReplay.Proofs.Text.Bytes

/-!
# Profiles in normal form

A profile is made of reports in any order, with any number of them for one region. Its blocks are in
strict order of their regions, one for each region that was reported, and a block has what the
reports of its region come to (`Block.Totals`): their largest number of statements, and their counts
combined as the mode of the profile says.

That depends on which reports there are and not on their order, and reports that were combined
before can be combined further (`ofBlocks_combines`). `Profile.Combines` is what ties the blocks to
the reports; one report more keeps it (`Combines.addBlock`).
-/

namespace CoverageReplay

/-! ## Counts of one region -/

namespace Mode

variable {mode : Mode} {counts counts' : List Nat} {m n : UInt32}

/-- What the counts of a region come to: the largest of them where counts say only whether a block
ran, else their sum, capped at the largest count there is. -/
def combineAll : Mode → List Nat → Nat
  | set, counts => counts.foldr max 0
  | count, counts => min (total counts) 4294967295
  | atomic, counts => min (total counts) 4294967295

/-- A single count is not changed by combining. -/
theorem combineAll_singleton (mode : Mode) (n : UInt32) : mode.combineAll [n.toNat] = n.toNat := by
  have hn := n.toNat_lt
  cases mode with
  | set => exact Nat.max_zero _
  | count | atomic =>
    simp only [combineAll, total]
    omega

/-- A cap on the sum so far does not show in the capped sum. -/
theorem toNat_cappedSum (h : m.toNat = min (total counts) 4294967295) :
    (cappedSum m n).toNat = min (total (counts ++ [n.toNat])) 4294967295 := by
  have hlt : min (m.toNat + n.toNat) 4294967295 < UInt32.size :=
    Nat.lt_of_le_of_lt (Nat.min_le_right _ _) (by decide)
  rw [cappedSum, UInt32.toNat_ofNat_of_lt' hlt, total_concat]
  omega

/-- One count more is combined with what the others come to. -/
theorem toNat_combine (h : m.toNat = mode.combineAll counts) :
    (mode.combine m n).toNat = mode.combineAll (counts ++ [n.toNat]) := by
  cases mode with
  | set =>
    rw [combineAll, foldr_max_concat, ← combineAll, ← h, combine]
    split
    next hgt =>
      have hlt : n.toNat < m.toNat := UInt32.lt_iff_toNat_lt.mp hgt
      omega
    next hle =>
      have hnlt : ¬ n.toNat < m.toNat := fun hlt => hle (UInt32.lt_iff_toNat_lt.mpr hlt)
      omega
  | count => exact toNat_cappedSum h
  | atomic => exact toNat_cappedSum h

/-- Counts are combined in any order. -/
theorem combineAll_perm (perm : counts.Perm counts') :
    mode.combineAll counts = mode.combineAll counts' := by
  have htotal : total counts = total counts' := by
    rw [total_eq_sum, total_eq_sum, perm.sum_eq]
  cases mode with
  | set => exact perm.foldr_eq 0
  | count | atomic => rw [combineAll, combineAll, htotal]

/-- Counts come to something exactly if one of them does. -/
theorem combineAll_pos : 0 < mode.combineAll counts ↔ ∃ n ∈ counts, 0 < n := by
  have hmax : 0 < counts.foldr max 0 ↔ ∃ n ∈ counts, 0 < n := by
    induction counts with
    | nil => simp
    | cons n rest ih => rw [List.foldr_cons, lt_max_iff, ih, List.exists_mem_cons_iff]
  have htotal : 0 < total counts ↔ ∃ n ∈ counts, 0 < n := by
    clear hmax
    induction counts with
    | nil => simp [total]
    | cons n rest ih => rw [total, Nat.add_pos_iff_pos_or_pos, ih, List.exists_mem_cons_iff]
  cases mode with
  | set => exact hmax
  | count | atomic =>
    rw [← htotal, combineAll]
    omega

end Mode

/-! ## What reports come to -/

namespace Block

variable {mode : Mode} {b c : Block} {reports reports' : List Block}

/-- Whether a block has what some reports of its region come to. -/
structure Totals (mode : Mode) (reports : List Block) (b : Block) : Prop where
  statements : b.statements.toNat = (reports.map (·.statements.toNat)).foldr max 0
  executed : b.executed.toNat = mode.combineAll (reports.map (·.executed.toNat))

theorem Totals.singleton (mode : Mode) (b : Block) : b.Totals mode [b] where
  statements := (Nat.max_zero _).symm
  executed := (mode.combineAll_singleton b.executed).symm

/-- One report more. -/
theorem Totals.combine (h : c.Totals mode reports) (b : Block) :
    (c.combine mode b).Totals mode (reports ++ [b]) where
  statements := by
    rw [List.map_append, List.map_singleton, foldr_max_concat, ← h.statements]
    exact UInt32.toNat_max _ _
  executed := by
    rw [List.map_append, List.map_singleton]
    exact Mode.toNat_combine h.executed

/-- What reports come to does not depend on their order. -/
theorem Totals.unique (h : b.Totals mode reports) (h' : c.Totals mode reports')
    (perm : reports.Perm reports') (same : b.region = c.region) : b = c := by
  have hstatements : b.statements = c.statements := by
    rw [← UInt32.toNat_inj, h.statements, h'.statements, (perm.map _).foldr_eq 0]
  have hexecuted : b.executed = c.executed := by
    rw [← UInt32.toNat_inj, h.executed, h'.executed, Mode.combineAll_perm (perm.map _)]
  obtain ⟨hfile, hrange⟩ := Region.mk.inj same
  cases b
  cases c
  rw [Block.mk.injEq]
  exact ⟨hfile, hrange, hstatements, hexecuted⟩

/-- A block ran exactly if one of the reports says so. -/
theorem Totals.ran_iff (h : b.Totals mode reports) : b.isCovered ↔ ∃ r ∈ reports, r.isCovered := by
  rw [isCovered_iff, UInt32.lt_iff_toNat_lt, h.executed, UInt32.toNat_zero, Mode.combineAll_pos]
  simp [isCovered_iff, UInt32.lt_iff_toNat_lt]

/-- The number of statements is the largest that is reported. -/
theorem Totals.largest (h : b.Totals mode reports) (some : reports ≠ []) :
    (∀ r ∈ reports, r.statements ≤ b.statements) ∧ ∃ r ∈ reports, r.statements = b.statements := by
  constructor
  · intro r hr
    rw [UInt32.le_iff_toNat_le, h.statements]
    exact foldr_max_le_iff.mp (Nat.le_refl _) _ (List.mem_map_of_mem hr)
  · have hcounts : reports.map (·.statements.toNat) ≠ [] := List.map_eq_nil_iff.not.mpr some
    have hmem := foldr_max_mem hcounts
    rw [← h.statements] at hmem
    obtain ⟨r, hr, heq⟩ := List.mem_map.mp hmem
    exact ⟨r, hr, UInt32.toNat_inj.mp heq⟩

end Block

namespace Profile

variable {mode : Mode} {b c : Block} {kept kept' blocks blocks' : List Block} {r : Region}

/-- The reports of a region. -/
def reports (blocks : List Block) (r : Region) : List Block :=
  blocks.filter fun b => decide (b.region = r)

theorem mem_reports : b ∈ reports blocks r ↔ b ∈ blocks ∧ b.region = r := by
  rw [reports, List.mem_filter, decide_eq_true_eq]

/-- The last block is a report of its own region. -/
theorem reports_concat (blocks : List Block) (b : Block) (r : Region) :
    reports (blocks ++ [b]) r =
      if b.region = r then reports blocks r ++ [b] else reports blocks r := by
  rw [reports, List.filter_append, List.filter_singleton]
  by_cases h : b.region = r
  · rw [if_pos h, decide_eq_true h, cond_true, reports]
  · rw [if_neg h, decide_eq_false h, cond_false, List.append_nil, reports]

/-! ## Blocks in order -/

/-- Whether blocks are in strict order of their regions. -/
def InOrder (blocks : List Block) : Prop := (blocks.map Block.region).Pairwise (· < ·)

theorem region_combine (mode : Mode) (first second : Block) :
    (first.combine mode second).region = first.region :=
  rfl

/-- Adding a block adds its region, unless it is there. -/
theorem mem_regions_addBlock :
    r ∈ (addBlock mode b kept).map Block.region ↔ r = b.region ∨ r ∈ kept.map Block.region := by
  induction kept with
  | nil => simp [addBlock]
  | cons c kept ih =>
    rw [addBlock]
    split
    next hsame => simp [region_combine, hsame]
    next =>
      split
      next => simp
      next => rw [List.map_cons, List.mem_cons, ih, List.map_cons, List.mem_cons, or_left_comm]

/-- Blocks stay in order when one is added. -/
theorem InOrder.addBlock (h : InOrder kept) (mode : Mode) (b : Block) :
    InOrder (addBlock mode b kept) := by
  unfold InOrder at h ⊢
  induction kept with
  | nil => exact List.pairwise_singleton _ _
  | cons c kept ih =>
    rw [List.map_cons, List.pairwise_cons] at h
    rw [Profile.addBlock]
    split
    next => rwa [List.map_cons, region_combine, List.pairwise_cons]
    next hne =>
      split
      next hlt =>
        rw [List.map_cons, List.map_cons, List.pairwise_cons, List.forall_mem_cons,
          List.pairwise_cons]
        exact ⟨⟨hlt, fun r hr => IsTrans.trans _ _ _ hlt (h.1 r hr)⟩, h⟩
      next hnlt =>
        rw [List.map_cons, List.pairwise_cons]
        refine ⟨fun r hr => ?_, ih h.2⟩
        rcases mem_regions_addBlock.mp hr with rfl | hr
        · -- The new block goes behind this one, since it is neither in the same region nor in an
          -- earlier one.
          rcases trichotomous_of (fun r s : Region => r < s) c.region b.region with hlt | heq | hgt
          · exact hlt
          · exact absurd heq hne
          · exact absurd hgt hnlt
        · exact h.1 r hr

/-- What a block in the list after adding a report is: a block of another region as it was, the
combined block, or the report itself if its region is new. -/
theorem mem_addBlock (h : InOrder kept) (hc : c ∈ addBlock mode b kept) :
    (c ∈ kept ∧ c.region ≠ b.region) ∨ (∃ d ∈ kept, d.region = b.region ∧ c = d.combine mode b) ∨
      (c = b ∧ b.region ∉ kept.map Block.region) := by
  unfold InOrder at h
  have hirrefl (r : Region) : ¬ r < r := irrefl_of (· < ·) r
  induction kept with
  | nil => exact Or.inr (Or.inr ⟨List.mem_singleton.mp hc, List.not_mem_nil⟩)
  | cons d kept ih =>
    rw [List.map_cons, List.pairwise_cons] at h
    rw [addBlock] at hc
    -- Blocks stand in order of their regions, so the new one meets its own region, passes behind
    -- it, or stops before a later one.
    split at hc
    next hsame =>
      rcases List.mem_cons.mp hc with rfl | hc
      · exact Or.inr (Or.inl ⟨d, List.mem_cons_self, hsame, rfl⟩)
      · -- The blocks behind are of later regions.
        have hlt := h.1 c.region (List.mem_map_of_mem hc)
        refine Or.inl ⟨List.mem_cons_of_mem d hc, fun heq => hirrefl b.region ?_⟩
        rwa [hsame, heq] at hlt
    next hne =>
      split at hc
      next hlt =>
        have hlater : ∀ s ∈ (d :: kept).map Block.region, b.region < s :=
          List.forall_mem_cons.mpr ⟨hlt, fun s hs => IsTrans.trans _ _ _ hlt (h.1 s hs)⟩
        rcases List.mem_cons.mp hc with rfl | hc
        · exact Or.inr (Or.inr ⟨rfl, fun hmem => hirrefl _ (hlater _ hmem)⟩)
        · refine Or.inl ⟨hc, fun heq => hirrefl b.region ?_⟩
          have hlt := hlater c.region (List.mem_map_of_mem hc)
          rwa [heq] at hlt
      next hnlt =>
        rcases List.mem_cons.mp hc with rfl | hc
        · exact Or.inl ⟨List.mem_cons_self, hne⟩
        · rcases ih h.2 hc with ⟨hkept, hother⟩ | ⟨e, he, hregion, rfl⟩ | ⟨rfl, hnew⟩
          · exact Or.inl ⟨List.mem_cons_of_mem d hkept, hother⟩
          · exact Or.inr (Or.inl ⟨e, List.mem_cons_of_mem d he, hregion, rfl⟩)
          · exact Or.inr (Or.inr ⟨rfl, List.not_mem_cons_of_ne_of_not_mem (Ne.symm hne) hnew⟩)

/-! ## One block for each region -/

/-- Whether blocks are what some reports come to, region by region. -/
structure Combines (mode : Mode) (blocks kept : List Block) : Prop where
  inOrder : InOrder kept
  regions : ∀ r, r ∈ kept.map Block.region ↔ r ∈ blocks.map Block.region
  totals : ∀ c ∈ kept, c.Totals mode (reports blocks c.region)

/-- One report more. -/
theorem Combines.addBlock (h : Combines mode blocks kept) (b : Block) :
    Combines mode (blocks ++ [b]) (addBlock mode b kept) where
  inOrder := h.inOrder.addBlock mode b
  regions := by
    intro r
    rw [mem_regions_addBlock, h.regions, List.map_append, List.mem_append, List.map_singleton,
      List.mem_singleton, or_comm]
  totals := by
    intro c hc
    rw [reports_concat]
    rcases mem_addBlock h.inOrder hc with ⟨hkept, hother⟩ | ⟨d, hd, hregion, rfl⟩ | ⟨rfl, hnew⟩
    · rw [if_neg (Ne.symm hother)]
      exact h.totals c hkept
    · rw [region_combine, if_pos hregion.symm]
      exact (h.totals d hd).combine b
    · -- No report of the region was there before.
      have hnone : reports blocks c.region = [] := by
        refine List.eq_nil_iff_forall_not_mem.mpr fun d hd => hnew ((h.regions _).mpr ?_)
        obtain ⟨hd, hregion⟩ := mem_reports.mp hd
        exact hregion ▸ List.mem_map_of_mem hd
      rw [if_pos rfl, hnone]
      exact .singleton mode c

theorem ofBlocks_concat (mode : Mode) (blocks : List Block) (b : Block) :
    (ofBlocks mode (blocks ++ [b])).blocks = addBlock mode b (ofBlocks mode blocks).blocks := by
  simp [ofBlocks]

/-- The blocks of a profile are what the reports it is made of come to. -/
theorem combines_ofBlocks (mode : Mode) (blocks : List Block) :
    Combines mode blocks (ofBlocks mode blocks).blocks := by
  induction blocks using List.reverseRecOn with
  | nil => exact ⟨List.Pairwise.nil, fun _ => Iff.rfl, List.forall_mem_nil _⟩
  | append_singleton blocks b ih =>
    rw [ofBlocks_concat]
    exact ih.addBlock b

theorem inOrder_ofBlocks (mode : Mode) (blocks : List Block) :
    InOrder (ofBlocks mode blocks).blocks :=
  (combines_ofBlocks mode blocks).inOrder

/-- Blocks in order are determined by which blocks they are. -/
theorem InOrder.eq_of_mem_iff (h : InOrder kept) (h' : InOrder kept')
    (same : ∀ c, c ∈ kept ↔ c ∈ kept') :
    kept = kept' := by
  have hirrefl : Std.Irrefl (α := Block) fun b c => b.region < c.region :=
    ⟨fun b => irrefl_of (· < ·) b.region⟩
  have hantisymm : Std.Antisymm (α := Block) fun b c => b.region < c.region :=
    ⟨fun b c hbc hcb => absurd (IsTrans.trans b.region c.region b.region hbc hcb)
      (irrefl_of (· < ·) b.region)⟩
  exact (List.pairwise_map.mp h).eq_of_mem_iff (List.pairwise_map.mp h') same

/-- What reports come to does not depend on their order. -/
theorem Combines.unique (h : Combines mode blocks kept) (h' : Combines mode blocks' kept')
    (perm : blocks.Perm blocks') : kept = kept' := by
  -- A block of one side has a counterpart of the same region on the other, which is the same block.
  have hsub {xs ys xs' ys' : List Block} (hx : Combines mode xs xs') (hy : Combines mode ys ys')
      (hperm : xs.Perm ys) : ∀ c ∈ xs', c ∈ ys' := by
    intro c hc
    have hregion : c.region ∈ ys'.map Block.region := by
      rw [hy.regions, ← (hperm.map Block.region).mem_iff, ← hx.regions]
      exact List.mem_map_of_mem hc
    obtain ⟨d, hd, hsame⟩ := List.mem_map.mp hregion
    have hreports : (reports xs c.region).Perm (reports ys d.region) := hsame ▸ hperm.filter _
    rwa [(hx.totals c hc).unique (hy.totals d hd) hreports hsame.symm]
  exact h.inOrder.eq_of_mem_iff h'.inOrder fun c => ⟨hsub h h' perm c, hsub h' h perm.symm c⟩

/-! ## Reports combined before -/

/-- A block whose region comes behind all others goes to the end. -/
theorem addBlock_of_last (h : ∀ c ∈ kept, c.region < b.region) :
    addBlock mode b kept = kept ++ [b] := by
  induction kept with
  | nil => rfl
  | cons c kept ih =>
    rw [List.forall_mem_cons] at h
    have hirrefl (r : Region) : ¬ r < r := irrefl_of (· < ·) r
    have hne : ¬ c.region = b.region := by
      intro heq
      have hlt := h.1
      rw [heq] at hlt
      exact hirrefl b.region hlt
    have hnlt : ¬ b.region < c.region := by
      intro hlt
      exact hirrefl b.region (IsTrans.trans b.region c.region b.region hlt h.1)
    rw [addBlock, if_neg hne, if_neg hnlt, ih h.2, List.cons_append]

/-- Blocks in order are combined to themselves. -/
theorem foldl_addBlock_of_inOrder (h : InOrder (kept ++ blocks)) :
    blocks.foldl (fun kept b => addBlock mode b kept) kept = kept ++ blocks := by
  induction blocks generalizing kept with
  | nil => rw [List.append_nil, List.foldl_nil]
  | cons b blocks ih =>
    have hlast : ∀ c ∈ kept, c.region < b.region := by
      intro c hc
      unfold InOrder at h
      rw [List.map_append, List.pairwise_append] at h
      exact h.2.2 _ (List.mem_map_of_mem hc) _ (List.mem_map_of_mem List.mem_cons_self)
    rw [← List.singleton_append, ← List.append_assoc] at h
    rw [List.foldl_cons, addBlock_of_last hlast, ih h, List.append_assoc, List.singleton_append]

/-- Reports may be combined in batches. -/
theorem ofBlocks_append (mode : Mode) (blocks more : List Block) :
    ofBlocks mode ((ofBlocks mode blocks).blocks ++ more) = ofBlocks mode (blocks ++ more) := by
  have hfold : (ofBlocks mode blocks).blocks.foldl (fun kept b => addBlock mode b kept) [] =
      (ofBlocks mode blocks).blocks := foldl_addBlock_of_inOrder (inOrder_ofBlocks mode blocks)
  rw [ofBlocks, List.foldl_append, hfold, ofBlocks, ofBlocks, List.foldl_append]

/-- A profile is the profile of its own blocks. -/
theorem ofBlocks_blocks (mode : Mode) (blocks : List Block) :
    ofBlocks mode (ofBlocks mode blocks).blocks = ofBlocks mode blocks := by
  have hbatch := ofBlocks_append mode blocks []
  rwa [List.append_nil, List.append_nil] at hbatch

/-! ## The profile of some reports -/

/-- **Reports are combined by region.** The blocks of a profile are strictly in order of the bytes
of their files' names, then of their starts, then of their ends, one for each region that some
report names. A block has the largest number of statements that is reported for its region and what
the counts of the region come to, so it ran exactly if some report of the region says so. The
profile does not depend on the order of the reports, and reports that were combined into blocks
before can take part as these blocks. -/
theorem ofBlocks_combines (mode : Mode) (blocks : List Block) :
    let kept := (ofBlocks mode blocks).blocks
    kept.Pairwise (fun b c =>
        b.file.toUTF8.data.toList < c.file.toUTF8.data.toList ∨
          b.file = c.file ∧ (b.range.start < c.range.start ∨
            b.range.start = c.range.start ∧ b.range.stop < c.range.stop)) ∧
      (∀ r, (∃ c ∈ kept, c.region = r) ↔ ∃ b ∈ blocks, b.region = r) ∧
      (∀ c ∈ kept,
        (∀ b ∈ reports blocks c.region, b.statements ≤ c.statements) ∧
        (∃ b ∈ reports blocks c.region, b.statements = c.statements) ∧
        c.executed.toNat = mode.combineAll ((reports blocks c.region).map (·.executed.toNat)) ∧
        (c.isCovered ↔ ∃ b ∈ reports blocks c.region, b.isCovered)) ∧
      (∀ others, blocks.Perm others → ofBlocks mode blocks = ofBlocks mode others) ∧
      ∀ more, ofBlocks mode (blocks ++ more) = ofBlocks mode (kept ++ more) := by
  intro kept
  -- All clauses follow from what the combined blocks are to the given ones; order and batches do
  -- not enter into that.
  have h : Combines mode blocks kept := combines_ofBlocks mode blocks
  refine ⟨?_, fun r => ?_, fun c hc => ?_, fun others perm => ?_, fun more => ?_⟩
  · refine (List.pairwise_map.mp h.inOrder).imp fun {b c} hbc => ?_
    rwa [Region.lt_iff, Block.region, Block.region, Text.lt_iff_toUTF8_lt] at hbc
  · have hregion := h.regions r
    rwa [List.mem_map, List.mem_map] at hregion
  · have hsome : reports blocks c.region ≠ [] := by
      obtain ⟨b, hb, hregion⟩ := List.mem_map.mp ((h.regions c.region).mp (List.mem_map_of_mem hc))
      exact List.ne_nil_of_mem (mem_reports.mpr ⟨hb, hregion⟩)
    have htotals := h.totals c hc
    obtain ⟨hle, hreported⟩ := htotals.largest hsome
    exact ⟨hle, hreported, htotals.executed, htotals.ran_iff⟩
  · exact congrArg (Profile.mk mode) (h.unique (combines_ofBlocks mode others) perm)
  · exact (ofBlocks_append mode blocks more).symm

/-- Two reports of one region, the counts of which exceed the largest count together, and one of
another file, the name of which begins with a smaller byte. -/
def countedBlocks : List Block :=
  [⟨"é.rs", ⟨⟨1, 1⟩, ⟨2, 1⟩⟩, 2, 4294967295⟩, ⟨"z.rs", ⟨⟨1, 1⟩, ⟨2, 1⟩⟩, 1, 0⟩,
    ⟨"é.rs", ⟨⟨1, 1⟩, ⟨2, 1⟩⟩, 5, 3⟩]

theorem ofBlocks_combines_counted :
    let c : Block := ⟨"é.rs", ⟨⟨1, 1⟩, ⟨2, 1⟩⟩, 5, 4294967295⟩
    c ∈ (ofBlocks .count countedBlocks).blocks ∧
      c.executed.toNat =
        Mode.count.combineAll ((reports countedBlocks c.region).map (·.executed.toNat)) ∧
      countedBlocks.Perm countedBlocks.reverse ∧
      ofBlocks .count countedBlocks = ofBlocks .count countedBlocks.reverse := by
  intro c
  have hmem : c ∈ (ofBlocks .count countedBlocks).blocks := by decide +kernel
  have hperm : countedBlocks.Perm countedBlocks.reverse := (List.reverse_perm _).symm
  obtain ⟨_, _, htotals, horder, _⟩ := ofBlocks_combines .count countedBlocks
  exact ⟨hmem, (htotals c hmem).2.2.1, hperm, horder _ hperm⟩

end Profile

end CoverageReplay
