import CoverageReplay.Proofs.Coverage.Rendering
import CoverageReplay.Proofs.Coverage.Union
import CoverageReplay.Proofs.Except
import CoverageReplay.Proofs.TestOrder.NetNew

/-!
# Two accounts of what tests cover

Along any order of tests each test is reported with what it adds to those before it, and merged
coverage says how much they cover together. Of a region that several tests run the first account
takes the count of the first of them, the second the largest count. So what the tests of a prefix
add comes to at most what they cover together, and to exactly that if they agree on the statements
of each region (`explain_accounts`).

One test more brings merged coverage at least what the test adds (`coveredStatements_concat_le`),
since the regions that it is the first to run are apart from those that were run before. The sums
follow by induction on the tests that are listed.
-/

namespace CoverageReplay

open MergedCoverage

variable {blocks more : List Block} {seen : List Region} {before : List Profile} {p : Profile}
    {r : Region}

/-! ## Blocks that agree -/

/-- Whether blocks that ran report the same number of statements wherever they are of the same
region. -/
def SameCounts (blocks : List Block) : Prop :=
  ∀ b ∈ blocks, ∀ c ∈ blocks, b.isCovered → c.isCovered → b.region = c.region →
    b.statements = c.statements

instance (blocks : List Block) : Decidable (SameCounts blocks) :=
  inferInstanceAs (Decidable (∀ b ∈ blocks, ∀ c ∈ blocks,
    b.isCovered → c.isCovered → b.region = c.region → b.statements = c.statements))

theorem SameCounts.mono (h : SameCounts more) (sub : blocks ⊆ more) : SameCounts blocks :=
  fun b hb c hc => h b (sub hb) c (sub hc)

/-- Two lists of blocks executed the regions of both. -/
theorem executedRegions_append (blocks more : List Block) :
    executedRegions (blocks ++ more) = executedRegions blocks ∪ executedRegions more := by
  rw [executedRegions, List.filter_append, List.map_append, List.toFinset_append]
  rfl

/-- A block that ran counts at most the largest count of its region. -/
theorem le_largestCount {b : Block} (hb : b ∈ blocks) (ran : b.isCovered) :
    b.statements.toNat ≤ largestCount blocks b.region := by
  refine foldr_max_le_iff.mp (Nat.le_refl (largestCount blocks b.region)) _ (List.mem_map_of_mem ?_)
  rw [List.mem_filter, ran, Bool.true_and, decide_eq_true_eq]
  exact ⟨hb, rfl⟩

/-- Where blocks agree, each of them reports the largest count of its region. -/
theorem SameCounts.largestCount_eq (h : SameCounts blocks) {b : Block} (hb : b ∈ blocks)
    (ran : b.isCovered) :
    largestCount blocks b.region = b.statements.toNat := by
  refine Nat.le_antisymm (foldr_max_le_iff.mpr fun n hn => ?_) (le_largestCount hb ran)
  obtain ⟨c, hc, rfl⟩ := List.mem_map.mp hn
  rw [List.mem_filter, Bool.and_eq_true, decide_eq_true_eq] at hc
  obtain ⟨hc, hran, hregion⟩ := hc
  rw [h c hc b hb hran ran hregion]

/-- What is reported of a region is the count of some block that ran in it. -/
theorem exists_reportedCount (h : r ∈ executedRegions blocks) :
    ∃ b ∈ blocks, b.isCovered ∧ b.region = r ∧ reportedCount blocks r = b.statements.toNat := by
  obtain ⟨b, hb, hran, hregion⟩ := mem_executedRegions.mp h
  have hmem : b ∈ blocks.filter fun b => b.isCovered && decide (b.region = r) := by
    rw [List.mem_filter, hran, Bool.true_and, decide_eq_true_eq]
    exact ⟨hb, hregion⟩
  have hlast := List.getLast?_eq_some_getLast (List.ne_nil_of_mem hmem)
  have hmem' := List.mem_of_getLast? hlast
  rw [List.mem_filter, Bool.and_eq_true, decide_eq_true_eq] at hmem'
  obtain ⟨hb', hran', hregion'⟩ := hmem'
  refine ⟨_, hb', hran', hregion', ?_⟩
  rw [reportedCount, hlast, Option.map_some, Option.getD_some]

/-! ## One test more -/

/-- What profiles cover with one more: in the regions that they ran, and in those that only the new
one ran. -/
theorem coveredStatements_concat_eq (before : List Profile) (p : Profile) :
    (ofProfiles (before ++ [p])).coveredStatements =
      ∑ r ∈ executedRegions (before.flatMap Profile.blocks),
          largestCount (before.flatMap Profile.blocks ++ p.blocks) r +
        ∑ r ∈ executedRegions p.blocks \ executedRegions (before.flatMap Profile.blocks),
          largestCount (before.flatMap Profile.blocks ++ p.blocks) r := by
  rw [(tracks_ofProfiles (before ++ [p])).coveredStatements_eq, List.flatMap_append,
    List.flatMap_singleton, executedRegions_append, ← Finset.union_sdiff_self_eq_union,
      Finset.sum_union Finset.disjoint_sdiff]

/-- Merging one more profile adds at least the statements that no profile before it ran. -/
theorem coveredStatements_concat_le (before : List Profile) (p : Profile) :
    (ofProfiles before).coveredStatements + newStatements before p ≤
      (ofProfiles (before ++ [p])).coveredStatements := by
  rw [coveredStatements_concat_eq, (tracks_ofProfiles before).coveredStatements_eq, newStatements]
  -- A region that was run before keeps its count at least, and a new one has the largest count of
  -- its blocks.
  refine Nat.add_le_add (Finset.sum_le_sum fun r _ => ?old) (Finset.sum_le_sum fun r hr => ?new)
  case old => exact largestCount_mono (List.subset_append_left _ _) r
  case new =>
    obtain ⟨b, hb, hran, rfl, hcount⟩ := exists_reportedCount (Finset.mem_sdiff.mp hr).1
    rw [hcount]
    exact le_largestCount (List.mem_append_right _ hb) hran

/-- It adds exactly these if the profiles agree on the statements of each region. -/
theorem coveredStatements_concat (same : SameCounts ((before ++ [p]).flatMap Profile.blocks)) :
    (ofProfiles (before ++ [p])).coveredStatements =
      (ofProfiles before).coveredStatements + newStatements before p := by
  rw [List.flatMap_append, List.flatMap_singleton] at same
  have hbefore : SameCounts (before.flatMap Profile.blocks) :=
    same.mono (List.subset_append_left _ _)
  rw [coveredStatements_concat_eq, (tracks_ofProfiles before).coveredStatements_eq, newStatements]
  refine congrArg₂ (· + ·) (Finset.sum_congr rfl fun r hr =>
    ?old) (Finset.sum_congr rfl fun r hr => ?new)
  case old =>
    obtain ⟨b, hb, hran, rfl⟩ := mem_executedRegions.mp hr
    rw [same.largestCount_eq (List.mem_append_left _ hb) hran, hbefore.largestCount_eq hb hran]
  case new =>
    obtain ⟨b, hb, hran, rfl, hcount⟩ := exists_reportedCount (Finset.mem_sdiff.mp hr).1
    rw [hcount, same.largestCount_eq (List.mem_append_right _ hb) hran]

/-! ## A run of tests -/

variable {tests : List (String × Profile)}

/-- Whether exactly the regions that some profiles ran were seen. -/
def SeenBy (seen : List Region) (before : List Profile) : Prop :=
  ∀ r, r ∈ seen ↔ r ∈ executedRegions (before.flatMap Profile.blocks)

theorem SeenBy.nil : SeenBy [] [] := fun r => by simp [executedRegions]

/-- The counts that are reported of some tests, after others that ran the regions `seen`. -/
def netNewFrom (seen : List Region) (tests : List (String × Profile)) : List Nat :=
  (explainFrom seen (tests.map fun e => .ofProfile e.1 e.2)).map RankedTest.netNew

/-- The count that is reported of a test is what its profile adds to those before it. -/
theorem netNewFrom_cons (hseen : SeenBy seen before) (e : String × Profile)
    (tests : List (String × Profile)) :
    ∃ seen', SeenBy seen' (before ++ [e.2]) ∧
      netNewFrom seen (e :: tests) = newStatements before e.2 :: netNewFrom seen' tests := by
  obtain ⟨hcount, hmem⟩ :
      (countNew seen 0 (Candidate.ofProfile e.1 e.2).statements.entries).1 = _ ∧ _ :=
    countNew_spec (Candidate.nodup_regions_ofProfile e.1 e.2)
  refine ⟨(countNew seen 0 (Candidate.ofProfile e.1 e.2).statements.entries).2, fun r => ?_, ?_⟩
  · rw [hmem, hseen, List.flatMap_append, List.flatMap_singleton, executedRegions_append,
      Finset.mem_union, or_comm]
    exact or_congr_right Candidate.mem_regions_ofProfile
  · have hgain : (countNew seen 0 (Candidate.ofProfile e.1 e.2).statements.entries).1 =
        newStatements before e.2 := by
      rw [hcount, Nat.zero_add, ← Candidate.gain_ofProfile hseen e.1 e.2]
      rfl
    rw [← hgain]
    rfl

theorem append_profiles_cons (before : List Profile) (e : String × Profile)
    (tests : List (String × Profile)) :
    before ++ (e :: tests).map Prod.snd = before ++ [e.2] ++ tests.map Prod.snd := by
  rw [List.map_cons, List.append_assoc, List.singleton_append]

/-- What tests add along an order, together with what was covered before them, is at most what all
cover. -/
theorem total_netNewFrom_le (hseen : SeenBy seen before) :
    (ofProfiles before).coveredStatements + total (netNewFrom seen tests) ≤
      (ofProfiles (before ++ tests.map Prod.snd)).coveredStatements := by
  -- By induction on the tests that are still to come; the first of them goes to those before.
  induction tests generalizing seen before with
  | nil =>
    rw [List.map_nil, List.append_nil]
    exact Nat.le_refl _
  | cons e tests ih =>
    obtain ⟨seen', hseen', hcounts⟩ := netNewFrom_cons hseen e tests
    rw [append_profiles_cons, hcounts, total, ← Nat.add_assoc]
    exact (Nat.add_le_add_right (coveredStatements_concat_le before e.2) _).trans (ih hseen')

/-- It is exactly that if the profiles agree on the statements of each region. -/
theorem total_netNewFrom (hseen : SeenBy seen before)
    (same : SameCounts ((before ++ tests.map Prod.snd).flatMap Profile.blocks)) :
    (ofProfiles before).coveredStatements + total (netNewFrom seen tests) =
      (ofProfiles (before ++ tests.map Prod.snd)).coveredStatements := by
  induction tests generalizing seen before with
  | nil =>
    rw [List.map_nil, List.append_nil]
    rfl
  | cons e tests ih =>
    obtain ⟨seen', hseen', hcounts⟩ := netNewFrom_cons hseen e tests
    rw [append_profiles_cons] at same ⊢
    have hstep : SameCounts ((before ++ [e.2]).flatMap Profile.blocks) := by
      rw [List.flatMap_append] at same
      exact same.mono (List.subset_append_left _ _)
    rw [hcounts, total, ← Nat.add_assoc, ← coveredStatements_concat hstep]
    exact ih hseen' same

/-- What tests add along an order is at most what they cover together. -/
theorem total_netNew_le :
    total (netNewFrom [] tests) ≤ (ofProfiles (tests.map Prod.snd)).coveredStatements :=
  (Nat.zero_add _).symm.le.trans (total_netNewFrom_le SeenBy.nil)

/-- It is what they cover together if they agree on the statements of each region. -/
theorem total_netNew_eq (same : SameCounts ((tests.map Prod.snd).flatMap Profile.blocks)) :
    total (netNewFrom [] tests) = (ofProfiles (tests.map Prod.snd)).coveredStatements :=
  (Nat.zero_add _).symm.trans (total_netNewFrom SeenBy.nil same)

/-- The first tests are explained by the first candidates. -/
theorem take_explainFrom (seen : List Region) (cs : List Candidate) (i : Nat) :
    (explainFrom seen cs).take i = explainFrom seen (cs.take i) := by
  induction cs generalizing seen i with
  | nil => rw [List.take_nil, explainFrom, List.take_nil]
  | cons c rest ih =>
    cases i with
    | zero => rfl
    | succ i => rw [List.take_succ_cons, explainFrom, explainFrom, List.take_succ_cons, ih]

/-! ## Profiles in order of their regions -/

namespace Profile

/-- Whether a profile comes from a list of blocks or from a text. -/
def IsBuilt (p : Profile) : Prop :=
  (∃ mode blocks, p = ofBlocks mode blocks) ∨ ∃ text, parse? text = .ok p

/-- A profile that was built has its blocks in order. -/
theorem IsBuilt.inOrder (h : p.IsBuilt) : InOrder p.blocks := by
  obtain ⟨mode, blocks, rfl⟩ | ⟨text, htext⟩ := h
  · exact inOrder_ofBlocks mode blocks
  · unfold parse? at htext
    split at htext
    next =>
      cases htext
      exact List.Pairwise.nil
    next =>
      obtain ⟨mode, _, htext⟩ := bind_eq_ok_iff.mp htext
      obtain ⟨blocks, _, htext⟩ := bind_eq_ok_iff.mp htext
      cases htext
      exact inOrder_ofBlocks mode blocks

/-- A block that ran is the only report of its region. -/
theorem InOrder.reportedCount_eq (h : InOrder blocks) {b : Block} (hb : b ∈ blocks)
    (ran : b.isCovered) :
    reportedCount blocks b.region = b.statements.toNat := by
  obtain ⟨c, hc, _, hregion, hcount⟩ :=
    exists_reportedCount (mem_executedRegions.mpr ⟨b, hb, ran, rfl⟩)
  rw [hcount, List.inj_on_of_nodup_map (List.Pairwise.nodup h) hc hb hregion]

/-- With one block for each region, what a profile adds to nothing is what its blocks that ran
have. -/
theorem newStatements_nil (h : InOrder p.blocks) : newStatements [] p = p.coveredStatements := by
  have hnodup : (p.coveredBlocks.map Block.region).Nodup :=
    (List.Pairwise.nodup h).sublist (List.filter_sublist.map _)
  have hcounts : (p.coveredBlocks.map Block.region).map (reportedCount p.blocks) =
      p.coveredBlocks.map (·.statements.toNat) := by
    rw [List.map_map]
    refine List.map_congr_left fun b hb => ?_
    obtain ⟨hb, hran⟩ := List.mem_filter.mp hb
    exact h.reportedCount_eq hb hran
  rw [newStatements, List.flatMap_nil, coveredStatements, total_eq_sum, ← hcounts,
    ← List.sum_toFinset _ hnodup]
  exact Finset.sum_congr (Finset.sdiff_empty) fun _ _ => rfl

end Profile

/-! ## Orders of names -/

namespace TestProfiles

variable {tests : TestProfiles} {name : String}

/-- A profile that is found is one of the entries. -/
theorem mem_of_get? (h : tests.get? name = some p) : (name, p) ∈ tests.entries := by
  obtain ⟨e, hfind, rfl⟩ := Option.map_eq_some_iff.mp h
  have hname : e.1 = name := by simpa using List.find?_some hfind
  rw [← hname]
  exact List.mem_of_find?_eq_some hfind

theorem get?_isSome (tests : TestProfiles) (name : String) :
    (tests.get? name).isSome = tests.contains name := by
  rw [get?, Option.isSome_map, Bool.eq_iff_iff, List.find?_isSome]
  simp [contains, names]

/-- The tests that some names name, with their profiles. -/
def listed (tests : TestProfiles) (order : List String) : List (String × Profile) :=
  order.filterMap fun name => (tests.get? name).map fun p => (name, p)

/-- Each listed test has the profile that is found by its name. -/
theorem get?_of_mem_listed {order : List String} {e : String × Profile}
    (h : e ∈ tests.listed order) :
    tests.get? e.1 = some e.2 := by
  obtain ⟨name, _, he⟩ := List.mem_filterMap.mp h
  obtain ⟨p, hget, rfl⟩ := Option.map_eq_some_iff.mp he
  exact hget

/-- Explaining an order takes the candidates of the listed tests. -/
theorem explain_eq (tests : TestProfiles) (order : List String) :
    explain order tests =
      explainFrom [] ((tests.listed order).map fun e => .ofProfile e.1 e.2) := by
  rw [explain, listed, List.map_filterMap]
  simp only [Option.map_map, Function.comp_def]

/-- The listed tests are those of the order that are known, in order. -/
theorem map_name_listed (tests : TestProfiles) (order : List String) :
    (tests.listed order).map Prod.fst = order.filter tests.contains := by
  induction order with
  | nil => rfl
  | cons name order ih =>
    rw [listed, List.filterMap_cons, List.filter_cons, ← get?_isSome]
    cases tests.get? name with
    | none => exact ih
    | some p => exact congrArg (name :: ·) ih

/-- The profiles of the first tests that are reported are those of the first tests that are
named. -/
theorem profiles_take_explain (tests : TestProfiles) (order : List String) (i : Nat) :
    ((explain order tests).take i).filterMap (fun t => tests.get? t.name) =
      ((tests.listed order).take i).map Prod.snd := by
  have hnames : ((explain order tests).take i).map RankedTest.name =
      ((tests.listed order).take i).map Prod.fst := by
    rw [explain_eq, List.map_take, map_name_explainFrom, List.map_map, ← List.map_take]
    rfl
  have hprofiles : ((tests.listed order).take i).filterMap (fun e => tests.get? e.1) =
      ((tests.listed order).take i).filterMap fun e => some e.2 :=
    List.filterMap_congr fun e he => get?_of_mem_listed (List.mem_of_mem_take he)
  calc ((explain order tests).take i).filterMap (fun t => tests.get? t.name)
      = (((explain order tests).take i).map RankedTest.name).filterMap tests.get? := by
        rw [List.filterMap_map]
        rfl
    _ = ((tests.listed order).take i).filterMap (fun e => tests.get? e.1) := by
        rw [hnames, List.filterMap_map]
        rfl
    _ = ((tests.listed order).take i).map Prod.snd := by rw [hprofiles, List.filterMap_eq_map']

theorem map_netNew_take_explain (tests : TestProfiles) (order : List String) (i : Nat) :
    ((explain order tests).take i).map RankedTest.netNew =
      netNewFrom [] ((tests.listed order).take i) := by
  rw [explain_eq, take_explainFrom, ← List.map_take, netNewFrom]

end TestProfiles

/-- **Two accounts of what tests cover.** The tests that are reported are those of the names that
are known, and each covers on its own what its profile covers. What the first of them add comes to
at most what they cover together, and to exactly that if they agree on the statements of each
region. -/
theorem TestOrder.explain_accounts (tests : TestProfiles) (order : List String)
    (built : ∀ e ∈ tests.entries, e.2.IsBuilt) :
    (explain order tests).map RankedTest.name = order.filter tests.contains ∧
      (∀ t ∈ explain order tests, ∃ p, tests.get? t.name = some p ∧ t.raw = p.coveredStatements) ∧
      ∀ i,
        let first := (explain order tests).take i
        let profiles := first.filterMap fun t => tests.get? t.name
        total (first.map RankedTest.netNew) ≤ (ofProfiles profiles).coveredStatements ∧
          (SameCounts (profiles.flatMap Profile.blocks) →
            total (first.map RankedTest.netNew) = (ofProfiles profiles).coveredStatements) := by
  refine ⟨?names, ?raw, fun i => ?counts⟩
  case names =>
    rw [TestProfiles.explain_eq, map_name_explainFrom, List.map_map, ← TestProfiles.map_name_listed]
    rfl
  case raw =>
    rw [TestProfiles.explain_eq]
    intro t ht
    obtain ⟨c, hc, hname, hraw⟩ := exists_of_mem_explainFrom ht
    obtain ⟨e, he, rfl⟩ := List.mem_map.mp hc
    have hget := TestProfiles.get?_of_mem_listed he
    refine ⟨e.2, hname ▸ hget, ?_⟩
    -- What a test covers on its own is what it adds to nothing.
    rw [hraw, ← Candidate.gain_nil, Candidate.gain_ofProfile SeenBy.nil]
    exact Profile.newStatements_nil (built _ (TestProfiles.mem_of_get? hget)).inOrder
  case counts =>
    intro first profiles
    have hcounts : first.map RankedTest.netNew = netNewFrom [] ((tests.listed order).take i) :=
      tests.map_netNew_take_explain order i
    have hprofiles : profiles = ((tests.listed order).take i).map Prod.snd :=
      tests.profiles_take_explain order i
    rw [hcounts, hprofiles]
    exact ⟨total_netNew_le, total_netNew_eq⟩

theorem TestOrder.explain_accounts_overlapping :
    let tests := TestProfiles.ofList overlappingTests
    let order := ["wide", "unknown", "left", "wide"]
    let first := (explain order tests).take 2
    let profiles := first.filterMap fun t => tests.get? t.name
    (∀ e ∈ tests.entries, e.2.IsBuilt) ∧ SameCounts (profiles.flatMap Profile.blocks) ∧
      (explain order tests).map RankedTest.name = ["wide", "left", "wide"] ∧
      total (first.map RankedTest.netNew) = 7 ∧ (ofProfiles profiles).coveredStatements = 7 := by
  intro tests order first profiles
  have hentries : tests.entries = overlappingTests := rfl
  have built : ∀ e ∈ tests.entries, e.2.IsBuilt := by
    intro e he
    rw [hentries] at he
    simp only [overlappingTests, List.mem_cons, List.not_mem_nil, or_false] at he
    rcases he with rfl | rfl | rfl | rfl
    · exact .inl ⟨.set, _, rfl⟩
    · exact .inl ⟨.set, _, rfl⟩
    · exact .inl ⟨.set, _, rfl⟩
    · exact .inl ⟨.set, _, rfl⟩
  have same : SameCounts (profiles.flatMap Profile.blocks) := by decide +kernel
  have hcounts : total (first.map RankedTest.netNew) = 7 := by decide +kernel
  obtain ⟨hnames, _, haccounts⟩ := TestOrder.explain_accounts tests order built
  exact ⟨built, same, hnames, hcounts, ((haccounts 2).2 same).symm.trans hcounts⟩

end CoverageReplay
