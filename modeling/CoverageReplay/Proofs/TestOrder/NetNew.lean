import CoverageReplay.Proofs.Coverage.Blocks
import CoverageReplay.Proofs.TestOrder.Permutation
import CoverageReplay.Proofs.TestOrder.Scores
import Mathlib.Algebra.Order.BigOperators.Group.List
import Mathlib.Algebra.Order.BigOperators.Group.Finset

/-!
# Always the largest gain next

What a test adds to others is a matter of the blocks that ran: `newStatements` counts the statements
of those regions that no block of the others ran in. The `netNew` order takes at each step the test
that adds most to those taken before it, the earliest of several such tests, and the counts reported
along the order are what the tests add (`netNewOrder_of_small`).

Two things are behind it. Each step takes the first candidate with the largest gain
(`greedyFrom_netNewScore`), and what a test adds depends only on which regions were seen and falls
when more are seen (`gain_congr`, `gain_antitone`), so the counts that are made again along the
order are the gains that were compared.
-/

namespace CoverageReplay

variable {seen seen' : List Region} {c d : Candidate} {cs before after : List Candidate} {n : Nat}

/-! ## Gains -/

namespace Candidate

/-- Only which regions were seen matters. -/
theorem gain_congr (h : ∀ r, r ∈ seen ↔ r ∈ seen') (c : Candidate) :
    c.gain seen = c.gain seen' := by
  have hcontains (r : Region) : seen.contains r = seen'.contains r := by
    rw [Bool.eq_iff_iff, List.contains_iff_mem, List.contains_iff_mem, h]
  unfold gain
  simp only [hcontains]

/-- The more is seen, the less is new. -/
theorem gain_antitone (h : seen ⊆ seen') (c : Candidate) : c.gain seen' ≤ c.gain seen := by
  unfold gain
  rw [total_eq_sum, total_eq_sum]
  refine (List.Sublist.map _ (List.monotone_filter_right _ fun e he => ?_)).sum_le_sum fun _ _ =>
    Nat.zero_le _
  simp only [Bool.not_eq_true', List.contains_eq_mem, decide_eq_false_iff_not] at he ⊢
  exact fun hmem => he (h hmem)

theorem gain_nil (c : Candidate) : c.gain [] = c.raw := by
  unfold gain raw SortedMap.values
  simp

theorem gain_le_raw (seen : List Region) (c : Candidate) : c.gain seen ≤ c.raw := by
  rw [← gain_nil]
  exact gain_antitone (List.nil_subset seen) c

end Candidate

/-! ## A greedy run -/

/-- Scores of gains rank as the gains do, as long as all of them are small. -/
theorem ranksBy_gain (hcs : ∀ c ∈ cs, c.raw ≤ 2 ^ 53) (seen : List Region) :
    RanksBy (netNewScore seen) (Candidate.gain seen) cs := by
  have hgain : ∀ c ∈ cs, c.gain seen ≤ 2 ^ 53 := fun c hc => (c.gain_le_raw seen).trans (hcs c hc)
  exact ⟨fun c hc => leastScore_lt_countScore (hgain c hc),
    fun c hc d hd => countScore_lt_iff (hgain c hc) (hgain d hd)⟩

/-- One step of the run: the first candidate with the largest gain, and then the run over the
others. -/
theorem greedyFrom_netNewScore (hlength : cs.length = n + 1) (hcs : ∀ c ∈ cs, c.raw ≤ 2 ^ 53) :
    ∃ front picked back, cs = front ++ picked :: back ∧
      greedyFrom netNewScore seen (n + 1) cs =
        picked :: greedyFrom netNewScore (picked.regions ++ seen) n (front ++ back) ∧
      (∀ d ∈ front, d.gain seen < picked.gain seen) ∧ (∀ d ∈ back, d.gain seen ≤ picked.gain seen) ∧
      (front ++ back).length = n ∧ ∀ d ∈ front ++ back, d.raw ≤ 2 ^ 53 := by
  obtain ⟨front, picked, back, rfl, hrun, hchosen, hlength'⟩ :=
    greedyFrom_step netNewScore seen hlength
  obtain ⟨hfront, hback⟩ := hchosen.largest (ranksBy_gain hcs seen)
  refine ⟨front, picked, back, rfl, hrun, hfront, hback, hlength', fun d hd => hcs d ?_⟩
  rw [List.mem_append] at hd
  rw [List.mem_append, List.mem_cons]
  exact hd.imp_right Or.inr

/-- The regions that candidates run, and those seen before them. -/
def seenAfter (seen : List Region) (before : List Candidate) : List Region :=
  before.flatMap Candidate.regions ++ seen

/-- Whether a candidate counts as seen or as one before does not matter. -/
theorem mem_seenAfter_cons (r : Region) :
    r ∈ seenAfter (c.regions ++ seen) before ↔ r ∈ seenAfter seen (c :: before) := by
  simp only [seenAfter, List.flatMap_cons, List.mem_append]
  exact or_left_comm.trans or_assoc.symm

/-- At each step of a run no candidate that is left gains more than the one that is taken, and those
that gain as much stand behind it. -/
theorem best_of_greedyFrom (hlength : cs.length = n) (hcs : ∀ c ∈ cs, c.raw ≤ 2 ^ 53)
    (hrun : greedyFrom netNewScore seen n cs = before ++ c :: after) (hd : d ∈ after) :
    d.gain (seenAfter seen before) ≤ c.gain (seenAfter seen before) ∧
      (d.gain (seenAfter seen before) = c.gain (seenAfter seen before) → [c, d].Sublist cs) := by
  -- The induction is on the tests that are left; what has been seen by then goes along.
  induction n generalizing seen cs before with
  | zero =>
    rw [greedyFrom, eq_comm, List.append_eq_nil_iff] at hrun
    cases hrun.2
  | succ n ih =>
    obtain ⟨front, picked, back, rfl, hstep, hfront, hback, hlength', hcs'⟩ :=
      greedyFrom_netNewScore hlength hcs
    rw [hstep] at hrun
    cases before with
    | nil =>
      rw [List.nil_append, List.cons.injEq] at hrun
      obtain ⟨rfl, rfl⟩ := hrun
      rw [(greedyFrom_perm _ _ hlength').mem_iff, List.mem_append] at hd
      have hnil : seenAfter seen [] = seen := rfl
      rw [hnil]
      -- Those passed over in front gain less, those behind at most as much.
      rcases hd with hd | hd
      · have hlt := hfront d hd
        exact ⟨by omega, fun heq => absurd heq (by omega)⟩
      · refine ⟨hback d hd, fun _ => ?_⟩
        exact List.Sublist.trans ((List.singleton_sublist.mpr hd).cons_cons picked)
          (List.sublist_append_right front _)
    | cons first before =>
      rw [List.cons_append, List.cons.injEq] at hrun
      obtain ⟨rfl, hrun⟩ := hrun
      obtain ⟨hle, hties⟩ := ih hlength' hcs' hrun
      rw [d.gain_congr mem_seenAfter_cons, c.gain_congr mem_seenAfter_cons] at hle hties
      refine ⟨hle, fun heq => (hties heq).trans ?_⟩
      exact (List.sublist_cons_self picked back).append_left front

/-- What is taken first covers most on its own. -/
theorem raw_le_of_greedyFrom (hlength : cs.length = n) (hcs : ∀ c ∈ cs, c.raw ≤ 2 ^ 53)
    (hrun : greedyFrom netNewScore [] n cs = c :: after) (hd : d ∈ c :: after) : d.raw ≤ c.raw := by
  rcases List.mem_cons.mp hd with rfl | hd
  · exact Nat.le_refl _
  · have hstart : greedyFrom netNewScore [] n cs = [] ++ c :: after := hrun
    have hbest := (best_of_greedyFrom hlength hcs hstart hd).1
    rwa [seenAfter, List.flatMap_nil, List.append_nil, Candidate.gain_nil,
      Candidate.gain_nil] at hbest

/-! ## Counts along an order -/

/-- Counting what is new adds up the regions not seen, and all of them are seen then. -/
theorem countNew_spec {entries : List (Region × Nat)} {count : Nat}
    (distinct : (entries.map Prod.fst).Nodup) :
    (countNew seen count entries).1 =
        count + total ((entries.filter fun e => !seen.contains e.1).map Prod.snd) ∧
      ∀ r, r ∈ (countNew seen count entries).2 ↔ r ∈ entries.map Prod.fst ∨ r ∈ seen := by
  -- The induction is for every list of regions seen so far, since counting adds to it.
  induction entries generalizing seen count with
  | nil => exact ⟨rfl, fun r => by simp [countNew]⟩
  | cons e rest ih =>
    obtain ⟨region, statements⟩ := e
    rw [List.map_cons, List.nodup_cons] at distinct
    obtain ⟨hfresh, hrest⟩ := distinct
    rw [countNew]
    by_cases hseen : region ∈ seen
    · rw [if_pos (List.contains_iff_mem.mpr hseen)]
      obtain ⟨hcount, hmem⟩ : (countNew seen count rest).1 = _ ∧ _ := ih hrest
      refine ⟨?_, fun r => ?_⟩
      · rw [hcount, List.filter_cons_of_neg (by simpa using hseen)]
      · rw [hmem, List.map_cons, List.mem_cons]
        by_cases hr : r = region
        · simp [hr, hseen]
        · simp [hr]
    · rw [if_neg fun h => hseen (List.contains_iff_mem.mp h)]
      obtain ⟨hcount, hmem⟩ : (countNew (region :: seen) (count + statements) rest).1 = _ ∧ _ :=
        ih hrest
      refine ⟨?_, fun r => ?_⟩
      · -- No later entry is of this region, so seeing it changes no later count.
        have hsame : rest.filter (fun e => !(region :: seen).contains e.1) =
            rest.filter (fun e => !seen.contains e.1) := by
          refine List.filter_congr fun e he => ?_
          have hmem : e.1 ∈ rest.map Prod.fst := List.mem_map_of_mem he
          have hne : e.1 ≠ region := fun heq => hfresh (heq ▸ hmem)
          simp [hne]
        rw [hcount, hsame, List.filter_cons_of_pos (by simpa using hseen), List.map_cons, total,
          Nat.add_assoc]
      · rw [hmem, List.map_cons, List.mem_cons, List.mem_cons]
        exact or_left_comm.trans or_assoc.symm

/-- What is reported of a candidate is its gain over the candidates before it. -/
theorem getElem?_explainFrom (distinct : ∀ d ∈ before ++ c :: after, d.regions.Nodup)
    (same : ∀ r, r ∈ seen' ↔ r ∈ seen) :
    (explainFrom seen' (before ++ c :: after))[before.length]? =
      some ⟨c.name, c.raw, c.gain (seenAfter seen before)⟩ := by
  induction before generalizing seen seen' with
  | nil =>
    obtain ⟨hcount, _⟩ : (countNew seen' 0 c.statements.entries).1 = _ ∧ _ :=
      countNew_spec (distinct c List.mem_cons_self)
    have hgain : (countNew seen' 0 c.statements.entries).1 = c.gain seen := by
      rw [hcount, Nat.zero_add, ← c.gain_congr same]
      rfl
    rw [List.nil_append, explainFrom, List.length_nil, List.getElem?_cons_zero, hgain]
    rfl
  | cons first before ih =>
    rw [List.cons_append, List.forall_mem_cons] at distinct
    obtain ⟨_, hmem⟩ : (countNew seen' 0 first.statements.entries).1 = _ ∧ _ :=
      countNew_spec distinct.1
    have hsame : ∀ r, r ∈ (countNew seen' 0 first.statements.entries).2 ↔
        r ∈ first.regions ++ seen := by
      intro r
      rw [hmem, List.mem_append, same]
      rfl
    rw [List.cons_append, explainFrom, List.length_cons, List.getElem?_cons_succ,
      ih distinct.2 hsame, c.gain_congr mem_seenAfter_cons]

/-- Explaining keeps the names in order. -/
theorem map_name_explainFrom (seen : List Region) (cs : List Candidate) :
    (explainFrom seen cs).map RankedTest.name = cs.map Candidate.name := by
  induction cs generalizing seen with
  | nil => rfl
  | cons c rest ih =>
    rw [explainFrom, List.map_cons, List.map_cons, ih]

/-- What is reported comes from the candidates. -/
theorem exists_of_mem_explainFrom {t : RankedTest} (h : t ∈ explainFrom seen cs) :
    ∃ c ∈ cs, t.name = c.name ∧ t.raw = c.raw := by
  induction cs generalizing seen with
  | nil => cases h
  | cons c rest ih =>
    rw [explainFrom, List.mem_cons] at h
    rcases h with rfl | h
    · exact ⟨c, List.mem_cons_self, rfl, rfl⟩
    · obtain ⟨d, hd, heq⟩ := ih h
      exact ⟨d, List.mem_cons_of_mem c hd, heq⟩

theorem split_getElem {α : Type} (xs : List α) {i : Nat} (hi : i < xs.length) :
    xs = xs.take i ++ xs[i] :: xs.drop (i + 1) := by
  rw [List.getElem_cons_drop, List.take_append_drop]

/-- Along a greedy run the reported counts do not rise. -/
theorem pairwise_explainFrom_greedyFrom (distinct : ∀ c ∈ cs, c.regions.Nodup)
    (hcs : ∀ c ∈ cs, c.raw ≤ 2 ^ 53) (hlength : cs.length = n) :
    ((explainFrom seen (greedyFrom netNewScore seen n cs)).map RankedTest.netNew).Pairwise
      (· ≥ ·) := by
  have hmem := fun c => (greedyFrom_perm netNewScore seen hlength).mem_iff (a := c)
  have hbest (before after : List Candidate) (c d : Candidate)
      (hrun : greedyFrom netNewScore seen n cs = before ++ c :: after) (hd : d ∈ after) :
      d.gain (seenAfter seen before) ≤ c.gain (seenAfter seen before) :=
    (best_of_greedyFrom hlength hcs hrun hd).1
  -- From here on a run is any list in which no later test would have gained more.
  generalize greedyFrom netNewScore seen n cs = run at hmem hbest
  have hsize : (explainFrom seen run).length = run.length := by
    have hnames := congrArg List.length (map_name_explainFrom seen run)
    rwa [List.length_map, List.length_map] at hnames
  have hcount (i : Nat) (hi : i < run.length) :
      (explainFrom seen run)[i].netNew = run[i].gain (seenAfter seen (run.take i)) := by
    have hdistinct : ∀ c ∈ run.take i ++ run[i] :: run.drop (i + 1), c.regions.Nodup := by
      rw [← split_getElem]
      exact fun c hc => distinct c ((hmem c).mp hc)
    have hreport := getElem?_explainFrom hdistinct fun r => (Iff.rfl : r ∈ seen ↔ r ∈ seen)
    rw [← split_getElem, List.length_take_of_le (by omega), List.getElem?_eq_some_iff] at hreport
    obtain ⟨_, hreport⟩ := hreport
    rw [hreport]
  rw [List.pairwise_map, List.pairwise_iff_getElem]
  intro i j hi hj hij
  rw [hsize] at hi hj
  have hlater : run[j] ∈ run.drop (i + 1) :=
    List.mem_drop_iff_getElem.mpr ⟨j - (i + 1), by omega, by congr 1; omega⟩
  have hseen : seenAfter seen (run.take i) ⊆ seenAfter seen (run.take j) := by
    intro r hr
    unfold seenAfter at hr ⊢
    rw [List.mem_append, List.mem_flatMap] at hr ⊢
    exact hr.imp_left fun ⟨c, hc, hr⟩ =>
      ⟨c, List.take_subset_take_left run (Nat.le_of_lt hij) hc, hr⟩
  -- What a test gains can only shrink as more is seen, and the earlier test gained most at its
  -- turn.
  calc (explainFrom seen run)[j].netNew = run[j].gain (seenAfter seen (run.take j)) := hcount j hj
    _ ≤ run[j].gain (seenAfter seen (run.take i)) := Candidate.gain_antitone hseen _
    _ ≤ run[i].gain (seenAfter seen (run.take i)) := hbest _ _ _ _ (split_getElem run hi) hlater
    _ = (explainFrom seen run)[i].netNew := (hcount i hi).symm

/-! ## Profiles -/

/-- How many statements the last block of some region that ran has. -/
def reportedCount (blocks : List Block) (r : Region) : Nat :=
  (((blocks.filter fun b => b.isCovered && decide (b.region = r)).getLast?).map
    (·.statements.toNat)).getD 0

/-- The statements of a profile in regions that no block of the profiles before it ran in. -/
def newStatements (before : List Profile) (p : Profile) : Nat :=
  ∑ r ∈ executedRegions p.blocks \ executedRegions (before.flatMap Profile.blocks),
    reportedCount p.blocks r

namespace Candidate

variable {p : Profile} {name : String}

theorem nodup_regions_ofProfile (name : String) (p : Profile) : (ofProfile name p).regions.Nodup :=
  (SortedMap.pairwise_keys_ofList _).nodup

/-- The regions of a candidate are those that its profile executed. -/
theorem mem_regions_ofProfile {r : Region} :
    r ∈ (ofProfile name p).regions ↔ r ∈ executedRegions p.blocks := by
  unfold regions ofProfile
  rw [SortedMap.mem_keys_ofList, executedRegions, List.mem_toFinset, List.map_map]
  rfl

/-- A candidate counts for a region what its profile reports. -/
theorem get?_statements_ofProfile (name : String) (p : Profile) (r : Region) :
    ((ofProfile name p).statements.get? r).getD 0 = reportedCount p.blocks r := by
  unfold ofProfile reportedCount
  rw [SortedMap.get?_ofList, List.filter_map, List.getLast?_map, Option.map_map,
    Profile.coveredBlocks, List.filter_filter]
  simp only [Function.comp_def, Bool.and_comm]

/-- The gain is the sum over the regions not seen. -/
theorem gain_eq_sum (distinct : c.regions.Nodup) (seen : List Region) :
    c.gain seen = ∑ r ∈ c.regions.toFinset \ seen.toFinset, (c.statements.get? r).getD 0 := by
  have hvalues : (c.statements.entries.filter fun e => !seen.contains e.1).map Prod.snd =
      (c.regions.filter fun r => !seen.contains r).map fun r => (c.statements.get? r).getD 0 := by
    unfold regions SortedMap.keys
    rw [List.filter_map, List.map_map]
    refine List.map_congr_left fun e he => ?_
    rw [Function.comp_apply, SortedMap.get?_of_mem distinct (List.mem_of_mem_filter he),
      Option.getD_some]
  have hregions : (c.regions.filter fun r => !seen.contains r).toFinset =
      c.regions.toFinset \ seen.toFinset := by
    ext r
    simp
  rw [gain, hvalues, total_eq_sum, ← hregions, List.sum_toFinset _ (distinct.filter _)]

/-- The gain of a test is what its profile adds to those whose regions were seen. -/
theorem gain_ofProfile {before : List Profile}
    (hseen : ∀ r, r ∈ seen ↔ r ∈ executedRegions (before.flatMap Profile.blocks)) (name : String)
    (p : Profile) :
    (ofProfile name p).gain seen = newStatements before p := by
  have hregions : (ofProfile name p).regions.toFinset \ seen.toFinset =
      executedRegions p.blocks \ executedRegions (before.flatMap Profile.blocks) := by
    ext r
    rw [Finset.mem_sdiff, Finset.mem_sdiff, List.mem_toFinset, List.mem_toFinset,
      mem_regions_ofProfile, hseen]
  rw [gain_eq_sum (nodup_regions_ofProfile name p), hregions, newStatements]
  exact Finset.sum_congr rfl fun r _ => get?_statements_ofProfile name p r

/-- Inserting a value adds at most this value to the total. -/
theorem total_values_insert (m : SortedMap Region Nat) (r : Region) (n : Nat) :
    total (m.insert r n).values ≤ total m.values + n := by
  obtain ⟨entries⟩ := m
  unfold SortedMap.insert SortedMap.alter SortedMap.values
  dsimp only
  induction entries with
  | nil => simp [SortedMap.alterEntries, total]
  | cons e rest ih =>
    rw [SortedMap.alterEntries]
    split
    next =>
      simp only [List.map_cons, total]
      omega
    next =>
      split
      next =>
        simp only [List.map_cons, total]
        omega
      next =>
        simp only [List.map_cons, total]
        omega

/-- A region counts once, so the statements of a test are at most those of all its blocks. -/
theorem raw_ofProfile_le (name : String) (p : Profile) :
    (ofProfile name p).raw ≤ p.coveredStatements := by
  unfold raw ofProfile Profile.coveredStatements
  dsimp only
  induction p.coveredBlocks using List.reverseRecOn with
  | nil => exact Nat.le_refl 0
  | append_singleton blocks b ih =>
    rw [List.map_append, List.map_singleton, SortedMap.ofList_concat, List.map_append,
      List.map_singleton]
    rw [total_concat]
    exact (total_values_insert _ _ _).trans (Nat.add_le_add_right ih _)

end Candidate

/-! ## Tests -/

namespace TestProfiles

variable {tests : TestProfiles} {name : String} {p : Profile}

/-- Inserting a test keeps the names distinct. -/
theorem nodup_names_insert (h : tests.names.Nodup) (name : String) (p : Profile) :
    (tests.insert name p).names.Nodup := by
  unfold insert
  split
  next => exact h
  next hnew =>
    rw [contains, List.contains_iff_mem] at hnew
    rw [names, List.map_append, List.nodup_append]
    refine ⟨h, List.nodup_singleton _, fun a ha b hb heq => ?_⟩
    rw [List.map_singleton, List.mem_singleton] at hb
    rw [heq, hb] at ha
    exact hnew ha

/-- Tests made of entries have distinct names. -/
theorem nodup_names_ofList (entries : List (String × Profile)) : (ofList entries).names.Nodup := by
  have hfold (tests : TestProfiles) (h : tests.names.Nodup) :
      (entries.foldl (fun tests e => tests.insert e.1 e.2) tests).names.Nodup := by
    induction entries generalizing tests with
    | nil => exact h
    | cons e rest ih => exact ih _ (nodup_names_insert h e.1 e.2)
  exact hfold empty List.nodup_nil

/-- With distinct names each entry is the one found by its name. -/
theorem get?_of_mem (distinct : tests.names.Nodup) (h : (name, p) ∈ tests.entries) :
    tests.get? name = some p := by
  obtain ⟨entries⟩ := tests
  unfold names at distinct
  unfold get?
  dsimp only at distinct h ⊢
  induction entries with
  | nil => cases h
  | cons e rest ih =>
    rw [List.map_cons, List.nodup_cons] at distinct
    rcases List.mem_cons.mp h with rfl | hrest
    · rw [List.find?_cons_of_pos (by simp)]
      rfl
    · have hne : e.1 ≠ name := fun heq => distinct.1 (heq ▸ List.mem_map_of_mem hrest)
      rw [List.find?_cons_of_neg (by simpa using hne)]
      exact ih distinct.2 hrest

/-- A candidate is made from the profile of the test of its name. -/
theorem get?_of_mem_candidates (distinct : tests.names.Nodup) {c : Candidate}
    (h : c ∈ tests.candidates) :
    ∃ p, tests.get? c.name = some p ∧ c = .ofProfile c.name p ∧ (c.name, p) ∈ tests.entries := by
  obtain ⟨⟨name, p⟩, he, rfl⟩ := List.mem_map.mp h
  exact ⟨p, get?_of_mem distinct he, rfl, he⟩

/-- What a test adds to others. -/
def added (tests : TestProfiles) (before : List String) (name : String) : Nat :=
  newStatements (before.filterMap tests.get?) ((tests.get? name).getD .empty)

/-- The gain of a candidate is what its test adds to the tests before it. -/
theorem gain_eq_added (distinct : tests.names.Nodup) {before : List Candidate} {c : Candidate}
    (hbefore : ∀ d ∈ before, d ∈ tests.candidates) (hc : c ∈ tests.candidates) :
    c.gain (seenAfter [] before) = tests.added (before.map Candidate.name) c.name := by
  obtain ⟨p, hget, hof, _⟩ := get?_of_mem_candidates distinct hc
  have hseen : ∀ r, r ∈ seenAfter [] before ↔
      r ∈ executedRegions (((before.map Candidate.name).filterMap tests.get?).flatMap
        Profile.blocks) := by
    intro r
    induction before with
    | nil => simp [seenAfter, executedRegions]
    | cons d before ih =>
      rw [List.forall_mem_cons] at hbefore
      obtain ⟨q, hget, hof, _⟩ := get?_of_mem_candidates distinct hbefore.1
      have hd : r ∈ d.regions ↔ r ∈ executedRegions q.blocks := by
        rw [hof]
        exact Candidate.mem_regions_ofProfile
      rw [List.map_cons, List.filterMap_cons_some hget, List.flatMap_cons, mem_executedRegions]
      simp only [List.mem_append, or_and_right, exists_or]
      rw [← mem_executedRegions, ← mem_executedRegions, ← ih hbefore.2, ← hd]
      simp only [seenAfter, List.flatMap_cons, List.append_nil, List.mem_append]
  rw [added, hget, Option.getD_some, ← Candidate.gain_ofProfile hseen c.name p, ← hof]

end TestProfiles

/-- Whether tests are in the order of always the largest gain, with these counts reported along
it. -/
structure NetNewOrder (tests : TestProfiles) (order : List String) (ranked : List RankedTest) :
    Prop where
  perm : order.Perm tests.names
  names : ranked.map RankedTest.name = order
  /-- The counts are what a test covers on its own and what it adds to the tests before it. -/
  counts : ∀ before name after, order = before ++ name :: after →
    ranked[before.length]? = some ⟨name, tests.added [] name, tests.added before name⟩
  /-- No test that is left adds more than the one that is taken. -/
  largest : ∀ before name after, order = before ++ name :: after →
    ∀ other ∈ after, tests.added before other ≤ tests.added before name
  /-- Those that would add as much were listed behind it. -/
  earliest : ∀ before name after, order = before ++ name :: after →
    ∀ other ∈ after, tests.added before other = tests.added before name →
      [name, other].Sublist tests.names
  falling : (ranked.map RankedTest.netNew).Pairwise (· ≥ ·)
  /-- The first test covers most on its own. -/
  first : ∀ t ∈ ranked.head?, ∀ u ∈ ranked, u.raw ≤ t.raw

namespace TestProfiles

variable {tests : TestProfiles}

/-- The candidates in the order of always the largest gain. -/
def netNewRun (tests : TestProfiles) : List Candidate := greedy netNewScore tests.candidates

theorem mem_netNewRun {c : Candidate} : c ∈ tests.netNewRun ↔ c ∈ tests.candidates :=
  (greedyFrom_perm netNewScore [] rfl).mem_iff

/-- With distinct names explaining the greedy run takes it candidate by candidate. -/
theorem explain_netNewRun (distinct : tests.names.Nodup) :
    explain (tests.netNewRun.map Candidate.name) tests = explainFrom [] tests.netNewRun := by
  have hsame : tests.netNewRun.filterMap (fun c =>
    (tests.get? c.name).map (Candidate.ofProfile c.name)) =
      tests.netNewRun.filterMap some := by
    refine List.filterMap_congr fun c hc => ?_
    obtain ⟨p, hget, hof, _⟩ := get?_of_mem_candidates distinct (mem_netNewRun.mp hc)
    rw [hget, Option.map_some, ← hof]
  rw [explain, List.filterMap_map]
  exact congrArg _ (hsame.trans (List.filterMap_some))

/-- The raw counts are small if those of the profiles are. -/
theorem raw_le (distinct : tests.names.Nodup)
    (small : ∀ e ∈ tests.entries, e.2.coveredStatements ≤ 2 ^ 53) :
    ∀ c ∈ tests.candidates, c.raw ≤ 2 ^ 53 := by
  intro c hc
  obtain ⟨p, _, hof, he⟩ := get?_of_mem_candidates distinct hc
  rw [hof]
  exact (Candidate.raw_ofProfile_le c.name p).trans (small _ he)

/-- All candidates have each region once. -/
theorem nodup_regions (distinct : tests.names.Nodup) : ∀ c ∈ tests.candidates, c.regions.Nodup := by
  intro c hc
  obtain ⟨p, _, hof, _⟩ := get?_of_mem_candidates distinct hc
  rw [hof]
  exact Candidate.nodup_regions_ofProfile c.name p

/-- A place in the order of names is a place in the run of candidates, where the gain of a candidate
is what its test adds. -/
theorem split_run (distinct : tests.names.Nodup) {run : List Candidate}
    (hmem : ∀ d ∈ run, d ∈ tests.candidates) {before after : List String} {name : String}
    (h : run.map Candidate.name = before ++ name :: after) :
    ∃ front c back, run = front ++ c :: back ∧ front.map Candidate.name = before ∧ c.name = name ∧
      back.map Candidate.name = after ∧
      ∀ d ∈ c :: back, d.gain (seenAfter [] front) = tests.added before d.name ∧
        d.raw = tests.added [] d.name := by
  rw [List.map_eq_append_iff] at h
  obtain ⟨front, tail, rfl, hfront, htail⟩ := h
  obtain ⟨c, back, rfl, hc, hback⟩ := List.map_eq_cons_iff.mp htail
  refine ⟨front, c, back, rfl, hfront, hc, hback, fun d hd => ?_⟩
  have hd : d ∈ tests.candidates := hmem d (List.mem_append_right _ hd)
  have halone := gain_eq_added distinct (List.forall_mem_nil _) hd
  have hgain := gain_eq_added distinct (fun d hd => hmem d (List.mem_append_left _ hd)) hd
  rw [hfront] at hgain
  exact ⟨hgain, d.gain_nil.symm.trans halone⟩

/-- What is reported of a test is what it covers on its own and what it adds to those before it. -/
theorem getElem?_explainFrom_netNewRun (distinct : tests.names.Nodup) {before after : List String}
    {name : String} (h : tests.netNewRun.map Candidate.name = before ++ name :: after) :
    (explainFrom [] tests.netNewRun)[before.length]? =
      some ⟨name, tests.added [] name, tests.added before name⟩ := by
  obtain ⟨front, c, back, hrun, rfl, rfl, rfl, hadded⟩ :=
    split_run distinct (fun d => mem_netNewRun.mp) h
  have hdistinct : ∀ d ∈ front ++ c :: back, d.regions.Nodup := by
    intro d hd
    rw [← hrun, mem_netNewRun] at hd
    exact nodup_regions distinct d hd
  obtain ⟨hgain, halone⟩ := hadded c List.mem_cons_self
  rw [hrun, List.length_map, getElem?_explainFrom hdistinct fun _ => Iff.rfl, hgain, halone]

/-- No test that is left adds more than the one that is taken, and those that add as much were
listed behind it. -/
theorem best_of_netNewRun (distinct : tests.names.Nodup)
    (hraw : ∀ c ∈ tests.candidates, c.raw ≤ 2 ^ 53) {before after : List String}
    {name other : String} (h : tests.netNewRun.map Candidate.name = before ++ name :: after)
    (hother : other ∈ after) :
    tests.added before other ≤ tests.added before name ∧
      (tests.added before other = tests.added before name → [name, other].Sublist tests.names) := by
  obtain ⟨front, c, back, hrun, rfl, rfl, rfl, hadded⟩ :=
    split_run distinct (fun d => mem_netNewRun.mp) h
  obtain ⟨d, hd, rfl⟩ := List.mem_map.mp hother
  rw [← (hadded c List.mem_cons_self).1, ← (hadded d (List.mem_cons_of_mem _ hd)).1,
    ← map_name_candidates]
  obtain ⟨hle, hties⟩ := best_of_greedyFrom rfl hraw hrun hd
  exact ⟨hle, fun heq => (hties heq).map Candidate.name⟩

/-- The test that is reported first covers most. -/
theorem raw_le_head_netNewRun (hraw : ∀ c ∈ tests.candidates, c.raw ≤ 2 ^ 53) {t u : RankedTest}
    (ht : t ∈ (explainFrom [] tests.netNewRun).head?) (hu : u ∈ explainFrom [] tests.netNewRun) :
    u.raw ≤ t.raw := by
  obtain ⟨d, hd, _, hraw_eq⟩ := exists_of_mem_explainFrom hu
  cases hrun : tests.netNewRun with
  | nil =>
    rw [hrun] at ht
    cases ht
  | cons c rest =>
    rw [hrun] at ht hd
    cases ht
    rw [hraw_eq]
    exact raw_le_of_greedyFrom rfl hraw hrun hd

end TestProfiles

/-- The `netNew` strategy always takes the test that adds most, the earliest of several, and reports
what it adds. -/
theorem TestOrder.netNewOrder_of_small (entries : List (String × Profile))
    (weights : ImportanceWeights)
    (small : ∀ e ∈ (TestProfiles.ofList entries).entries, e.2.coveredStatements ≤ 2 ^ 53) :
    NetNewOrder (TestProfiles.ofList entries)
      (TestOrder.apply ⟨.netNew, weights⟩ (TestProfiles.ofList entries))
      (TestOrder.rank ⟨.netNew, weights⟩ (TestProfiles.ofList entries)) := by
  have distinct := TestProfiles.nodup_names_ofList entries
  generalize TestProfiles.ofList entries = tests at small distinct
  -- No count is above `2^53`, so the floats compare as the counts do.
  have hraw := TestProfiles.raw_le distinct small
  have horder : TestOrder.apply ⟨.netNew, weights⟩ tests = tests.netNewRun.map Candidate.name := rfl
  have hranked : TestOrder.rank ⟨.netNew, weights⟩ tests = explainFrom [] tests.netNewRun :=
    TestProfiles.explain_netNewRun distinct
  have hperm := TestOrder.apply_perm ⟨.netNew, weights⟩ tests
  rw [hranked, horder]
  rw [horder] at hperm
  refine ⟨hperm, map_name_explainFrom _ _, ?counts, ?largest, ?earliest, ?falling, ?first⟩
  case counts =>
    intro before name after h
    exact TestProfiles.getElem?_explainFrom_netNewRun distinct h
  case largest =>
    intro before name after h other hother
    exact (TestProfiles.best_of_netNewRun distinct hraw h hother).1
  case earliest =>
    intro before name after h other hother
    exact (TestProfiles.best_of_netNewRun distinct hraw h hother).2
  case falling =>
    exact pairwise_explainFrom_greedyFrom (TestProfiles.nodup_regions distinct) hraw rfl
  case first =>
    intro t ht u hu
    exact TestProfiles.raw_le_head_netNewRun hraw ht hu

/-- A test that covers two regions, two that cover one of them each and one more, and a test that
runs nothing. -/
def overlappingTests : List (String × Profile) :=
  let block (file : String) (statements executed : UInt32) : Block :=
    ⟨file, ⟨⟨1, 1⟩, ⟨2, 1⟩⟩, statements, executed⟩
  [("idle", .ofBlocks .set [block "a.rs" 9 0]),
    ("left", .ofBlocks .set [block "a.rs" 3 1, block "c.rs" 1 1]),
    ("wide", .ofBlocks .set [block "a.rs" 3 1, block "b.rs" 3 1]),
    ("right", .ofBlocks .set [block "b.rs" 3 1, block "d.rs" 1 1])]

theorem TestOrder.netNewOrder_of_small_overlapping :
    (∀ e ∈ (TestProfiles.ofList overlappingTests).entries, e.2.coveredStatements ≤ 2 ^ 53) ∧
      NetNewOrder (TestProfiles.ofList overlappingTests)
        (TestOrder.apply ⟨.netNew, .standard⟩ (TestProfiles.ofList overlappingTests))
        (TestOrder.rank ⟨.netNew, .standard⟩ (TestProfiles.ofList overlappingTests)) := by
  have small : ∀ e ∈ (TestProfiles.ofList overlappingTests).entries,
      e.2.coveredStatements ≤ 2 ^ 53 := by
    decide +kernel
  exact ⟨small, TestOrder.netNewOrder_of_small overlappingTests .standard small⟩

end CoverageReplay
