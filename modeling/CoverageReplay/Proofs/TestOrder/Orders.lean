import CoverageReplay.Proofs.TestOrder.NetNew

/-!
# What each strategy orders by

Every strategy rearranges the tests. `raw` puts those first that cover more on their own and keeps
the order of the caller among equals (`RawOrder`). The greedy strategies take, of the tests that are
left, the first one with a score that no other exceeds, and they do so for any score of what a test
covers and what it adds, also where some scores are not numbers or infinite (`GreedyOrder`); only if
no score is above negative infinity they take the first test.
-/

namespace CoverageReplay

variable {seen : List Region} {c : Candidate}
    {cs before after front back : List Candidate} {n : Nat}

/-! ## The order by what tests cover on their own -/

/-- Whether tests are in the order of what each covers on its own. -/
structure RawOrder (tests : TestProfiles) (order : List String) : Prop where
  perm : order.Perm tests.names
  /-- No test covers more than one before it. -/
  falling : order.Pairwise fun name later => tests.added [] later ≤ tests.added [] name
  /-- Of tests that cover as much, the one that was listed first comes first. -/
  stable : order.Pairwise fun name later =>
    tests.added [] later = tests.added [] name → [name, later].Sublist tests.names

/-- Two members of a list stand in it one before the other. -/
theorem pair_sublist_or {α : Type} {xs : List α} {a b : α} (ha : a ∈ xs) (hb : b ∈ xs)
    (hne : a ≠ b) :
    [a, b].Sublist xs ∨ [b, a].Sublist xs := by
  obtain ⟨front, back, rfl⟩ := List.append_of_mem ha
  rw [List.mem_append, List.mem_cons] at hb
  rcases hb with hb | rfl | hb
  · right
    exact (List.singleton_sublist.mpr hb).append (List.singleton_sublist.mpr List.mem_cons_self)
  · exact absurd rfl hne
  · left
    exact ((List.singleton_sublist.mpr hb).cons_cons a).trans (List.sublist_append_right front _)

/-- A list without repetitions does not have two members in both orders. -/
theorem not_sublist_swap {α : Type} {xs : List α} {a b : α} (distinct : xs.Nodup)
    (hab : [a, b].Sublist xs) :
    ¬ [b, a].Sublist xs := by
  induction xs with
  | nil => cases hab
  | cons x xs ih =>
    rw [List.nodup_cons] at distinct
    obtain ⟨hx, hxs⟩ := distinct
    have htail {y z : α} (h : [y, z].Sublist (x :: xs)) : z ∈ xs := by
      cases h with
      | cons _ h => exact h.subset (by simp)
      | cons_cons _ h => exact List.singleton_sublist.mp h
    intro hba
    cases hab with
    | cons_cons _ _ => exact hx (htail hba)
    | cons _ hab' =>
      cases hba with
      | cons_cons _ _ => exact hx (hab'.subset (by simp))
      | cons _ hba' => exact ih hxs hab' hba'

/-- Whether a candidate goes before another one by what they cover, and as listed if they cover as
much. -/
structure ByRaw (cs : List Candidate) (c d : Candidate) : Prop where
  le : d.raw ≤ c.raw
  listed : d.raw = c.raw → [c, d].Sublist cs

/-- Sorting by falling counts keeps the order of candidates that cover as much. -/
theorem pairwise_byRaw (distinct : cs.Nodup) : (byRaw cs).Pairwise (ByRaw cs) := by
  have htrans (a b c : Candidate) (hab : decide (b.raw ≤ a.raw)) (hbc : decide (c.raw ≤ b.raw)) :
      decide (c.raw ≤ a.raw) := by
    rw [decide_eq_true_iff] at hab hbc ⊢
    omega
  have htotal (a b : Candidate) : decide (b.raw ≤ a.raw) || decide (a.raw ≤ b.raw) := by
    rw [Bool.or_eq_true, decide_eq_true_iff, decide_eq_true_iff]
    omega
  have hperm : (byRaw cs).Perm cs := List.mergeSort_perm _ _
  have hsorted := List.pairwise_mergeSort htrans htotal cs
  rw [List.pairwise_iff_forall_sublist]
  intro c d hcd
  refine ⟨of_decide_eq_true (List.pairwise_iff_forall_sublist.mp hsorted hcd), fun heq => ?_⟩
  have hc : c ∈ cs := hperm.mem_iff.mp (hcd.subset (by simp))
  have hd : d ∈ cs := hperm.mem_iff.mp (hcd.subset (by simp))
  have hdistinct : (byRaw cs).Nodup := hperm.nodup_iff.mpr distinct
  have hne : c ≠ d := by
    rintro rfl
    exact not_sublist_swap hdistinct hcd hcd
  -- In the other order they would have been listed, and sorting would have kept that order.
  refine (pair_sublist_or hc hd hne).resolve_right fun hdc => not_sublist_swap hdistinct hcd ?_
  exact List.pair_sublist_mergeSort htrans htotal (decide_eq_true (Nat.le_of_eq heq.symm)) hdc

/-! ## Greedy orders -/

/-- Whether a member of a list is the one that a strict search for the best score takes. -/
structure FirstBest {α : Type} (score : α → Float) (xs : List α) (x : α) : Prop where
  /-- The first one with a score above negative infinity that no score exceeds. -/
  best : (∃ y ∈ xs, leastScore < score y) →
    xs.find? (fun y => leastScore < score y ∧ ∀ z ∈ xs, ¬ score y < score z) = some x
  /-- If there is none with a score above negative infinity, the first of all. -/
  first : (∀ y ∈ xs, ¬ leastScore < score y) → xs.head? = some x

/-- Whether tests are in the order of a greedy choice by a score of what a test covers and what it
adds. -/
structure GreedyOrder (tests : TestProfiles) (score : Nat → Nat → Float) (order : List String) :
    Prop where
  perm : order.Perm tests.names
  /-- Each test is the first best of those that are left, in the order of the caller. -/
  chosen : ∀ before name after, order = before ++ name :: after →
    FirstBest (fun other => score (tests.added [] other) (tests.added before other))
      (tests.names.filter fun other => other ∉ before) name

/-- What a step takes is the first best. -/
theorem Chosen.firstBest {α : Type} {score : Candidate → Float} (h : Chosen score front c back)
    (f : Candidate → α) (score' : α → Float)
    (same : ∀ d ∈ front ++ c :: back, score' (f d) = score d) :
    FirstBest score' ((front ++ c :: back).map f) (f c) := by
  have hc : c ∈ front ++ c :: back := List.mem_append_right front List.mem_cons_self
  -- Either somebody scores above zero, and the choice is the first of the best, or nobody does, and
  -- it is the first of all.
  cases h with
  | best habove hlargest hfront =>
    constructor
    case best =>
      intro _
      rw [List.find?_eq_some_iff_append]
      refine ⟨?_, front.map f, back.map f, by rw [List.map_append, List.map_cons], ?_⟩
      · rw [decide_eq_true_iff, List.forall_mem_map, same c hc]
        refine ⟨habove, fun d hd => ?_⟩
        rw [same d hd]
        exact hlargest d hd
      · rw [List.forall_mem_map]
        intro d hd
        rw [Bool.not_eq_true', decide_eq_false_iff_not, same d (List.mem_append_left _ hd)]
        rintro ⟨habove', hlargest'⟩
        refine hlargest' (f c) (List.mem_map_of_mem hc) ?_
        rw [same c hc]
        exact hfront d hd habove'
    case first =>
      intro hnone
      refine absurd habove ?_
      rw [← same c hc]
      exact hnone (f c) (List.mem_map_of_mem hc)
  | first hnil hnone =>
    subst hnil
    constructor
    case best =>
      rintro ⟨y, hy, habove⟩
      obtain ⟨d, hd, rfl⟩ := List.mem_map.mp hy
      rw [same d hd] at habove
      exact absurd habove (hnone d hd)
    case first => exact fun _ => rfl

/-- The score of a candidate by what it covers and what it adds. -/
def countsScore (score : Nat → Nat → Float) (seen : List Region) (c : Candidate) : Float :=
  score c.raw (c.gain seen)

/-- At each step of a run the chosen one of the candidates that are left is taken. -/
theorem chosen_of_greedyFrom {score : Nat → Nat → Float} (hlength : cs.length = n)
    (hrun : greedyFrom (countsScore score) seen n cs = before ++ c :: after) :
    ∃ front back, (front ++ c :: back).Sublist cs ∧ (front ++ back).Perm after ∧
      Chosen (countsScore score (seenAfter seen before)) front c back := by
  -- The induction is on the tests that are left; each choice adds to what has been seen.
  induction n generalizing seen cs before with
  | zero =>
    rw [greedyFrom, eq_comm, List.append_eq_nil_iff] at hrun
    cases hrun.2
  | succ n ih =>
    obtain ⟨front, picked, back, rfl, hstep, hchosen, hlength'⟩ :=
      greedyFrom_step (countsScore score) seen hlength
    rw [hstep] at hrun
    cases before with
    | nil =>
      rw [List.nil_append, List.cons.injEq] at hrun
      obtain ⟨rfl, rfl⟩ := hrun
      exact ⟨front, back, List.Sublist.refl _, (greedyFrom_perm _ _ hlength').symm, hchosen⟩
    | cons first before =>
      rw [List.cons_append, List.cons.injEq] at hrun
      obtain ⟨rfl, hrun⟩ := hrun
      obtain ⟨front', back', hsub, hperm, hchosen'⟩ := ih hlength' hrun
      have hscore : countsScore score (seenAfter (picked.regions ++ seen) before) =
          countsScore score (seenAfter seen (picked :: before)) := by
        funext d
        rw [countsScore, countsScore, d.gain_congr mem_seenAfter_cons]
      rw [hscore] at hchosen'
      exact ⟨front', back', hsub.trans ((List.sublist_cons_self picked back).append_left front),
        hperm, hchosen'⟩

/-- A part of a list without repetitions, in the same order, is what is left by the test for its
members. -/
theorem filter_eq_of_sublist {α : Type} {xs ys : List α} {p : α → Bool} (distinct : ys.Nodup)
    (sub : xs.Sublist ys) (same : ∀ x ∈ ys, p x ↔ x ∈ xs) : ys.filter p = xs := by
  have hxs : xs.filter p = xs := List.filter_eq_self.mpr fun x hx => (same x (sub.subset hx)).mpr hx
  have hsub : xs.Sublist (ys.filter p) := hxs ▸ sub.filter p
  have hsubset : ys.filter p ⊆ xs := by
    intro x hx
    obtain ⟨hx, hp⟩ := List.mem_filter.mp hx
    exact (same x hx).mp hp
  exact (hsub.eq_of_length_le ((distinct.filter p).subperm hsubset).length_le).symm

namespace TestProfiles

variable {tests : TestProfiles}

theorem nodup_candidates (distinct : tests.names.Nodup) : tests.candidates.Nodup := by
  rw [← map_name_candidates] at distinct
  exact distinct.of_map _

/-- Sorting by raw counts gives the order by raw counts. -/
theorem rawOrder_byRaw (distinct : tests.names.Nodup) :
    RawOrder tests ((byRaw tests.candidates).map Candidate.name) := by
  have hperm : (byRaw tests.candidates).Perm tests.candidates := List.mergeSort_perm _ _
  have halone : ∀ c ∈ byRaw tests.candidates, c.raw = tests.added [] c.name := by
    intro c hc
    exact c.gain_nil.symm.trans
      (gain_eq_added distinct (List.forall_mem_nil _) (hperm.mem_iff.mp hc))
  have hpairs := pairwise_byRaw (nodup_candidates distinct)
  refine ⟨map_name_candidates tests ▸ hperm.map _, ?falling, ?stable⟩
  case falling =>
    rw [List.pairwise_map]
    refine hpairs.imp_of_mem fun {c d} hc hd h => ?_
    rw [← halone c hc, ← halone d hd]
    exact h.le
  case stable =>
    rw [List.pairwise_map]
    refine hpairs.imp_of_mem fun {c d} hc hd h heq => ?_
    rw [← halone c hc, ← halone d hd] at heq
    rw [← map_name_candidates]
    exact (h.listed heq).map Candidate.name

/-- The tests that are left are those that were not taken. -/
theorem names_left (distinct : tests.names.Nodup) {before after : List String} {name : String}
    {left : List Candidate} (hperm : (before ++ name :: after).Perm tests.names)
    (sub : left.Sublist tests.candidates) (hleft : (left.map Candidate.name).Perm (name :: after)) :
    tests.names.filter (fun other => other ∉ before) = left.map Candidate.name := by
  have hsub : (left.map Candidate.name).Sublist tests.names := map_name_candidates tests ▸ sub.map _
  refine filter_eq_of_sublist distinct hsub fun other hother => ?_
  have hdisjoint := (List.nodup_append'.mp (hperm.nodup_iff.mpr distinct)).2.2
  rw [← hperm.mem_iff, List.mem_append] at hother
  rw [decide_eq_true_iff, hleft.mem_iff]
  exact ⟨hother.resolve_left, fun h hbefore => hdisjoint hbefore h⟩

/-- A greedy run orders the tests by its score. -/
theorem greedyOrder_greedy (distinct : tests.names.Nodup) (score : Nat → Nat → Float) :
    GreedyOrder tests score ((greedy (countsScore score) tests.candidates).map Candidate.name) := by
  have hperm : (greedy (countsScore score) tests.candidates).Perm tests.candidates :=
    greedyFrom_perm _ _ rfl
  have hnames : ((greedy (countsScore score) tests.candidates).map Candidate.name).Perm
      tests.names :=
    map_name_candidates tests ▸ hperm.map _
  refine ⟨hnames, fun before name after h => ?_⟩
  obtain ⟨front, c, back, hrun, rfl, rfl, rfl, hadded⟩ :=
    split_run distinct (fun d => hperm.mem_iff.mp) h
  obtain ⟨front', back', hsub, hleft, hchosen⟩ := chosen_of_greedyFrom rfl hrun
  have hleft : (front' ++ c :: back').Perm (c :: back) := List.perm_middle.trans (hleft.cons c)
  rw [names_left distinct (h ▸ hnames) hsub (hleft.map _)]
  refine hchosen.firstBest Candidate.name _ fun d hd => ?_
  obtain ⟨hgain, halone⟩ := hadded d (hleft.mem_iff.mp hd)
  rw [countsScore, hgain, halone]

end TestProfiles

/-- **What the strategies do.** Each strategy, with whatever weights, returns every test once. `raw`
orders by what tests cover on their own, with ties as the caller listed them, and a greedy order,
for whatever score, by the first best score of those that are left; the two greedy strategies are
such orders. -/
theorem TestOrder.orders_of_strategies (entries : List (String × Profile))
    (weights : ImportanceWeights) :
    let tests := TestProfiles.ofList entries
    (∀ strategy, (TestOrder.apply ⟨strategy, weights⟩ tests).Perm tests.names ∧
      (TestOrder.apply ⟨strategy, weights⟩ tests).Nodup) ∧
    RawOrder tests (TestOrder.apply ⟨.raw, weights⟩ tests) ∧
    (∀ score, GreedyOrder tests score
      ((greedy (countsScore score) tests.candidates).map Candidate.name)) ∧
    GreedyOrder tests (fun _ added => countScore added) (TestOrder.apply ⟨.netNew, weights⟩ tests) ∧
    GreedyOrder tests (fun covered added =>
      weights.raw * countScore covered + weights.netNew * countScore added)
      (TestOrder.apply ⟨.importance, weights⟩ tests) := by
  intro tests
  have distinct : tests.names.Nodup := TestProfiles.nodup_names_ofList entries
  refine ⟨fun strategy => ?_, TestProfiles.rawOrder_byRaw distinct,
    TestProfiles.greedyOrder_greedy distinct,
    TestProfiles.greedyOrder_greedy distinct _, TestProfiles.greedyOrder_greedy distinct _⟩
  have hperm := TestOrder.apply_perm ⟨strategy, weights⟩ tests
  exact ⟨hperm, hperm.nodup_iff.mpr distinct⟩

end CoverageReplay
