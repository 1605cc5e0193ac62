import CoverageReplay.Proofs.TestOrder.Comparison

/-!
# What a greedy step takes

A step looks through the candidates that are left and keeps the best score so far, from negative
infinity on. `Chosen` says which candidate that comes to, whatever the scores are: the first of
those that no other exceeds, or the first of all if no score is above negative infinity. The search
finds it (`takeBest_chosen`), and so each step of a greedy run takes it (`greedyFrom_step`).
-/

namespace CoverageReplay

variable {score : Candidate → Float} {c : Candidate} {cs front back : List Candidate} {n : Nat}

/-- Whether a candidate is the one that a search for the best score comes to, between those in front
of it and those behind it. -/
inductive Chosen (score : Candidate → Float) (front : List Candidate) (c : Candidate)
    (back : List Candidate) : Prop
  /-- No score exceeds the one that is taken, and those in front of it do not come up to it. -/
  | best : leastScore < score c → (∀ d ∈ front ++ c :: back, ¬ score c < score d) →
    (∀ d ∈ front, leastScore < score d → score d < score c) → Chosen score front c back
  /-- There is nothing to compare, so the first candidate is taken. -/
  | first : front = [] → (∀ d ∈ c :: back, ¬ leastScore < score d) → Chosen score front c back

/-- The search ends at the place where it began if no score exceeds the bar, else at the first of
those that no score exceeds. -/
theorem bestPlace_chosen (score : Candidate → Float) (best : Nat) (bar : Float) (here : Nat)
    (cs : List Candidate) :
    (bestPlace score best bar here cs = best ∧ ∀ d ∈ cs, ¬ bar < score d) ∨
      ∃ front c back, cs = front ++ c :: back ∧
        bestPlace score best bar here cs = here + front.length ∧
        bar < score c ∧ (∀ d ∈ cs, ¬ score c < score d) ∧
        ∀ d ∈ front, bar < score d → score d < score c := by
  -- The induction is for every best place so far and its score.
  induction cs generalizing best bar here with
  | nil => exact Or.inl ⟨rfl, List.forall_mem_nil _⟩
  | cons c rest ih =>
    rw [bestPlace]
    by_cases hbar : bar < score c
    · rw [if_pos hbar]
      right
      rcases ih here (score c) (here + 1) with
        ⟨hplace, hrest⟩ | ⟨front, d, back, rfl, hplace, hd, hlargest, hfront⟩
      · exact ⟨[], c, rest, rfl, hplace, hbar, List.forall_mem_cons.mpr ⟨score_lt_irrefl _, hrest⟩,
          List.forall_mem_nil _⟩
      · refine ⟨c :: front, d, back, rfl, ?_, score_lt_trans hbar hd, ?_, ?_⟩
        · rw [hplace, List.length_cons]
          omega
        · exact List.forall_mem_cons.mpr ⟨fun h =>
            score_lt_irrefl _ (score_lt_trans hd h), hlargest⟩
        · refine List.forall_mem_cons.mpr ⟨fun _ => hd, fun e he hbare => ?_⟩
          -- A score above the bar can be compared; if it is not above that of `c`, it is below that
          -- of `d`.
          by_cases hce : score c < score e
          · exact hfront e he hce
          · exact score_lt_of_not_lt hbare hce hd
    · rw [if_neg hbar]
      rcases ih best bar (here + 1) with
        ⟨hplace, hrest⟩ | ⟨front, d, back, rfl, hplace, hd, hlargest, hfront⟩
      · exact Or.inl ⟨hplace, List.forall_mem_cons.mpr ⟨hbar, hrest⟩⟩
      · refine Or.inr ⟨c :: front, d, back, rfl, ?_, hd, ?_, ?_⟩
        · rw [hplace, List.length_cons]
          omega
        · exact List.forall_mem_cons.mpr ⟨fun h => hbar (score_lt_trans hd h), hlargest⟩
        · exact List.forall_mem_cons.mpr ⟨fun h => absurd h hbar, hfront⟩

/-- From some candidates the chosen one is taken, and the others stay in their order. -/
theorem takeBest_chosen (score : Candidate → Float) (nonempty : cs ≠ []) :
    ∃ front c back, cs = front ++ c :: back ∧ takeBest score cs = some (c, front ++ back) ∧
      Chosen score front c back := by
  unfold takeBest
  rcases bestPlace_chosen score 0 leastScore 0 cs with
    ⟨hplace, hnone⟩ | ⟨front, c, back, rfl, hplace, hc, hlargest, hfront⟩
  · obtain ⟨c, rest, rfl⟩ := List.exists_cons_of_ne_nil nonempty
    refine ⟨[], c, rest, rfl, ?_, .first rfl hnone⟩
    rw [hplace]
    rfl
  · refine ⟨front, c, back, rfl, ?_, .best hc hlargest hfront⟩
    have herase : (front ++ c :: back).eraseIdx front.length = front ++ back := by
      rw [List.eraseIdx_append_of_length_le (Nat.le_refl _), Nat.sub_self]
      rfl
    rw [hplace, Nat.zero_add]
    simp [herase]

/-- Whether scores compare as some counts do, and all of them are above negative infinity. -/
structure RanksBy (score : Candidate → Float) (key : Candidate → Nat) (cs : List Candidate) :
    Prop where
  above : ∀ c ∈ cs, leastScore < score c
  lt_iff : ∀ c ∈ cs, ∀ d ∈ cs, score c < score d ↔ key c < key d

/-- Then the first candidate with the largest count is chosen. -/
theorem Chosen.largest {key : Candidate → Nat} (h : Chosen score front c back)
    (ranks : RanksBy score key (front ++ c :: back)) :
    (∀ d ∈ front, key d < key c) ∧ ∀ d ∈ back, key d ≤ key c := by
  have hc : c ∈ front ++ c :: back := List.mem_append_right front List.mem_cons_self
  cases h with
  | best _ hlargest hfront =>
    constructor
    · intro d hd
      have hmem : d ∈ front ++ c :: back := List.mem_append_left _ hd
      exact (ranks.lt_iff d hmem c hc).mp (hfront d hd (ranks.above d hmem))
    · intro d hd
      have hmem : d ∈ front ++ c :: back := List.mem_append_right front (List.mem_cons_of_mem c hd)
      exact Nat.le_of_not_lt fun hlt => hlargest d hmem ((ranks.lt_iff c hc d hmem).mpr hlt)
  | first _ hnone => exact absurd (ranks.above c hc) (hnone c List.mem_cons_self)

/-- One step of a run: a candidate is chosen, and the run goes on with the others. -/
theorem greedyFrom_step (score : List Region → Candidate → Float) (seen : List Region)
    (hlength : cs.length = n + 1) :
    ∃ front c back, cs = front ++ c :: back ∧
      greedyFrom score seen (n + 1) cs =
        c :: greedyFrom score (c.regions ++ seen) n (front ++ back) ∧
      Chosen (score seen) front c back ∧ (front ++ back).length = n := by
  obtain ⟨front, c, back, rfl, htake, hchosen⟩ :=
    takeBest_chosen (score seen) (List.ne_nil_of_length_eq_add_one hlength)
  refine ⟨front, c, back, rfl, ?_, hchosen, ?_⟩
  · rw [greedyFrom, htake]
  · rw [List.length_append, List.length_cons] at hlength
    rw [List.length_append]
    omega

end CoverageReplay
