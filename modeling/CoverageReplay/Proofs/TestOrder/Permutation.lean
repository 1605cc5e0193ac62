import CoverageReplay.Proofs.TestOrder.Choice
import CoverageReplay.TestOrder.Rank
import Mathlib.Data.List.Perm.Basic

/-!
# Orders are rearrangements

Whatever the strategy and the weights, ordering tests leaves none out and repeats none
(`apply_perm`). A greedy order is one because each of its steps takes a candidate from those that
are left; which one it takes does not matter for that, and so the scores do not, numbers or not.
-/

namespace CoverageReplay

/-- Greedy picks take each candidate once. -/
theorem greedyFrom_perm (score : List Region → Candidate → Float) (seen : List Region)
    {rounds : Nat} {candidates : List Candidate} (enough : candidates.length = rounds) :
    (greedyFrom score seen rounds candidates).Perm candidates := by
  induction rounds generalizing seen candidates with
  | zero =>
    rw [List.length_eq_zero_iff.mp enough]
    exact List.Perm.nil
  | succ rounds ih =>
    obtain ⟨front, picked, back, rfl, hrun, _, hlength⟩ := greedyFrom_step score seen enough
    rw [hrun]
    exact ((ih (picked.regions ++ seen) hlength).cons picked).trans List.perm_middle.symm

/-- There is one candidate for each test. -/
theorem TestProfiles.map_name_candidates (tests : TestProfiles) :
    tests.candidates.map Candidate.name = tests.names := by
  rw [candidates, names, List.map_map]
  rfl

namespace TestOrder

/-- Whatever the strategy, arranging permutes the candidates. -/
theorem arrange_perm (order : TestOrder) (candidates : List Candidate) :
    (order.arrange candidates).Perm candidates := by
  unfold arrange
  split
  next => exact List.Perm.refl _
  next => exact List.mergeSort_perm _ _
  next => exact greedyFrom_perm _ _ rfl
  next => exact greedyFrom_perm _ _ rfl

/-- An order of tests is a rearrangement of them. -/
theorem apply_perm (order : TestOrder) (tests : TestProfiles) :
    (order.apply tests).Perm tests.names := by
  rw [← tests.map_name_candidates]
  exact (order.arrange_perm tests.candidates).map Candidate.name

end TestOrder

end CoverageReplay
