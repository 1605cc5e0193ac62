import CoverageReplay.TestOrder.Candidate

/-!
# Greedy choice

A greedy order takes, again and again, the candidate with the best score, given the regions that the
candidates before it have run. Scores are compared strictly, so the earliest of several best ones is
taken, and one that is not a number is never better than another. When no score exceeds negative
infinity, the earliest candidate is taken.
-/

namespace CoverageReplay

/-- The place of the best score in a list that continues at place `here`, when `best` is the place
of the best score so far and `bar` that score. -/
def bestPlace (score : Candidate → Float) (best : Nat) (bar : Float) (here : Nat) :
    List Candidate → Nat
  | [] => best
  | c :: rest =>
    if score c > bar then bestPlace score here (score c) (here + 1) rest
    else bestPlace score best bar (here + 1) rest

/-- Negative infinity, which no score has to exceed to be one. -/
def leastScore : Float := -1.0 / 0.0

/-- The candidate that is taken, and the others. -/
def takeBest (score : Candidate → Float) (candidates : List Candidate) :
    Option (Candidate × List Candidate) :=
  let place := bestPlace score 0 leastScore 0 candidates
  (candidates[place]?).map fun picked => (picked, candidates.eraseIdx place)

/-- The first `rounds` candidates of the greedy order, after candidates that have run the regions
`seen`. The score is given the regions seen so far. -/
def greedyFrom (score : List Region → Candidate → Float) (seen : List Region) :
    (rounds : Nat) → List Candidate → List Candidate
  | 0, _ => []
  | rounds + 1, candidates =>
    match takeBest (score seen) candidates with
    | none => []
    | some (picked, others) =>
      picked :: greedyFrom score (picked.regions ++ seen) rounds others

/-- The greedy order of some candidates. -/
def greedy (score : List Region → Candidate → Float) (candidates : List Candidate) :
    List Candidate :=
  greedyFrom score [] candidates.length candidates

end CoverageReplay
