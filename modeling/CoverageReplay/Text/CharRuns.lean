/-!
# Classes of characters as runs of code points

A class is a list of bounds `lo₁, hi₁, lo₂, hi₂, …` in increasing order; it holds the code points of
the half-open runs `[loᵢ, hiᵢ)`.
-/

namespace CoverageReplay.Text

/-- Whether a code point lies in one of the runs with the given bounds. -/
def inRuns : List Nat → Nat → Bool
  | lo :: hi :: rest, n =>
    if n < lo then false else if n < hi then true else inRuns rest n
  | _, _ => false

end CoverageReplay.Text
