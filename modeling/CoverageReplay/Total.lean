/-!
# Sums of counts

Statements, bytes and moves are counted piece by piece and added up.
-/

namespace CoverageReplay

/-- The sum of some counts. -/
def total : List Nat → Nat
  | [] => 0
  | n :: rest => n + total rest

end CoverageReplay
