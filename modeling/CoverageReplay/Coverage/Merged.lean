import CoverageReplay.Coverage.Profile
import CoverageReplay.Coverage.RangeSet
import CoverageReplay.SortedMap
import CoverageReplay.Total

/-!
# Merged coverage

The union of the profiles of the tests replayed so far. Per file it knows which positions some block
reported (*instrumented*) and which lie in a block that ran (*covered*). A position is *dead* when
it is instrumented and not covered. Merging only ever adds positions.

Beside the positions it keeps, for each region that ran, the largest number of statements reported
for it, so that `coveredStatements` counts a region once.
-/

namespace CoverageReplay

/-- The coverage of one file. -/
structure FileCoverage where
  instrumented : RangeSet
  covered : RangeSet
  deriving DecidableEq, Repr, Inhabited

namespace FileCoverage

/-- The file of which nothing is known. -/
def empty : FileCoverage := ⟨.empty, .empty⟩

/-- Whether a position is instrumented and was never executed. -/
def isDead (f : FileCoverage) (p : Position) : Bool :=
  f.instrumented.contains p && !f.covered.contains p

/-- Adds one block of the file. -/
def addBlock (f : FileCoverage) (b : Block) : FileCoverage where
  instrumented := f.instrumented.insert b.range
  covered := if b.isCovered then f.covered.insert b.range else f.covered

/-- Whether every position known of `other` is known in the same way. -/
def includes (f other : FileCoverage) : Bool :=
  f.instrumented.isSuperset other.instrumented && f.covered.isSuperset other.covered

end FileCoverage

/-- The union of the profiles of several tests. -/
structure MergedCoverage where
  files : SortedMap String FileCoverage
  /-- The number of statements of each region that ran. -/
  statements : SortedMap Region UInt32
  deriving DecidableEq, Repr, Inhabited

namespace MergedCoverage

/-- The union of no profiles. -/
def empty : MergedCoverage := ⟨.empty, .empty⟩

/-- Adds one block. -/
def addBlock (m : MergedCoverage) (b : Block) : MergedCoverage where
  files := m.files.alter b.file fun f => (f.getD .empty).addBlock b
  statements :=
    if b.isCovered then m.statements.alter b.region fun n => max (n.getD 0) b.statements
    else m.statements

/-- Adds the blocks of a profile. -/
def merge (m : MergedCoverage) (p : Profile) : MergedCoverage :=
  p.blocks.foldl addBlock m

/-- The union of some profiles. -/
def ofProfiles (profiles : List Profile) : MergedCoverage :=
  profiles.foldl merge empty

/-- The coverage of a file that some block belongs to. -/
def file? (m : MergedCoverage) (path : String) : Option FileCoverage :=
  m.files.get? path

/-- Whether a position of a file is dead. -/
def isDead (m : MergedCoverage) (path : String) (p : Position) : Bool :=
  (m.file? path).any (·.isDead p)

/-- The number of distinct statements that ran. -/
def coveredStatements (m : MergedCoverage) : Nat :=
  total (m.statements.values.map (·.toNat))

/-- Whether all that `other` knows is known here. -/
def contains (m other : MergedCoverage) : Bool :=
  other.files.entries.all fun (path, theirs) => (m.file? path).any (·.includes theirs)

end MergedCoverage

end CoverageReplay
