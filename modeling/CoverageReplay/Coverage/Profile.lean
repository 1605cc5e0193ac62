import CoverageReplay.Coverage.Position
import CoverageReplay.Total

/-!
# Coverage profiles

A profile lists, for one test, the instrumented blocks of the sources and how often each was
executed. `Profile.ofBlocks` brings a list of blocks into normal form: blocks in order of file and
range, one for each region. Reports of the same region are combined by the recording mode.
-/

namespace CoverageReplay

/-- How execution counts were recorded. -/
inductive Mode where
  /-- Counts say only whether a block ran. -/
  | set
  /-- Counts are totals. -/
  | count
  /-- Counts are totals, recorded atomically. -/
  | atomic
  deriving DecidableEq, Repr, Inhabited

namespace Mode

/-- The written name. -/
def name : Mode → String
  | set => "set"
  | count => "count"
  | atomic => "atomic"

/-- The mode of a written name. -/
def ofName? : String → Option Mode
  | "set" => some set
  | "count" => some count
  | "atomic" => some atomic
  | _ => none

/-- The sum of two counts, capped at the largest count. -/
def cappedSum (a b : UInt32) : UInt32 :=
  UInt32.ofNat (min (a.toNat + b.toNat) 4294967295)

/-- The count of a region that was reported twice. -/
def combine : Mode → UInt32 → UInt32 → UInt32
  | set, a, b => if a > b then a else b
  | count, a, b => cappedSum a b
  | atomic, a, b => cappedSum a b

end Mode

/-- What identifies a block in every profile: a range of a file. -/
structure Region where
  file : String
  range : SourceRange
  deriving DecidableEq, Repr, Inhabited

namespace Region

/-- Regions are ordered by file name, then by range. -/
instance : LT Region where
  lt a b := a.file < b.file ∨ a.file = b.file ∧ a.range < b.range

instance (a b : Region) : Decidable (a < b) :=
  inferInstanceAs (Decidable (a.file < b.file ∨ a.file = b.file ∧ a.range < b.range))

end Region

/-- One instrumented region of a file with its counts. -/
structure Block where
  file : String
  range : SourceRange
  /-- The number of statements inside. -/
  statements : UInt32
  /-- How often the block ran. -/
  executed : UInt32
  deriving DecidableEq, Repr, Inhabited

namespace Block

/-- The region that the block reports. -/
def region (b : Block) : Region := ⟨b.file, b.range⟩

/-- Whether the block ran. -/
def isCovered (b : Block) : Bool := decide (0 < b.executed)

/-- One block for two reports of a region: counts combined, the larger number of statements. -/
def combine (mode : Mode) (first second : Block) : Block :=
  { first with
    executed := mode.combine first.executed second.executed
    statements := max first.statements second.statements }

end Block

/-- The blocks recorded for one test. -/
structure Profile where
  mode : Mode
  blocks : List Block
  deriving DecidableEq, Repr, Inhabited

namespace Profile

/-- The profile without blocks. -/
def empty : Profile := ⟨.set, []⟩

/-- Adds a block to blocks in order of their regions. -/
def addBlock (mode : Mode) (b : Block) : List Block → List Block
  | [] => [b]
  | c :: rest =>
    if c.region = b.region then c.combine mode b :: rest
    else if b.region < c.region then b :: c :: rest
    else c :: addBlock mode b rest

/-- The profile of some blocks, in any order and with repeated regions. -/
def ofBlocks (mode : Mode) (blocks : List Block) : Profile :=
  ⟨mode, blocks.foldl (fun kept b => addBlock mode b kept) []⟩

/-- The blocks that ran. -/
def coveredBlocks (p : Profile) : List Block :=
  p.blocks.filter Block.isCovered

/-- The number of statements in blocks that ran. -/
def coveredStatements (p : Profile) : Nat :=
  total (p.coveredBlocks.map (·.statements.toNat))

/-- The files of the blocks, each once, in order. -/
def files (p : Profile) : List String :=
  p.blocks.foldl (fun kept b => add b.file kept) []
where
  /-- Adds a name to names in order. -/
  add (name : String) : List String → List String
    | [] => [name]
    | other :: rest =>
      if other = name then other :: rest
      else if name < other then name :: other :: rest
      else other :: add name rest

end Profile

end CoverageReplay
