import CoverageReplay.SortedMap

/-!
# Snapshots

A snapshot holds the contents of source files at one stage of a replay. The result of a job has a
snapshot for each test, and the baseline, which holds the files as they were, last.
-/

namespace CoverageReplay

/-- The contents of files, by path. -/
abbrev Snapshot := SortedMap String ByteArray

/-- What a job produces. -/
structure JobResult where
  /-- The tests in the order of the replay. -/
  tests : List String
  /-- One snapshot for each test, then the baseline. -/
  snapshots : List Snapshot
  deriving Inhabited

end CoverageReplay
