import CoverageReplay.Error
import CoverageReplay.Tree.Lowering

/-!
# From trees back to source text

`SourceTree.splice?` copies the source around the holes, in whatever order and overlap the holes
come. It fails when a hole does not lie on characters of the source. `SourceTree.render?` can also
check that the text of a tree that lost something is still Rust.
-/

namespace CoverageReplay

namespace Hole

/-- Holes in the order of their starts, then of their ends. -/
def before (a b : Hole) : Bool :=
  a.start < b.start || (a.start = b.start && a.stop ≤ b.stop)

end Hole

/-- Whether a byte of a text begins a character or ends the text. -/
def isBoundary : List Char → Nat → Bool
  | _, 0 => true
  | [], _ => false
  | c :: cs, n => c.utf8Size ≤ n && isBoundary cs (n - c.utf8Size)

/-- Whether a hole lies on characters of a text. -/
def Hole.fits (cs : List Char) (h : Hole) : Bool :=
  h.start ≤ h.stop && isBoundary cs h.start && isBoundary cs h.stop

/-- The first characters of a text, up to a number of bytes, and the rest. -/
def splitBytes : List Char → Nat → List Char × List Char
  | [], _ => ([], [])
  | c :: cs, n =>
    if n = 0 then ([], c :: cs)
    else
      let (front, rest) := splitBytes cs (n - c.utf8Size)
      (c :: front, rest)

/-- Copies a text that begins at byte `cursor` around holes in order of their starts. -/
def copyAround (cursor : Nat) (cs : List Char) : List Hole → List Char
  | [] => cs
  | h :: rest =>
    let (kept, after) := splitBytes cs (h.start - cursor)
    let cursor := max cursor h.start
    kept ++ copyAround (max cursor h.stop) (splitBytes after (h.stop - cursor)).2 rest

namespace SourceTree

/-- The source without the holes. -/
def splice? (t : SourceTree) : Except ReplayError String :=
  let cs := t.source.toList
  let holes := t.holes.mergeSort Hole.before
  match holes.find? fun h => !h.fits cs with
  | some h =>
    .error (.render t.path
      ("removed range " ++ toString h.start ++ ".." ++ toString h.stop ++
        " is outside the source"))
  | none => .ok (String.ofList (copyAround 0 cs holes))

/-- The source without the holes; with `verify`, only if it is still Rust. -/
def render? (verify : Bool) (t : SourceTree) : Except ReplayError String :=
  match t.splice? with
  | .error e => .error e
  | .ok text =>
    if verify && !t.isPristine then
      match Rust.bodies? text with
      | .ok _ => .ok text
      | .error place =>
        .error (.render t.path ("pruned output does not parse: " ++ syntaxFault place))
    else .ok text

end SourceTree

end CoverageReplay
