import CoverageReplay.Files.Tree
import CoverageReplay.Text.Utf8
import CoverageReplay.Tree.Splice

/-!
# Where source files come from

A job needs three things of source files: their trees, the text of pruned trees, and their contents.
The files are held in memory (`memorySources`) or lie below a root directory (`directorySources`).
-/

namespace CoverageReplay

/-- What a job can do with source files. -/
structure SourceSet where
  parse : (path : String) → Except ReplayError SourceTree
  render : SourceTree → Except ReplayError ByteArray
  read : (path : String) → Except ReplayError ByteArray

/-- The bytes of a pruned tree's text. -/
def renderBytes (verify : Bool) (t : SourceTree) : Except ReplayError ByteArray :=
  (t.render? verify).map String.toUTF8

/-- Files in memory. -/
def memorySources (files : SortedMap String String) (verify : Bool) : SourceSet where
  parse path :=
    match files.get? path with
    | some text => SourceTree.parse? path text
    | none => .error (.parse path "no such file")
  render := renderBytes verify
  read path :=
    match files.get? path with
    | some text => .ok text.toUTF8
    | none => .error (.read path "no such file")

/-- The tree of a file from its bytes. -/
def parseBytes (path : String) (bytes : ByteArray) : Except ReplayError SourceTree :=
  match String.fromUTF8? bytes with
  | some text => SourceTree.parse? path text
  | none =>
    .error (.parse path ((Text.utf8Fault? bytes).map Text.Utf8Fault.message |>.getD "not text"))

/-- Files below a root directory. Absolute paths name files elsewhere. -/
def directorySources (files : FileTree) (root : String) (verify : Bool) : SourceSet where
  parse path :=
    match files.read (Path.join root path) with
    | .ok bytes => parseBytes path bytes
    | .error fault => .error (.parse path fault.message)
  render := renderBytes verify
  read path := (files.read (Path.join root path)).mapError fun fault => .read path fault.message

end CoverageReplay
