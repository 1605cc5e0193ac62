import CoverageReplay.Files.Fault
import CoverageReplay.Files.Path
import CoverageReplay.SortedMap

/-!
# Trees of files

A `FileTree` holds files and directories by location, the list of names from the root down. The root
is a directory without an entry. There are no links, so each file has one location.

Paths are resolved part by part as the tree stands: every part but the last must be a directory, and
the part above the root is the root.
-/

namespace CoverageReplay

/-- The names from the root down to a file or directory. -/
abbrev Location := List String

/-- What a location holds. -/
inductive FileEntry where
  | file (contents : ByteArray)
  | directory
  deriving Inhabited

/-- Files are equal when their bytes are. -/
instance : DecidableEq FileEntry
  | .file a, .file b =>
    if h : a.data = b.data then .isTrue (congrArg FileEntry.file (ByteArray.ext h))
    else .isFalse fun e => h (congrArg ByteArray.data (FileEntry.file.inj e))
  | .directory, .directory => .isTrue rfl
  | .file _, .directory => .isFalse nofun
  | .directory, .file _ => .isFalse nofun

/-- Files and directories, and the directory that relative paths count from. -/
structure FileTree where
  entries : SortedMap Location FileEntry
  here : Location
  deriving DecidableEq, Inhabited

namespace FileTree

/-- The tree without files, seen from its root. -/
def empty : FileTree := ⟨.empty, []⟩

/-- What a location holds. -/
def find? (t : FileTree) (l : Location) : Option FileEntry :=
  if l.isEmpty then some .directory else t.entries.get? l

/-- Whether a location holds a directory. -/
def isDirectoryAt (t : FileTree) (l : Location) : Bool :=
  t.find? l = some .directory

/-- Puts a file or directory in a location. -/
def set (t : FileTree) (l : Location) (e : FileEntry) : FileTree :=
  { t with entries := t.entries.insert l e }

/-- Drops a location and everything below it. -/
def drop (t : FileTree) (l : Location) : FileTree :=
  { t with entries := ⟨t.entries.entries.filter fun e => !l.isPrefixOf e.1⟩ }

/-! ## Resolving paths -/

/-- The most bytes that a name may have. -/
def longestName : Nat := 255

/-- The location that a name leads to from a directory. -/
def step (l : Location) (name : String) : Except FileFault Location :=
  if name = ".." then .ok l.dropLast
  else if longestName < name.utf8ByteSize then .error .nameTooLong
  else .ok (l ++ [name])

/-- The location that some names lead to. -/
def walk (t : FileTree) (l : Location) : List String → Except FileFault Location
  | [] => .ok l
  | name :: rest =>
    if t.isDirectoryAt l then do
      let next ← step l name
      match t.find? next with
      | some _ => walk t next rest
      | none => .error .notFound
    else .error .notDirectory

/-- Where a path counts from. -/
def base (t : FileTree) (path : String) : Location :=
  if Path.isAbsolute path then [] else t.here

/-- Refuses texts that are no paths. -/
def checkPath (path : String) : Except FileFault Unit :=
  if path.toList.contains '\x00' then .error .nulInPath
  else if path = "" then .error .notFound
  else .ok ()

/-- The location of a path that must hold something. -/
def locate (t : FileTree) (path : String) : Except FileFault Location := do
  checkPath path
  let l ← t.walk (t.base path) (Path.parts path)
  if Path.namesDirectory path && !t.isDirectoryAt l then .error .notDirectory
  else .ok l

/-- The location of a path whose last part need not hold anything yet. -/
def place (t : FileTree) (path : String) : Except FileFault Location := do
  checkPath path
  let names := Path.parts path
  let l ← t.walk (t.base path) names.dropLast
  match names.getLast? with
  | none => .ok l
  | some name => if t.isDirectoryAt l then step l name else .error .notDirectory

/-! ## Looking -/

/-- Whether a path leads to a directory. -/
def isDirectory (t : FileTree) (path : String) : Bool :=
  match t.locate path with
  | .ok l => t.isDirectoryAt l
  | .error _ => false

/-- The contents of the file that a path leads to. -/
def read (t : FileTree) (path : String) : Except FileFault ByteArray := do
  match t.find? (← t.locate path) with
  | some (.file contents) => .ok contents
  | _ => .error .isDirectory

/-- The text of the file that a path leads to. -/
def readText (t : FileTree) (path : String) : Except FileFault String := do
  match String.fromUTF8? (← t.read path) with
  | some text => .ok text
  | none => .error .notText

end FileTree

end CoverageReplay
