import CoverageReplay.Files.Tree

/-!
# Changing a tree of files

An action on a tree of files gives a result, or the reason why it failed, and the tree after it.
What an action did before it failed stays done.
-/

namespace CoverageReplay

/-- What can be done to a tree of files, failing with an `ε`. -/
abbrev FileAction (ε α : Type) := ExceptT ε (StateM FileTree) α

namespace FileAction

variable {ε α : Type}

/-- Fails, or goes on with a value. -/
def ofExcept (e : Except ε α) : FileAction ε α := fun t => (e, t)

/-- Looks at the tree. -/
def look (f : FileTree → Except ε α) : FileAction ε α := fun t => (f t, t)

/-- An action with its failures read as others. -/
def mapError {ε' : Type} (f : ε → ε') (a : FileAction ε α) : FileAction ε' α := fun t =>
  match a t with
  | (.ok v, t) => (.ok v, t)
  | (.error e, t) => (.error (f e), t)

/-- Makes the directories that some names lead through, from a location on. -/
def makeDirectoriesFrom (l : Location) : List String → FileAction FileFault Unit
  | [] => pure ()
  | name :: rest => do
    let next ← ofExcept (FileTree.step l name)
    match (← get).find? next with
    | some .directory => makeDirectoriesFrom next rest
    | some (.file _) => throw (if rest.isEmpty then .alreadyExists else .notDirectory)
    | none =>
      modify fun t => t.set next .directory
      makeDirectoriesFrom next rest

/-- Makes the directories that the parts of a path lead through, as far as they are missing. -/
def makeDirectoriesAlong (path : String) (names : List String) : FileAction FileFault Unit := do
  if names.any fun name => name.toList.contains '\x00' then throw .nulInPath
  else makeDirectoriesFrom ((← get).base path) names

/-- Makes the directories above the last part of a path, as far as they are missing. -/
def makeParents (path : String) : FileAction FileFault Unit :=
  makeDirectoriesAlong path (Path.parts path).dropLast

/-- Makes the directory of a path and those above it, as far as they are missing. A path that ends
in a dot asks for what its last part holds, so that this has to be there already. -/
def makeDirectories (path : String) : FileAction FileFault Unit := do
  if Path.endsInDot path then
    match (← get).locate path with
    | .ok _ => pure ()
    | .error .notFound => do
      makeParents path
      let _ ← look fun t => t.locate path
    | .error fault => throw fault
  else makeDirectoriesAlong path (Path.parts path)

/-- Writes a file, which may be new. -/
def write (path : String) (contents : ByteArray) : FileAction FileFault Unit := do
  let l ← look fun t => t.place path
  match (← get).find? l with
  | some .directory => throw .isDirectory
  | some (.file _) =>
    if Path.namesDirectory path then throw .notDirectory
    else modify fun t => t.set l (.file contents)
  | none =>
    if Path.namesDirectory path then throw .isDirectory
    else modify fun t => t.set l (.file contents)

/-- Removes a directory with everything in it. -/
def removeDirectory (path : String) : FileAction FileFault Unit := do
  let l ← look fun t => t.locate path
  modify fun t => t.drop l

/-- Copies a file. The copy is emptied before the contents are read, so a file copied onto itself is
empty. -/
def copy (source target : String) : FileAction FileFault Unit := do
  let l ← look fun t => t.locate source
  match (← get).find? l with
  | some (.file _) =>
    write target .empty
    let contents ← look fun t => t.read source
    write target contents
  | _ => throw .notRegular

end FileAction

end CoverageReplay
