import CoverageReplay.Command.Execution

/-!
# The files that a command looks at

The paths that matter to an invocation, as far as the known files tell: a manifest has to be known
before the files of its snapshots, and profiles before the sources that they name.
-/

namespace CoverageReplay

/-- The paths of the profiles of tests. -/
def profilePaths (dir package : String) (tests : List String) : List String :=
  tests.map (profilePath dir package)

/-- The files that the known profiles name. -/
def sourceNames (files : FileTree) (profiles : List String) : List String :=
  profiles.flatMap fun path =>
    match (files.readText path).mapError ReplayError.io >>= Profile.parse? with
    | .ok p => p.files
    | .error _ => []

/-- The paths of the snapshots in an output directory. -/
def snapshotPaths (files : FileTree) (out : String) : List String :=
  match Manifest.load out files with
  | .error _ => []
  | .ok m => m.snapshots.flatMap fun e =>
    let dir := Path.join out e.dir
    dir :: e.files.filterMap fun file => (placeFile file).toOption.map fun p =>
      Path.join dir p.relative

/-- The paths that a command looks at. -/
def Command.reach (files : FileTree) : Command → List String
  | .order a => profilePaths a.profiles a.package a.tests
  | .run a =>
    let profiles := profilePaths a.profiles a.package a.tests
    profiles ++ (sourceNames files profiles).map (Path.join a.root) ++
      Manifest.path a.out :: snapshotPaths files a.out
  | .checkout a => Manifest.path a.out :: snapshotPaths files a.out

/-- The paths that an invocation looks at. -/
def Invocation.reach (files : FileTree) (i : Invocation) : List String :=
  i.config.toList ++ i.command.reach files

/-- The directories that a run replaces: those of the snapshots in its output directory. -/
def Invocation.replaced (files : FileTree) (i : Invocation) : List String :=
  match i.command with
  | .run a =>
    match Manifest.load a.out files with
    | .error _ => []
    | .ok m =>
      (m.snapshots.filter fun e => DirectoryName.isValid e.dir).map fun e => Path.join a.out e.dir
  | _ => []

end CoverageReplay
