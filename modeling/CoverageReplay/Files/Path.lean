/-!
# Paths

A path is a text whose parts are separated by slashes. It is absolute when a slash stands in front.
Empty parts and single dots name nothing of their own; two dots name the directory above. Relative
paths count from the working directory.
-/

namespace CoverageReplay.Path

/-- The pieces between the slashes of a text, after the characters `piece` read so far (last
first). -/
def splitFrom (piece : List Char) : List Char → List (List Char)
  | [] => [piece.reverse]
  | c :: cs => if c = '/' then piece.reverse :: splitFrom [] cs else splitFrom (c :: piece) cs

/-- The pieces between the slashes of a path. -/
def pieces (path : String) : List String :=
  (splitFrom [] path.toList).map String.ofList

/-- Whether a piece names something. -/
def names (piece : String) : Bool := piece ≠ "" && piece ≠ "."

/-- The parts of a path that name something, in order. -/
def parts (path : String) : List String := (pieces path).filter names

/-- Whether a path counts from the root. -/
def isAbsolute (path : String) : Bool := path.toList.head? = some '/'

/-- Whether a path can only name a directory, because nothing names the last piece. -/
def namesDirectory (path : String) : Bool := (pieces path).getLast?.any fun piece => !names piece

/-- Whether the last piece of a path, but for slashes behind it, is a single dot. -/
def endsInDot (path : String) : Bool :=
  ((pieces path).reverse.find? fun piece => piece ≠ "") = some "."

/-- A path seen from a directory. An absolute path stays as it is. -/
def join (base path : String) : String :=
  if isAbsolute path then path
  else if base = "" || base.toList.getLast? = some '/' then base ++ path
  else base ++ "/" ++ path

/-- Names joined by slashes. -/
def ofParts (names : List String) : String := "/".intercalate names

end CoverageReplay.Path
