import ToolWrappers.Text.Lines

/-! Paths as text. Nothing is normalised when paths are joined; only taking a path apart passes over
empty pieces and pieces that mean the same directory. -/

namespace ToolWrappers.Path

def isAbsolute (path : String) : Bool := path.toList.head? = some '/'

/-- The path `name` as seen from `base`. An absolute name stands for itself, and an empty name
leaves a slash at the end. -/
def join (base name : String) : String :=
  if isAbsolute name || base = "" then name
  else if base.toList.getLast? = some '/' then base ++ name
  else base ++ "/" ++ name

/-- The names between the slashes; a leading slash gives an empty first name. -/
def names (path : String) : List String :=
  (Text.pieces '/' path.toList).map String.ofList

/-- Removes from the end, for names listed last name first, what names no new place. A leading
single dot stays: it is all that a path may consist of. -/
def dropIdle : List String → List String
  | name :: second :: rest =>
    if name = "" || name = "." then dropIdle (second :: rest) else name :: second :: rest
  | names => names

/-- The names of a relative path, last name first, without idle names at the end. -/
def reversedNames (path : String) : List String := dropIdle (names path).reverse

/-- The path that names, last name first, stand for. -/
def ofReversed (names : List String) : String := "/".intercalate names.reverse

/-- The last name of a path, unless the path is empty or ends in a directory that has no name of
its own. -/
def fileName? (path : String) : Option String :=
  match reversedNames path with
  | [] => none
  | name :: _ => if name = "" || name = "." || name = ".." then none else some name

/-- The path without its last name. The empty path and the root have none. -/
def parent? (path : String) : Option String :=
  match reversedNames path with
  | [] => none
  | [name] => if name = "" then none else some ""
  | _ :: rest =>
    match dropIdle rest with
    | [""] => some "/"
    | rest => some (ofReversed rest)

/-- The path with another last name. A path without a last name gets one. -/
def withFileName (path name : String) : String :=
  match fileName? path with
  | some _ => join ((parent? path).getD "") name
  | none => join path name

/-- The path, then its parents, nearest first. `fuel` bounds their number; the length of the path
is enough. -/
def lineageFrom : Nat → String → List String
  | 0, path => [path]
  | fuel + 1, path =>
    match parent? path with
    | none => [path]
    | some parent => path :: lineageFrom fuel parent

def lineage (path : String) : List String := lineageFrom path.length path

/-- The parts of a path by which paths are put in order. The root and dots come before names; idle names
do not count, but for a single dot at the start. -/
def orderKey (path : String) : List String :=
  let start := if isAbsolute path then ["0"] else if (names path).head? = some "." then ["1"] else []
  start ++ ((names path).filter fun name => name ≠ "" && name ≠ ".").map fun name =>
    if name = ".." then "2" else "3" ++ name

end ToolWrappers.Path
