import ToolWrappers.Path

/-! A tree of directories and files below one root directory, and the user who works on it. A place
is the list of names that lead there from the root; a path is a text that may name the same place in
many ways, some of them only from the working directory. Every file has one place: there are neither
symbolic nor hard links. Directories are open to everyone. -/

namespace ToolWrappers

/-- The names that lead from the root to a place. -/
abbrev Place := List String

-- Libraries declare an instance of their own; this one comes first.
instance decidableEqBytes : DecidableEq ByteArray := ByteArray.instDecidableEq

inductive Node
  | directory
  | file (mode : Nat) (bytes : ByteArray)
deriving DecidableEq

/-- Who works on a tree: from where, and whether the modes of files are no bar. Files belong to whoever
works on them. -/
class User where
  directory : Place := []
  superuser : Bool := true

/-- The owner's bits of a mode decide. -/
def mayRead [User] (mode : Nat) : Bool := User.superuser || mode.testBit 8

def mayWrite [User] (mode : Nat) : Bool := User.superuser || mode.testBit 7

/-- Even a superuser runs only what somebody may run. -/
def mayRun [User] (mode : Nat) : Bool :=
  if User.superuser then mode &&& 0o111 ≠ 0 else mode.testBit 6

/-- Where the names of a path set out: an absolute path at the root, any other one in the working
directory. -/
def Path.outset [User] (path : String) : Place :=
  if isAbsolute path then [] else User.directory

/-- Every entry is a place and what is there; the root itself has no entry. -/
structure FileTree where
  entries : List (Place × Node) := []

/-- Why nothing was found or made at a path: a name on the way is not there, or something that is
there stands in the way. -/
inductive Fault
  | missing
  | blocked
deriving DecidableEq, Repr

namespace FileTree

/-- What is at a place. The root is a directory. -/
def get? (t : FileTree) (place : Place) : Option Node :=
  if place = [] then some .directory else t.entries.lookup place

/-- The tree with this node at a place and every other place as it was. -/
def put (t : FileTree) (place : Place) (node : Node) : FileTree :=
  ⟨(place, node) :: t.entries.filter (·.1 ≠ place)⟩

/-- The tree without the places strictly below this one. -/
def eraseBelow (t : FileTree) (place : Place) : FileTree :=
  ⟨t.entries.filter fun e => !(place.isPrefixOf e.1 && e.1 ≠ place)⟩

/-- The tree without this place and everything below it. -/
def erase (t : FileTree) (place : Place) : FileTree :=
  ⟨t.entries.filter fun e => !place.isPrefixOf e.1⟩

/-- Dropping entries by their places drops those places and no others. -/
theorem lookup_filter (keep : Place → Bool) (place : Place) (entries : List (Place × Node)) :
    (entries.filter fun e => keep e.1).lookup place =
      if keep place = true then entries.lookup place else none := by
  induction entries with
  | nil => simp
  | cons e rest ih =>
    obtain ⟨p, node⟩ := e
    by_cases same : place = p
    · subst same
      cases kept : keep place with
      | true => simp [kept]
      | false => simpa [kept] using ih
    · have other : (place == p) = false := by simpa using same
      cases kept : keep p with
      | true => simp [kept, List.lookup_cons, other, ih]
      | false => simp [kept, List.lookup_cons, other, ih]

theorem get?_put (t : FileTree) (place other : Place) (node : Node) :
    (t.put place node).get? other =
      if other = [] then some .directory
      else if other = place then some node else t.get? other := by
  have kept := lookup_filter (fun p => decide (p ≠ place)) other t.entries
  by_cases root : other = []
  · simp [get?, root]
  · by_cases same : other = place
    · simp [get?, put, same]
    · have different : (other == place) = false := by simpa using same
      simp only [decide_eq_true_eq] at kept
      simp only [get?, put, root, same, List.lookup_cons, different, kept, if_false]
      simp [same]

theorem get?_eraseBelow (t : FileTree) (place other : Place) :
    (t.eraseBelow place).get? other =
      if other ≠ [] ∧ place.isPrefixOf other = true ∧ other ≠ place then none
      else t.get? other := by
  have kept := lookup_filter (fun p => !(place.isPrefixOf p && p ≠ place)) other t.entries
  by_cases root : other = []
  · simp [get?, root]
  · simp only [get?, eraseBelow, root, if_false, kept]
    by_cases inside : place.isPrefixOf other = true <;> by_cases same : other = place <;>
      simp [inside, same, root]

theorem get?_erase (t : FileTree) (place other : Place) :
    (t.erase place).get? other =
      if other ≠ [] ∧ place.isPrefixOf other = true then none else t.get? other := by
  have kept := lookup_filter (fun p => !place.isPrefixOf p) other t.entries
  by_cases root : other = []
  · simp [get?, root]
  · simp only [get?, erase, root, if_false, kept]
    by_cases inside : place.isPrefixOf other = true <;> simp [inside, root]

/-- The bytes of the file at a place; none without a file. -/
def bytesAt (t : FileTree) (place : Place) : ByteArray :=
  match t.get? place with
  | some (.file _ bytes) => bytes
  | _ => .empty

def isDirectoryAt (t : FileTree) (place : Place) : Bool := t.get? place = some .directory

/-- Names of one place hold at most 255 bytes. -/
def fitsName (name : String) : Bool := name.utf8ByteSize ≤ 255

/-- A path is empty, or too long, or holds a null character: it names no place whatever the tree holds. -/
def pathFault? (path : String) : Option Fault :=
  if path = "" then some .missing
  else if path.utf8ByteSize > 4095 || path.toList.contains (Char.ofNat 0) then some .blocked
  else none

/-- Follows names from a place. Only directories lead on; two dots lead back, and at the root nowhere. -/
def walk (t : FileTree) : Place → List String → Except Fault Place
  | here, [] => .ok here
  | here, name :: rest =>
    if !t.isDirectoryAt here then .error .blocked
    else if name = "" || name = "." then walk t here rest
    else if name = ".." then walk t here.dropLast rest
    else if !fitsName name then .error .blocked
    else match t.get? (here ++ [name]) with
      | none => .error .missing
      | some _ => walk t (here ++ [name]) rest

/-- A way is followed in parts as it is followed as a whole. -/
theorem walk_append (t : FileTree) (here : Place) (first second : List String) :
    t.walk here (first ++ second) = t.walk here first >>= fun there => t.walk there second := by
  induction first generalizing here with
  | nil => rfl
  | cons name rest ih =>
    simp only [List.cons_append, walk]
    split
    · rfl
    · split
      · exact ih here
      · split
        · exact ih _
        · split
          · rfl
          · split
            · rfl
            · exact ih _

section

variable [User]

/-- The place of a path at which something is. -/
def find (t : FileTree) (path : String) : Except Fault Place :=
  match pathFault? path with
  | some fault => .error fault
  | none => walk t (Path.outset path) (Path.names path)

/-- What is at a path. -/
def node? (t : FileTree) (path : String) : Option Node :=
  match t.find path with
  | .ok place => t.get? place
  | .error _ => none

def has (t : FileTree) (path : String) : Bool := (t.node? path).isSome

def isDirectory (t : FileTree) (path : String) : Bool := t.node? path = some .directory

def isFile (t : FileTree) (path : String) : Bool :=
  match t.node? path with
  | some (.file ..) => true
  | _ => false

/-- The bytes of the file at a path. -/
def read? (t : FileTree) (path : String) : Option ByteArray :=
  match t.node? path with
  | some (.file _ bytes) => some bytes
  | _ => none

/-- The place that a path names inside an existing directory, whether or not something is there.
Names that mean a directory itself name no new place. -/
def spot (t : FileTree) (path : String) (namesReversed : List String) : Except Fault Place :=
  match pathFault? path with
  | some fault => .error fault
  | none =>
    match namesReversed with
    | [] => .error .blocked
    | name :: above => do
      let place ← walk t (Path.outset path) above.reverse
      if !t.isDirectoryAt place || name = "" || name = "." || name = ".." || !fitsName name then
        throw .blocked
      return place ++ [name]

/-- The place that a file at this path takes. A slash at the end names no file. -/
def fileSpot (t : FileTree) (path : String) : Except Fault Place := do
  let place ← t.spot path (Path.names path).reverse
  if t.isDirectoryAt place then throw .blocked
  return place

/-- The place where a file is written. A file that is there has to allow it. -/
def writeSpot (t : FileTree) (path : String) : Except Fault Place := do
  let place ← t.fileSpot path
  match t.get? place with
  | some (.file mode _) => if mayWrite mode then return place else throw .blocked
  | _ => return place

/-- The place that a new directory at this path takes. Slashes at the end do no harm. -/
def directorySpot (t : FileTree) (path : String) : Except Fault Place := do
  let place ← t.spot path ((Path.names path).reverse.dropWhile (· = ""))
  if (t.get? place).isSome then throw .blocked
  return place

end

/-- The names directly inside a place, with what is there. -/
def children (t : FileTree) (place : Place) : List (String × Node) :=
  t.entries.filterMap fun (p, node) =>
    match p.getLast? with
    | some name => if p.dropLast = place then some (name, node) else none
    | none => none

end FileTree

end ToolWrappers
