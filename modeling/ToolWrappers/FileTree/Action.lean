import ToolWrappers.FileTree.Basic

/-! Changing a file tree. An action may fail, and what it did before failing stays done. -/

namespace ToolWrappers

/-- A computation on a file tree. The tree at the end is there whether or not it failed. -/
abbrev Action (ε α : Type) := ExceptT ε (StateM FileTree) α

namespace Action

def run {ε α : Type} (act : Action ε α) (t : FileTree) : Except ε α × FileTree :=
  (ExceptT.run act).run t

section

variable {ε α β : Type}

theorem run_pure (a : α) (t : FileTree) : (pure a : Action ε α).run t = (.ok a, t) := rfl

theorem run_get (t : FileTree) : (get : Action ε FileTree).run t = (.ok t, t) := rfl

theorem run_bind (act : Action ε α) (f : α → Action ε β) (t : FileTree) :
    (act >>= f).run t =
      match act.run t with
      | (.ok a, t) => (f a).run t
      | (.error e, t) => (.error e, t) := by
  change (ExceptT.bindCont f (act.run t).1) (act.run t).2 = _
  rcases act.run t with ⟨_ | _, _⟩ <;> rfl

theorem run_bind_of_ok {act : Action ε α} {t next : FileTree} {a : α}
    (first : act.run t = (.ok a, next)) (f : α → Action ε β) :
    (act >>= f).run t = (f a).run next := by
  rw [run_bind, first]

end

/-- The same action with another name for every failure. -/
def orFail {ε ε' α : Type} (act : Action ε α) (failure : ε') : Action ε' α :=
  ExceptT.adapt (fun _ => failure) act

/-- Does one action after the other, up to the first that fails. -/
def inOrder {ε : Type} : List (Action ε Unit) → Action ε Unit
  | [] => pure ()
  | act :: rest => do
    act
    inOrder rest

/-- Changes the tree in one step that fails as a whole. -/
def step {ε : Type} (f : FileTree → Except ε FileTree) : Action ε Unit := do
  match f (← get) with
  | .ok t => set t
  | .error e => throw e

/-- New files get this mode: everyone may read them, and only their owner may write them. -/
def newFileMode : Nat := 0o644

/-- The bits of a mode that a file keeps. -/
def permissionBits (mode : Nat) : Nat := mode % 0o10000

section

variable [User]

/-- The bytes of the file at a path. The file has to allow reading. -/
def readFile (path : String) : Action Fault ByteArray := do
  match (← get).node? path with
  | some (.file mode bytes) => if mayRead mode then return bytes else throw .blocked
  | some .directory => throw .blocked
  | none => throw .missing

/-- The mode of a file that is written where this was before: the mode of the file that is there, or
the mode of new files. -/
def writtenMode : Option Node → Nat
  | some (.file mode _) => mode
  | _ => newFileMode

/-- Makes a file with these bytes. A file that is there keeps its mode. -/
def writeFile (path : String) (bytes : ByteArray) : Action Fault Unit :=
  step fun t => do
    let place ← t.writeSpot path
    return t.put place (.file (writtenMode (t.get? place)) bytes)

def setMode (path : String) (mode : Nat) : Action Fault Unit :=
  step fun t => do
    let place ← t.find path
    match t.get? place with
    | some (.file _ bytes) => return t.put place (.file (permissionBits mode) bytes)
    | _ => return t

def makeDir (path : String) : Action Fault Unit :=
  step fun t => return t.put (← t.directorySpot path) .directory

/-- Makes a directory, unless one is there. -/
def settleDir (path : String) : Action Fault Unit := do
  try makeDir path catch fault => if (← get).isDirectory path then pure () else throw fault

/-- Makes the first of these directories. If its way is missing, the following ones, which lead to
it, are made first. -/
def makeLineage : List String → Action Fault Unit
  | [] => throw .missing
  | path :: above =>
    if path = "" then pure ()
    else do
      try makeDir path catch
        | .missing => do
          makeLineage above
          settleDir path
        | .blocked => if (← get).isDirectory path then pure () else throw .blocked

/-- Makes a directory and all directories that lead to it. -/
def makeDirs (path : String) : Action Fault Unit := makeLineage (Path.lineage path)

/-- Whether a path ends in a name of its own. A directory cannot be removed by any other path. -/
def endsInName (path : String) : Bool :=
  match (Path.names path).reverse.dropWhile (· = "") with
  | [] => false
  | name :: _ => name ≠ "." && name ≠ ".."

/-- Removes a directory: first everything in it, then the directory itself, unless its path led
through what was removed. -/
def removeDir (path : String) : Action Fault Unit := do
  step fun t => do
    let place ← t.find path
    if t.isDirectoryAt place then return t.eraseBelow place else throw .blocked
  step fun t =>
    match t.find path with
    | .error .missing => return t
    | .error .blocked => throw .blocked
    | .ok place => if endsInName path then return t.erase place else throw .blocked

/-- Moves the file at one path to another, over a file that is there. The modes of the two do not
count. -/
def moveFile (source target : String) : Action Fault Unit :=
  step fun t => do
    let place ← t.find source
    match t.get? place with
    | some (.file mode bytes) =>
      let spot ← t.fileSpot target
      return (t.erase place).put spot (.file mode bytes)
    | _ => throw .blocked

/-- Copies a file with its mode. The target is emptied before the source is read, so a file copied
onto itself ends up empty. -/
def copyFile (source target : String) : Action Fault Unit :=
  step fun t => do
    let place ← t.find source
    match t.get? place with
    | some (.file mode _) =>
      if !mayRead mode then throw .blocked
      let spot ← t.writeSpot target
      let t := t.put spot (.file mode .empty)
      match t.get? place with
      | some (.file _ bytes) => return t.put spot (.file mode bytes)
      | _ => return t
    | _ => throw .blocked

end

end Action

end ToolWrappers
