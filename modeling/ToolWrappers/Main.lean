import ToolWrappers.CommandLine.Run
import ToolWrappers.FileTree.Changes
import ToolWrappers.Zip.Archive

/-! The program. It reads the working directory into a file tree, runs its command on the tree, and
writes back what the command changed. The tree holds nothing else but the way to that directory. Nothing
else happens outside the tree: bundles that are not there count as refused, and tool binaries are run
as scripts. -/

namespace ToolWrappers.Program

/-- The mode that files are taken to have: it cannot be asked for, and tool binaries have to be
executable. -/
def assumedMode : Nat := 0o755

/-- Everything below a directory that stands at a place of the tree. -/
partial def readBelow (path : String) (place : Place) : IO (List (Place × Node)) := do
  let directory ← IO.FS.realPath path
  let mut entries := []
  for entry in ← directory.readDir do
    let here := place ++ [entry.fileName]
    let inner := path ++ "/" ++ entry.fileName
    match (← entry.path.metadata).type with
    | .dir => entries := (here, .directory) :: (← readBelow inner here) ++ entries
    | .file => entries := (here, .file assumedMode (← IO.FS.readBinFile inner)) :: entries
    | _ => pure ()
  return entries

def rights (bits : Nat) : IO.AccessRight :=
  { read := bits.testBit 2, write := bits.testBit 1, execution := bits.testBit 0 }

def fileRights (mode : Nat) : IO.FileRight :=
  { user := rights (mode / 64), group := rights (mode / 8), other := rights mode }

section

variable [User]

def writeEntry (before : FileTree) (path : String) : Node → IO Unit
  | .directory => IO.FS.createDirAll path
  | .file mode bytes => do
    IO.FS.writeBinFile path bytes
    match before.node? path with
    | some (.file old _) =>
      if old = mode then pure () else IO.setAccessRights path (fileRights mode)
    | _ => IO.setAccessRights path (fileRights mode)

def removeEntry (before : FileTree) (path : String) : IO Unit :=
  if before.isDirectory path then IO.FS.removeDir path else IO.FS.removeFile path

/-- Brings the files from one state of the tree to another. Removed entries go from the innermost
outwards; new directories come before what is in them. -/
def writeBack (before after : FileTree) : IO Unit := do
  for path in (FileTree.removed User.directory before after).reverse do
    removeEntry before path
  for (path, node) in FileTree.changed User.directory before after do
    writeEntry before path node

def world : World := ⟨fun _ => .refused, Shell.launcher, Zip.reader, Glob.inDirectory ".R"⟩

end

/-- The directories that lead to a place, and the place itself. -/
def wayTo (place : Place) : List (Place × Node) :=
  (List.range place.length).map fun above => (place.take (above + 1), .directory)

def report (outcome : CommandLine.Outcome) : IO Unit :=
  match outcome with
  | .printed text => IO.print text
  | .usage => IO.eprintln "usage: [-v] [sync | generate | functions | example] [arguments]"
  | .failed failure => do
    IO.eprintln ("Error: " ++ failure.message)
    match failure with
    | .invalidCatalogue _ cause => IO.eprintln ("Caused by: " ++ cause.message)
    | _ => pure ()

end ToolWrappers.Program

open ToolWrappers in
def main (arguments : List String) : IO UInt32 := do
  let directory : Place := (Path.names (← IO.FS.realPath ".").toString).filter (· ≠ "")
  let _ : User := { directory }
  let before : FileTree := ⟨Program.wayTo directory ++ (← Program.readBelow "." directory)⟩
  let (outcome, after) := CommandLine.run Program.world arguments before
  Program.writeBack before after
  Program.report outcome
  return outcome.exitCode.toUInt32
