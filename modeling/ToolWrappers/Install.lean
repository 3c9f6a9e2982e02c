import ToolWrappers.Failure
import ToolWrappers.FileTree.Action
import ToolWrappers.Glob
import ToolWrappers.Script.Generated

/-! Writing generated files, and copying R files into the package. -/

namespace ToolWrappers.Install

variable [User]

/-- Writes files into a directory one after the other and gives their paths. -/
def writeInto (dir : String) : List GeneratedFile → Action Failure (List String)
  | [] => return []
  | file :: rest => do
    let path := Path.join dir file.name
    (Action.writeFile path file.contents.toUTF8).orFail (.writing path)
    return path :: (← writeInto dir rest)

/-- Writes files into a directory, which is made if there is anything to write. -/
def writeFiles (dir : String) (files : List GeneratedFile) : Action Failure (List String) := do
  if files.isEmpty then return []
  (Action.makeDirs dir).orFail (.creatingOutput dir)
  writeInto dir files

/-- Writes the scripts, then the tests, and gives the paths in that order. -/
def writeGenerated (g : Generated) (scriptsDir testsDir : String) :
    Action Failure (List String) := do
  let scripts ← writeFiles scriptsDir g.scripts
  let tests ← writeFiles testsDir g.tests
  return scripts ++ tests

/-- The pattern for the R files directly in a directory. -/
def pattern (glob : Glob) (dir : String) : String := glob.escape dir ++ "/*.R"

/-- Those paths that lead to files, in order. -/
def sources (t : FileTree) (paths : List String) : List String :=
  (paths.filter t.isFile).mergeSort fun a b => ¬Path.orderKey b < Path.orderKey a

/-- Copies files into a directory under their own names and gives the paths of the copies. -/
def copyEach (target : String) : List String → Action Failure (List String)
  | [] => return []
  | source :: rest => do
    match Path.fileName? source with
    | none => copyEach target rest
    | some name =>
      let copy := Path.join target name
      (Action.copyFile source copy).orFail (.copying source copy)
      return copy :: (← copyEach target rest)

/-- Copies every R file directly in `source` into `target`, which is made if there is anything to
copy, and gives the paths of the copies. -/
def copyRFiles (glob : Glob) (source target : String) : Action Failure (List String) := do
  let t ← get
  match glob.find? t (pattern glob source) with
  | none => throw (.invalidPattern (pattern glob source))
  | some paths =>
    let sources := sources t paths
    if sources.isEmpty then return []
    (Action.makeDirs target).orFail (.creatingDirectory target)
    copyEach target sources

end ToolWrappers.Install
