import ToolWrappers.Bundle.Unpack
import ToolWrappers.Install
import ToolWrappers.PackageLayout
import ToolWrappers.Script.Generated
import ToolWrappers.Text.Utf8
import ToolWrappers.Usage.Builtin
import ToolWrappers.Usage.Call
import ToolWrappers.Usage.Help

/-! What the program can do with a file tree: generate from a catalogue, list signatures, show an
example, and bring a package up to date with a tool bundle. -/

namespace ToolWrappers

/-- What lies outside the file tree: answers to downloads, programs, and the libraries that read
archives and find files. -/
structure World where
  fetch : String → Bundle.Response
  launch : Launcher
  zip : Zip.Library
  glob : Glob

namespace Workflow

section

variable [User]

def settings (skipLines : Nat) : Settings := { skipLines := skipLines }

/-- The catalogue in a file. The file has to hold text. -/
def readCatalogue (path : String) (s : Settings) : Action Failure Catalogue := do
  let bytes ← (Action.readFile path).orFail (.reading path)
  match Text.decode? bytes with
  | none => throw (.reading path)
  | some text =>
    match Catalogue.read s text with
    | .ok c => return c
    | .error e => throw (.invalidCatalogue path e)

/-- Reads a catalogue and writes everything that it generates. Nothing is written unless the whole
catalogue can be read. -/
def generate (catalogue scriptsDir testsDir : String) (skipLines : Nat) :
    Action Failure (List String) := do
  let s := settings skipLines
  let c ← readCatalogue catalogue s
  Install.writeGenerated (Generated.ofCatalogue s c) scriptsDir testsDir

/-- The signatures of all tools of a catalogue. -/
def signatures (catalogue : String) (skipLines : Nat) : Action Failure (List String) := do
  return (← readCatalogue catalogue (settings skipLines)).tools.map Tool.signature

/-- The fixup table in a file. -/
def loadFixups (path : String) : Action Failure FixupTable := do
  let bytes ← (Action.readFile path).orFail (.readingFixups path)
  match Text.decode? bytes with
  | none => throw (.readingFixups path)
  | some text =>
    match FixupTable.read? text with
    | none => throw (.invalidFixups path)
    | some table => return table

/-- An example call of a tool, built from the help text of the tool binary. -/
def exampleCall (world : World) (tool program : String) (fixups? : Option String) :
    Action Failure String := do
  let table ←
    match fixups? with
    | some path => loadFixups path
    | none => pure FixupTable.builtin
  let help ←
    match Usage.help world.launch (← get) program tool with
    | .ok help => pure help
    | .error failure => throw failure
  match Usage.synthesize? table tool ((settings 0).wrapperName tool) help with
  | none => throw (.noExample tool)
  | some call => return call

/-- Fetches and unpacks the tool bundle, generates from its catalogue in the work directory, and
copies the results into the package. -/
def sync (world : World) (l : PackageLayout) (url : String) (skipLines : Nat) :
    Action Failure Unit := do
  let name ←
    match Bundle.archiveName url with
    | .ok name => pure name
    | .error failure => throw failure
  let archive := l.archive name
  let _ ← Bundle.ensureArchive (world.fetch url) url archive
  Bundle.unpack world.zip archive l.root l.bundleDir
  (Action.makeDirs l.work).orFail (.creating l.work)
  (Action.copyFile l.bundledCatalogue l.catalogue).orFail (.copying l.bundledCatalogue l.catalogue)
  let _ ← generate l.catalogue l.scriptsDir l.testsDir skipLines
  let _ ← Install.copyRFiles world.glob l.scriptsDir l.packageFunctionsDir
  let _ ← Install.copyRFiles world.glob l.testsDir l.packageTestsDir

end

end Workflow

end ToolWrappers
