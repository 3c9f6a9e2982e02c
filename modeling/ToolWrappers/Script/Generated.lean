import ToolWrappers.Catalogue.Basic
import ToolWrappers.Script.Roxygen
import ToolWrappers.Script.TestStub
import ToolWrappers.Script.Wrapper
import ToolWrappers.Text.Lines

/-! Everything that a catalogue generates: one script for each section, and a test file for each
tool with a sample run. Nothing is written before everything is generated. -/

namespace ToolWrappers

/-- A file named relative to its directory. -/
structure GeneratedFile where
  name : String
  contents : String
deriving DecidableEq, Repr

structure Generated where
  scripts : List GeneratedFile
  tests : List GeneratedFile
deriving DecidableEq, Repr

namespace Generated

/-- Tools of a section with examples get a sample run if an input and an output are all they
need. -/
def hasSampleRun (s : Section) (t : Tool) : Bool := s.examples && t.isInputOutputOnly

/-- A tool in the script of its section: documentation, then the wrapper. -/
def toolLines (settings : Settings) (s : Section) (t : Tool) : List String :=
  let wrapper := settings.wrapperName t.command
  let sample := if hasSampleRun s t && settings.wantsExample t.command then some wrapper else none
  Roxygen.lines t sample ++ Wrapper.lines t wrapper

def scriptLines (settings : Settings) (s : Section) : List String :=
  s.tools.flatMap (toolLines settings s)

def script (settings : Settings) (s : Section) : GeneratedFile :=
  ⟨s.fileName, Text.unlines (scriptLines settings s)⟩

/-- The tools of a section that get a test file. -/
def testedTools (settings : Settings) (s : Section) : List Tool :=
  s.tools.filter fun t => hasSampleRun s t && settings.wantsTest t.command

def test (settings : Settings) (t : Tool) : GeneratedFile :=
  let wrapper := settings.wrapperName t.command
  ⟨TestStub.fileName wrapper, Text.unlines (TestStub.lines t wrapper)⟩

def ofCatalogue (settings : Settings) (c : Catalogue) : Generated where
  scripts := c.sections.map (script settings)
  tests := (c.sections.flatMap (testedTools settings)).map (test settings)

end Generated

end ToolWrappers
