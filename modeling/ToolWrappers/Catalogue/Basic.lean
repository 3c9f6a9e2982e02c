import ToolWrappers.Catalogue.Item
import ToolWrappers.Text.Lines

/-! Filing the items of a catalogue into sections, one for each script. A tool goes to the section
that the last header opened or reopened. -/

namespace ToolWrappers

/-- The tools that go to one script. The header is the one that opened the section. -/
structure Section where
  header : String
  fileName : String
  examples : Bool
  tools : List Tool
deriving DecidableEq, Repr

/-- Sections in the order in which they were opened. -/
structure Catalogue where
  sections : List Section
deriving DecidableEq, Repr

/-- Where the next tool goes. -/
inductive Destination
  | nowhere
  | file (fileName : String)
  | unmapped (header : String) (line : Nat)
deriving DecidableEq, Repr

structure Filing where
  sections : List Section := []
  destination : Destination := .nowhere
deriving DecidableEq, Repr

namespace Filing

/-- A header whose script has a section already reopens that section. -/
def openSection (f : Filing) (header : String) (entry : Toolbox) : Filing where
  sections :=
    if f.sections.any (·.fileName = entry.fileName) then f.sections
    else f.sections ++ [⟨header, entry.fileName, entry.examples, []⟩]
  destination := .file entry.fileName

def addTool (f : Filing) (fileName : String) (tool : Tool) : Filing :=
  { f with
    sections := f.sections.map fun s =>
      if s.fileName = fileName then { s with tools := s.tools ++ [tool] } else s }

/-- A tool needs a mapped header before it; a banner outside the table takes the place of one. -/
def add (f : Filing) : Item → Except CatalogueError Filing
  | .toolbox header entry => .ok (f.openSection header entry)
  | .banner header line => .ok { f with destination := .unmapped header line }
  | .tool tool =>
    match f.destination with
    | .nowhere => .error (.noToolbox tool.line tool.name)
    | .unmapped header line => .error (.unmappedToolbox tool.line tool.name header line)
    | .file fileName => .ok (f.addTool fileName tool)

end Filing

namespace Catalogue

/-- The catalogue that a text holds. A tool that cannot be filed counts before anything that comes
after it in the text. -/
def read (settings : Settings) (text : String) : Except CatalogueError Catalogue := do
  let (items, fault) := Item.readFrom settings settings.skipLines 1 (Text.lines text.toList)
  let filing ← items.foldlM Filing.add {}
  match fault with
  | some e => throw e
  | none => return ⟨filing.sections⟩

/-- All tools, section by section. -/
def tools (c : Catalogue) : List Tool := c.sections.flatMap (·.tools)

end Catalogue

end ToolWrappers
