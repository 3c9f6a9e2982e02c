import ToolWrappers.Catalogue.Banner
import ToolWrappers.Catalogue.Error
import ToolWrappers.Definition.Basic
import ToolWrappers.Docstring
import ToolWrappers.Settings

/-! A catalogue as a list of items: headers, other banners, and tools with their docstrings. All
other lines say nothing. Reading stops at the first definition that cannot be read. -/

namespace ToolWrappers

inductive Item
  | toolbox (header : String) (entry : Toolbox)
  | banner (header : String) (line : Nat)
  | tool (tool : Tool)
deriving DecidableEq, Repr

namespace Item

/-- Reads the tool whose definition is the trimmed `line`, and gives the length of the docstring
at the head of `rest`. -/
def readTool (number : Nat) (line : List Char) (rest : List (List Char)) :
    Except CatalogueError (Tool × Nat) :=
  match Definition.read? line with
  | none => .error (.malformedDefinition number (.ofList line))
  | some d =>
    match Docstring.scan? rest with
    | none => .error (.unterminatedDocstring number d.name)
    | some s => .ok (⟨d.name, d.command, number, d.params, s.doc⟩, s.length)

/-- The items of these lines, of which the first has this `number` and `skip` are passed over. A
definition passes over its docstring. The error is the one that ended the reading, if any. -/
def readFrom (settings : Settings) :
    Nat → Nat → List (List Char) → List Item × Option CatalogueError
  | _, _, [] => ([], none)
  | skip + 1, number, _ :: rest => readFrom settings skip (number + 1) rest
  | 0, number, line :: rest =>
    let line := Text.trim line
    match settings.toolbox? (.ofList line) with
    | some entry =>
      let (items, fault) := readFrom settings 0 (number + 1) rest
      (.toolbox (.ofList line) entry :: items, fault)
    | none =>
      if Banner.isBanner line then
        let (items, fault) := readFrom settings 0 (number + 1) rest
        (.banner (.ofList line) number :: items, fault)
      else if DocLine.isDefinition line then
        match readTool number line rest with
        | .error e => ([], some e)
        | .ok (found, length) =>
          let (items, fault) := readFrom settings length (number + 1) rest
          (.tool found :: items, fault)
      else readFrom settings 0 (number + 1) rest

end Item

end ToolWrappers
