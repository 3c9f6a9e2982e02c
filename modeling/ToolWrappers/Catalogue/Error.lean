/-! What can be wrong with a catalogue. Every error points at a line, counted from one. -/

namespace ToolWrappers

inductive CatalogueError
  | malformedDefinition (line : Nat) (text : String)
  | unterminatedDocstring (line : Nat) (tool : String)
  | noToolbox (line : Nat) (tool : String)
  | unmappedToolbox (line : Nat) (tool header : String) (headerLine : Nat)
deriving DecidableEq, Repr

namespace CatalogueError

/-- The line of the definition that cannot be used. -/
def line : CatalogueError → Nat
  | .malformedDefinition line _ | .unterminatedDocstring line _ | .noToolbox line _
  | .unmappedToolbox line .. => line

/-- Whether the toolbox table is at fault and not the text. -/
def isConfiguration : CatalogueError → Bool
  | .noToolbox .. | .unmappedToolbox .. => true
  | _ => false

def message (e : CatalogueError) : String :=
  "line " ++ toString e.line ++ ": " ++
    match e with
    | .malformedDefinition _ text => "malformed function definition: " ++ text
    | .unterminatedDocstring _ tool => "docstring of `" ++ tool ++ "` is not terminated"
    | .noToolbox _ tool => "function `" ++ tool ++ "` appears before any toolbox header"
    | .unmappedToolbox _ tool header headerLine =>
      "function `" ++ tool ++ "` belongs to toolbox `" ++ header ++ "` (line " ++
        toString headerLine ++ ") which has no output file mapping"

end CatalogueError

end ToolWrappers
