/-! Commas that separate and commas that do not. A scan of a parameter list is inside a string
literal or at a bracket depth; a comma separates at depth zero outside strings only. -/

namespace ToolWrappers

/-- Where a scan stands. All bracket kinds share one depth; a backslash escapes inside strings
only. -/
inductive Nesting
  | code (depth : Nat)
  | string (quote : Char) (escaped : Bool) (depth : Nat)
deriving DecidableEq, Repr

namespace Nesting

def isQuote (c : Char) : Bool := c = '\'' || c = '"'

def isOpening (c : Char) : Bool := c = '(' || c = '[' || c = '\x7b'

def isClosing (c : Char) : Bool := c = ')' || c = ']' || c = '\x7d'

/-- The outermost level, where a list begins and has to end. -/
def top : Nesting := .code 0

/-- The position after one more character; a bracket that closes nothing has none. -/
def step : Nesting → Char → Option Nesting
  | .string quote true depth, _ => some (.string quote false depth)
  | .string quote false depth, c =>
    if c = '\\' then some (.string quote true depth)
    else if c = quote then some (.code depth)
    else some (.string quote false depth)
  | .code depth, c =>
    if isQuote c then some (.string c false depth)
    else if isOpening c then some (.code (depth + 1))
    else if isClosing c then
      match depth with
      | 0 => none
      | depth + 1 => some (.code depth)
    else some (.code depth)

/-- The pieces between the separating commas of the rest of a list. -/
def splitFrom : Nesting → List Char → Option (List (List Char))
  | here, [] => if here = top then some [[]] else none
  | here, c :: rest =>
    if here = top ∧ c = ',' then (splitFrom top rest).map ([] :: ·)
    else do
      match ← splitFrom (← here.step c) rest with
      | [] => some [[c]]
      | piece :: pieces => some ((c :: piece) :: pieces)

/-- The pieces of a list between its separating commas. A list that leaves a string or a bracket
open, or closes one that it did not open, has none. -/
def split? (list : List Char) : Option (List (List Char)) := splitFrom top list

theorem split?_nil : split? [] = some [[]] := rfl

end Nesting

end ToolWrappers
