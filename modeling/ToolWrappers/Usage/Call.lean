import ToolWrappers.Text.Blank
import ToolWrappers.Text.Decimal
import ToolWrappers.Text.Lines
import ToolWrappers.Usage.Fixup

/-! Turning the example command in a tool's help text into an R call of its wrapper. -/

namespace ToolWrappers.Usage

/-- The command after the first `>>` that follows `usage:`, up to the next `>>`. -/
def extract? (help : String) : Option String := do
  let (_, after) ← Text.cut? "usage:".toList help.toList
  let command ← (Text.splitOn ">>".toList after)[1]?
  return .ofList (Text.trim command)

/-- An argument of the call: its name and its value as written in R. -/
structure Argument where
  name : String
  value : String
deriving DecidableEq, Repr

/-- A value is kept if it denotes a number and is quoted otherwise. Single quotes count as double
quotes, and no quote stays inside the text. -/
def quoteValue (value : List Char) : String :=
  let value := value.map fun c => if c = '\'' then '"' else c
  if Text.isNumber value then .ofList value
  else "\"" ++ .ofList (value.filter (· ≠ '"')) ++ "\""

/-- The tool selector and the working directory are no arguments of the call. -/
def isRunnerOption (item : List Char) : Bool :=
  Text.contains "-r=".toList item || Text.contains "wd=".toList item

/-- The argument in one item of a command: the text before the first `=`, and the text from there
to the next `=`. An item without `=` holds none. -/
def argument? (item : List Char) : Option Argument :=
  if isRunnerOption item then none
  else match Text.pieces '=' item with
    | name :: value :: _ => some ⟨.ofList name, quoteValue value⟩
    | _ => none

/-- The arguments of a command, whose items are the trimmed texts between its `--`. -/
def arguments (command : String) : List Argument :=
  ((Text.splitOn "--".toList command.toList).map Text.trim).filterMap argument?

/-- The R call of a wrapper with the arguments of a command; it always asks for verbose output. -/
def call (wrapper command : String) : String :=
  wrapper ++ "(" ++ String.join ((arguments command).map fun a => a.name ++ "=" ++ a.value ++ ", ")
    ++ "verbose_mode=TRUE)"

/-- The call built from a help text, corrected by the fixups for the tool. A help text without an
example command gives none. -/
def synthesize? (table : FixupTable) (tool wrapper help : String) : Option String := do
  let command ← extract? help
  return call wrapper (table.apply tool command)

end ToolWrappers.Usage
