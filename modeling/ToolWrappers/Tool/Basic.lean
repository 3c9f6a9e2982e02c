import ToolWrappers.Text.Blank
import ToolWrappers.Text.Search
import ToolWrappers.Text.Uppercase
import ToolWrappers.Tool.Param

/-! A tool of the catalogue: its names, its parameters after renaming, and what its docstring
says. -/

namespace ToolWrappers

/-- The summary and the parameter lines of a docstring. -/
structure Documentation where
  summary : Option String := none
  params : List String := []
deriving DecidableEq, Repr

/-- A tool is `name` in the catalogue and `command` to the runner. Its definition stands on `line`,
counted from one. -/
structure Tool where
  name : String
  command : String
  line : Nat
  params : List Param
  doc : Documentation
deriving DecidableEq, Repr

namespace Tool

/-- The name with blanks for low lines and its first character in upper case. -/
def title (t : Tool) : String :=
  match t.name.toList.map fun c => if c = '_' then ' ' else c with
  | [] => ""
  | first :: rest => .ofList (Text.uppercase first ++ rest)

/-- The summary without one final period; a blank summary gives way to the title. -/
def label (t : Tool) : String :=
  match Text.trim ((t.doc.summary.getD "").toList) with
  | [] => t.title
  | summary => .ofList ((Text.stripSuffix? ['.'] summary).getD summary)

/-- The names of the parameters without a default, in order. -/
def required (t : Tool) : List String :=
  (t.params.filter (·.default?.isNone)).map (·.name)

/-- Whether a tool takes an input and an output and nothing else but the implicit options, the
verbosity switch among them. -/
def isInputOutputOnly (t : Tool) : Bool :=
  t.required = ["input", "output"]
    && t.params.any (·.name = verboseOption)
    && (t.params.filter (·.default?.isSome)).all fun p =>
      (implicitOptions.map (·.name)).contains p.name

/-- The command and its formals as one call pattern. -/
def signature (t : Tool) : String := t.command ++ "(" ++ Param.formals t.params ++ ")"

end Tool

end ToolWrappers
