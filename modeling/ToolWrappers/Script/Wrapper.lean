import ToolWrappers.Tool.Basic

/-! The wrapper function of a tool. It collects the values of its formals as flags, each by the
forward rule of its parameter, and hands them to the runner. -/

namespace ToolWrappers.Wrapper

/-- The lines that forward one parameter. -/
def forwardLines (p : Param) : List String :=
  match p.forward with
  | .always =>
    ["  args <- paste(args, paste0(\"--" ++ p.name ++ "=\", wbt_file_path(" ++ p.name ++ ")))"]
  | .ifTrue =>
    ["  if (" ++ p.name ++ ") \x7b", "    args <- paste(args, \"--" ++ p.name ++ "\")", "  \x7d"]
  | .ifNotNull =>
    ["  if (!is.null(" ++ p.name ++ ")) \x7b",
      "    args <- paste(args, paste0(\"--" ++ p.name ++ "=\", " ++ p.name ++ "))", "  \x7d"]
  | .never => []

/-- The head of a wrapper: its name and its formals. -/
def head (wrapper : String) (params : List Param) : String :=
  wrapper ++ " <- function(" ++ Param.formals params ++ ") \x7b"

/-- The wrapper of a tool, followed by two empty lines. -/
def lines (t : Tool) (wrapper : String) : List String :=
  [head wrapper t.params, "  wbt_init()", "  args <- \"\""]
    ++ t.params.flatMap forwardLines
    ++ ["  tool_name <- \"" ++ t.command ++ "\"",
      "  wbt_run_tool(tool_name, args, " ++ verboseOption ++ ")", "\x7d", "", ""]

end ToolWrappers.Wrapper
