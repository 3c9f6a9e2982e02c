import ToolWrappers.FileTree.Basic
import ToolWrappers.Shell.Script
import ToolWrappers.Text.Blank
import ToolWrappers.Text.Utf8

/-! Asking a tool binary for its help text. -/

namespace ToolWrappers

/-- A program run on one argument: what it printed and how it ended. A program that cannot be
started gives nothing. -/
abbrev Launcher := FileTree → (program argument : String) → Option (ByteArray × ExitStatus)

/-- Starts the scripts of a file tree. A program is named by a path with a slash and has to be
executable. -/
def Shell.launcher [User] : Launcher := fun t program argument =>
  if !program.toList.contains '/' || argument.toList.contains (Char.ofNat 0) then none
  else match t.node? program with
    | some (.file mode bytes) =>
      if mayRun mode then Shell.run? bytes program argument else none
    | _ => none

namespace Usage

/-- The help text of a tool: what the binary prints, trimmed. A binary that ends with any other
status than zero has none. -/
def help (launch : Launcher) (t : FileTree) (program tool : String) : Except Failure String :=
  match launch t program ("--toolhelp=" ++ tool) with
  | none => .error (.running program)
  | some (output, .code 0) => .ok (.ofList (Text.trim (Text.decodeLenient output)))
  | some (_, status) => .error (.exited program tool status)

end Usage

end ToolWrappers
