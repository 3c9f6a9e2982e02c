import ToolWrappers.CommandLine.Arguments
import ToolWrappers.Workflow

/-! Running a command on a file tree. Output is printed only by a command that succeeds. -/

namespace ToolWrappers.CommandLine

variable [User]

inductive Outcome
  | usage
  | printed (text : String)
  | failed (failure : Failure)
deriving DecidableEq, Repr

/-- What a command prints. -/
def Command.act (world : World) : Command → Action Failure String
  | .sync root workDir url skipLines => do
    Workflow.sync world (.ofRoot root workDir) url skipLines
    return ""
  | .generate catalogue output tests skipLines => do
    let _ ← Workflow.generate catalogue output tests skipLines
    return ""
  | .functions catalogue skipLines => do
    return Text.unlines (← Workflow.signatures catalogue skipLines)
  | .sampleCall tool root program? fixups? => do
    let program := program?.getD (PackageLayout.ofRoot root standardWorkDir).toolBinary
    return Text.unlines [← Workflow.exampleCall world tool program fixups?]

/-- Reads the arguments and runs the command that they hold. Arguments that hold none change
nothing. -/
def run (world : World) (arguments : List String) (t : FileTree) : Outcome × FileTree :=
  match Command.read? false arguments with
  | none => (.usage, t)
  | some command =>
    match (command.act world).run t with
    | (.ok text, t) => (.printed text, t)
    | (.error failure, t) => (.failed failure, t)

def Outcome.exitCode : Outcome → Nat
  | .printed _ => 0
  | .failed _ => 1
  | .usage => 2

end ToolWrappers.CommandLine
