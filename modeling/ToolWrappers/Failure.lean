import ToolWrappers.Catalogue.Error

/-! Why a run stops. Each failure names what was being done and to what; the causes below it, which
the system words in its own way, are not kept. -/

namespace ToolWrappers

/-- How a tool ended that did not succeed. -/
inductive ExitStatus
  | code (n : Nat)
  | signal (n : Nat)
deriving DecidableEq, Repr

/-- The names of the signals from 1 on. -/
def signalNames : List String :=
  ["SIGHUP", "SIGINT", "SIGQUIT", "SIGILL", "SIGTRAP", "SIGABRT", "SIGBUS", "SIGFPE", "SIGKILL",
    "SIGUSR1", "SIGSEGV", "SIGUSR2", "SIGPIPE", "SIGALRM", "SIGTERM", "SIGSTKFLT", "SIGCHLD",
    "SIGCONT", "SIGSTOP", "SIGTSTP", "SIGTTIN", "SIGTTOU", "SIGURG", "SIGXCPU", "SIGXFSZ",
    "SIGVTALRM", "SIGPROF", "SIGWINCH", "SIGIO", "SIGPWR", "SIGSYS"]

def ExitStatus.message : ExitStatus → String
  | .code n => "exit status: " ++ toString n
  | .signal n =>
    "signal: " ++ toString n ++
      match signalNames[n - 1]? with
      | some name => " (" ++ name ++ ")"
      | none => ""

inductive Failure
  | noArchiveName (url : String)
  | downloading (url : String)
  | creating (path : String)
  | writing (path : String)
  | moving (path : String)
  | removing (path : String)
  | opening (path : String)
  | notAnArchive (path : String)
  | readingEntry (index : Nat) (archive : String)
  | unsafeEntry (name : String)
  | extracting (name : String)
  | settingMode (path : String)
  | creatingOutput (dir : String)
  | invalidPattern (pattern : String)
  | creatingDirectory (dir : String)
  | copying (source target : String)
  | reading (path : String)
  | readingFixups (path : String)
  | invalidFixups (path : String)
  | invalidCatalogue (path : String) (cause : CatalogueError)
  | noExample (tool : String)
  | running (program : String)
  | exited (program tool : String) (status : ExitStatus)
deriving DecidableEq, Repr

namespace Failure

def message : Failure → String
  | .noArchiveName url => "cannot derive an archive file name from " ++ url
  | .downloading url => "failed to download " ++ url
  | .creating path => "failed to create " ++ path
  | .writing path => "failed to write " ++ path
  | .moving path => "failed to move " ++ path ++ " into place"
  | .removing path => "failed to remove " ++ path
  | .opening path => "failed to open " ++ path
  | .notAnArchive path => "invalid zip archive: " ++ path
  | .readingEntry index archive =>
    "failed to read entry " ++ toString index ++ " of " ++ archive
  | .unsafeEntry name => "unsafe path in zip archive: " ++ name
  | .extracting name => "failed to extract " ++ name
  | .settingMode path => "failed to set permissions on " ++ path
  | .creatingOutput dir => "failed to create output directory: " ++ dir
  | .invalidPattern pattern => "invalid glob pattern: " ++ pattern
  | .creatingDirectory dir => "failed to create directory: " ++ dir
  | .copying source target => "failed to copy " ++ source ++ " to " ++ target
  | .reading path => "failed to read " ++ path
  | .readingFixups path => "failed to read fixup table: " ++ path
  | .invalidFixups path => "invalid fixup table: " ++ path
  | .invalidCatalogue path cause =>
    (if cause.isConfiguration then "toolbox table does not cover " else "failed to parse ")
      ++ path ++ " (line " ++ toString cause.line ++ ")"
  | .noExample tool => "no example usage in help text for " ++ tool
  | .running program => "failed to run " ++ program
  | .exited program tool status =>
    program ++ " --toolhelp=" ++ tool ++ " exited with " ++ status.message

end Failure

end ToolWrappers
