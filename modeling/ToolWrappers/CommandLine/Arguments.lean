import ToolWrappers.PackageLayout
import ToolWrappers.Settings

/-! Reading the arguments of the program: options with their values, in any order, among the
operands of a subcommand. An option stands once at most. -/

namespace ToolWrappers.CommandLine

/-- An option, written `--long value`, `--long=value` or, with a short name, `-svalue`, `-s=value`
or `-s value`. A switch takes no value. -/
structure OptionSpec where
  long : String
  short? : Option Char := none
  isSwitch : Bool := false
deriving DecidableEq, Repr

/-- What arguments were found to hold. -/
structure Found where
  options : List (String × String) := []
  operands : List String := []
deriving DecidableEq, Repr

/-- An argument that is taken for an option, known or not. A single dash is none. -/
def looksLikeOption (argument : String) : Bool :=
  match argument.toList with
  | '-' :: _ :: _ => true
  | _ => false

/-- What the start of an argument list turned out to be: options found, and perhaps one whose value
is the next argument. -/
structure Reading where
  options : List (String × String) := []
  awaiting? : Option String := none

/-- Reads an argument that begins with two dashes. -/
def readLong (specs : List OptionSpec) (argument : List Char) : Option Reading := do
  let (name, value?) :=
    match Text.cut? ['='] argument with
    | some (name, value) => (name, some (String.ofList value))
    | none => (argument, none)
  let spec ← specs.find? (·.long = .ofList name)
  match spec.isSwitch, value? with
  | true, none => some { options := [(spec.long, "")] }
  | true, some _ => none
  | false, some value => some { options := [(spec.long, value)] }
  | false, none => some { awaiting? := some spec.long }

/-- Reads the short names after a single dash. A name that takes a value takes the rest. -/
def readShort (specs : List OptionSpec) : List Char → Option Reading
  | [] => some {}
  | c :: rest => do
    let spec ← specs.find? (·.short? = some c)
    if spec.isSwitch then
      let reading ← readShort specs rest
      some { reading with options := (spec.long, "") :: reading.options }
    else match rest with
      | [] => some { awaiting? := some spec.long }
      | '=' :: value => some { options := [(spec.long, .ofList value)] }
      | value => some { options := [(spec.long, .ofList value)] }

def readOption (specs : List OptionSpec) (argument : String) : Option Reading :=
  match argument.toList with
  | '-' :: '-' :: rest => readLong specs rest
  | '-' :: rest => readShort specs rest
  | _ => none

/-- Sorts arguments into options and operands; `awaiting?` is the option whose value comes next.
After two dashes alone, everything is an operand. -/
def sortArguments (specs : List OptionSpec) : Option String → List String → Option Found
  | none, [] => some {}
  | some _, [] => none
  | awaiting?, argument :: rest =>
    if looksLikeOption argument then
      if awaiting?.isSome then none
      else if argument = "--" then some { operands := rest }
      else do
        let reading ← readOption specs argument
        let found ← sortArguments specs reading.awaiting? rest
        return { found with options := reading.options ++ found.options }
    else match awaiting? with
      | some name => do
        let found ← sortArguments specs none rest
        return { found with options := (name, argument) :: found.options }
      | none => do
        let found ← sortArguments specs none rest
        return { found with operands := argument :: found.operands }

def verbose : OptionSpec := { long := "verbose", short? := some 'v', isSwitch := true }

/-- Options and operands of a subcommand, each option once at most. -/
def findArguments (specs : List OptionSpec) (arguments : List String) : Option Found := do
  let found ← sortArguments (verbose :: specs) none arguments
  if (found.options.map (·.1)).Nodup then some found else none

namespace Found

def text (f : Found) (name default : String) : String := (f.options.lookup name).getD default

/-- The value of an option that names a path, which is never empty. -/
def path? (f : Found) (name : String) : Option (Option String) :=
  match f.options.lookup name with
  | none => some none
  | some value => if value = "" then none else some (some value)

def pathOr (f : Found) (name default : String) : Option String :=
  (f.path? name).map (·.getD default)

def requiredPath (f : Found) (name : String) : Option String := (f.path? name).bind id

/-- A count is written in decimal digits, perhaps after a plus sign, and fits in 64 bits. -/
def readCount? (value : String) : Option Nat :=
  let digits :=
    match value.toList with
    | '+' :: rest => rest
    | s => s
  if digits.isEmpty || !digits.all Char.isDigit then none
  else
    let n := digits.foldl (fun n c => n * 10 + (c.toNat - '0'.toNat)) 0
    if n < UInt64.size then some n else none

def countOr (f : Found) (name : String) (default : Nat) : Option Nat :=
  match f.options.lookup name with
  | none => some default
  | some value => readCount? value

def noOperands (f : Found) : Option Unit := if f.operands.isEmpty then some () else none

def operand (f : Found) : Option String :=
  match f.operands with
  | [operand] => some operand
  | _ => none

def pathOperand (f : Found) : Option String := do
  let operand ← f.operand
  if operand = "" then none else some operand

end Found

/-- Where the tool bundle is published. -/
def standardUrl : String := "https://www.whiteboxgeo.com/WBT_Linux/WhiteboxTools_linux_amd64.zip"

inductive Command
  | sync (root workDir url : String) (skipLines : Nat)
  | generate (catalogue output tests : String) (skipLines : Nat)
  | functions (catalogue : String) (skipLines : Nat)
  | sampleCall (tool root : String) (program? fixups? : Option String)
deriving DecidableEq, Repr

namespace Command

def standardSync : Command := .sync "." standardWorkDir standardUrl standardPreamble

def option (long : String) : OptionSpec := { long := long }

/-- Reads the arguments of the subcommand with this name. -/
def readSubcommand? (name : String) (arguments : List String) : Option Command :=
  match name with
  | "sync" => do
    let f ← findArguments (["root", "work-dir", "url", "skip-lines"].map option) arguments
    f.noOperands
    return .sync (← f.pathOr "root" ".") (← f.pathOr "work-dir" standardWorkDir)
      (f.text "url" standardUrl) (← f.countOr "skip-lines" standardPreamble)
  | "generate" => do
    let f ← findArguments
      [{ long := "output", short? := some 'o' }, { long := "tests", short? := some 't' },
        option "skip-lines"] arguments
    return .generate (← f.pathOperand) (← f.requiredPath "output") (← f.requiredPath "tests")
      (← f.countOr "skip-lines" standardPreamble)
  | "functions" => do
    let f ← findArguments [option "skip-lines"] arguments
    return .functions (← f.pathOperand) (← f.countOr "skip-lines" standardPreamble)
  | "example" => do
    let f ← findArguments (["root", "exe", "fixups"].map option) arguments
    return .sampleCall (← f.operand) (← f.pathOr "root" ".") (← f.path? "exe") (← f.path? "fixups")
  | _ => none

/-- Reads all arguments. Before the subcommand only the verbosity switch may stand, once; without a
subcommand the package is brought up to date. -/
def read? : (verboseSeen : Bool) → List String → Option Command
  | _, [] => some standardSync
  | verboseSeen, argument :: rest =>
    if looksLikeOption argument then
      if argument = "--" then if rest.isEmpty then some standardSync else none
      else if verboseSeen then none
      else do
        let reading ← readOption [verbose] argument
        if reading.options.length = 1 then read? true rest else none
    else readSubcommand? argument rest

end Command

end ToolWrappers.CommandLine
