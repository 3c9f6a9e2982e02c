import ToolWrappers.Failure
import ToolWrappers.Shell.Token

/-! Running a tool script: what it prints and how it ends. A script runs in a process of its own,
has an empty input, and takes one argument. -/

namespace ToolWrappers.Shell

/-- A simple command. The joint says when it runs; a diverted command prints nothing here. -/
structure Command where
  joint : Joint := .always
  words : List Word := []
  diverted : Bool := false
  document? : Option Word := none
  broken : Bool := false

/-- The commands of a script from its tokens. -/
def commands : Command → List Token → List Command
  | c, [] => [c]
  | c, .word w :: rest => commands { c with words := c.words ++ [w] } rest
  | c, .divert :: rest => commands { c with diverted := true } rest
  | c, .document w :: rest => commands { c with document? := some w } rest
  | c, .broken :: _ => [{ c with broken := true }]
  | c, .joint j :: rest => c :: commands { joint := j } rest

/-- What the parameters of a script stand for. -/
structure Parameters where
  program : List Char
  argument : List Char
  status : Nat

/-- The number of the script's own process; which one it is does not matter. -/
def processId : List Char := "4096".toList

def Parameters.value (p : Parameters) (name : List Char) : List Char :=
  match name with
  | ['0'] => p.program
  | ['1'] | ['@'] | ['*'] => p.argument
  | ['#'] => ['1']
  | ['$'] => processId
  | ['?'] => (toString p.status).toList
  | _ => []

/-- The text of a word in one piece. -/
def Parameters.expand (p : Parameters) (w : Word) : List Char :=
  w.flatMap fun
    | .text s => s
    | .parameter name _ => p.value name

/-- The arguments that a word comes to: blanks in parameters outside quotes separate arguments. -/
def Parameters.fields (p : Parameters) (w : Word) : List (List Char) :=
  let join (current : Option (List Char)) (s : List Char) := some (current.getD [] ++ s)
  let (done, current) := w.foldl (fun (done, current) piece =>
    match piece with
    | .text s => (done, join current s)
    | .parameter name true => (done, join current (p.value name))
    | .parameter name false =>
      (p.value name).foldl (fun (done, current) c =>
        if isSpace c || c = '\n' then (done ++ current.toList, none)
        else (done, join current [c])) (done, current))
    (([] : List (List Char)), (none : Option (List Char)))
  done ++ current.toList

def isOctal (c : Char) : Bool := '0' ≤ c && c ≤ '7'

def octalValue (ds : List Char) : Nat := ds.foldl (fun n c => n * 8 + (c.toNat - '0'.toNat)) 0

/-- The byte that an escape letter names. -/
def escapeByte? : Char → Option Char
  | 'a' => some '\x07'
  | 'b' => some '\x08'
  | 'e' => some '\x1b'
  | 'f' => some '\x0c'
  | 'n' => some '\n'
  | 'r' => some '\r'
  | 't' => some '\t'
  | 'v' => some '\x0b'
  | '\\' => some '\\'
  | _ => none

/-- The escape after a backslash: the bytes it stands for, and what follows it. An octal number has
up to three digits; with `skipsZero`, a leading zero does not count among them. -/
def readEscape (skipsZero : Bool) (s : List Char) : List Char × List Char :=
  match s with
  | [] => (['\\'], [])
  | c :: rest =>
    match escapeByte? c with
    | some byte => ([byte], rest)
    | none =>
      if isOctal c then
        let s := if skipsZero && c = '0' then rest else c :: rest
        let digits := (s.take 3).takeWhile isOctal
        ([Char.ofNat (octalValue digits % 256)], s.drop digits.length)
      else (['\\', c], rest)

/-- The text that `echo` prints for its joined arguments; `\c` ends it. `fuel` bounds the steps. -/
def echoText : Nat → List Char → List Char × Bool
  | 0, _ => ([], true)
  | _, [] => ([], true)
  | fuel + 1, c :: rest =>
    if c = '\\' && rest.head? = some 'c' then ([], false)
    else
      let (bytes, rest) := if c = '\\' then readEscape true rest else ([c], rest)
      let (out, newline) := echoText fuel rest
      (bytes ++ out, newline)

def echo (arguments : List (List Char)) : List Char :=
  let (silent, arguments) :=
    match arguments with
    | ['-', 'n'] :: rest => (true, rest)
    | arguments => (false, arguments)
  let joined := [' '].intercalate arguments
  let (out, newline) := echoText (joined.length + 1) joined
  if newline && !silent then out ++ ['\n'] else out

/-- One pass of a format over its arguments, and the arguments that are left. `fuel` bounds the
steps. -/
def formatOnce : Nat → List Char → List (List Char) → List Char × List (List Char)
  | 0, _, arguments => ([], arguments)
  | _, [], arguments => ([], arguments)
  | fuel + 1, '%' :: c :: rest, arguments =>
    let (bytes, arguments) :=
      if c = '%' then (['%'], arguments)
      else if c = 'd' && (arguments.headD []).isEmpty then (['0'], arguments.drop 1)
      else if c = 'c' then ((arguments.headD []).take 1, arguments.drop 1)
      else (arguments.headD [], arguments.drop 1)
    let (out, arguments) := formatOnce fuel rest arguments
    (bytes ++ out, arguments)
  | fuel + 1, c :: rest, arguments =>
    let (bytes, rest) := if c = '\\' then readEscape false rest else ([c], rest)
    let (out, arguments) := formatOnce fuel rest arguments
    (bytes ++ out, arguments)

/-- A format is used again as long as it takes arguments and some are left. -/
def format : Nat → List Char → List (List Char) → List Char
  | 0, _, _ => []
  | fuel + 1, pattern, arguments =>
    let (out, rest) := formatOnce (pattern.length + 1) pattern arguments
    if rest.isEmpty || rest.length = arguments.length then out
    else out ++ format fuel pattern rest

/-- What a command did: what it printed, its status, and the end of the script if it brought one. -/
structure Effect where
  output : List Char := []
  status : Nat := 0
  ending? : Option ExitStatus := none

/-- Prints arguments by a format. Two dashes alone may come before the format; anything else that
looks like an option is refused. -/
def printf : List (List Char) → Effect
  | [] => { status := 2 }
  | ['-', '-'] :: [] => { status := 2 }
  | ['-', '-'] :: pattern :: arguments =>
    { output := format (arguments.length + 1) pattern arguments }
  | ('-' :: _ :: _) :: _ => { status := 2 }
  | pattern :: arguments => { output := format (arguments.length + 1) pattern arguments }

def number? (s : List Char) : Option Nat :=
  if s.isEmpty || !s.all Char.isDigit then none
  else some (s.foldl (fun n c => n * 10 + (c.toNat - '0'.toNat)) 0)

/-- A signal by its number or its name, with or without its first three letters. -/
def signal? (s : List Char) : Option Nat :=
  match number? s with
  | some n => some n
  | none =>
    (signalNames.findIdx? fun name =>
      name.toList = s || name.toList = "SIG".toList ++ s).map (· + 1)

/-- Signals that do not end a process by themselves: one of number zero only asks, and those about
children, continuing, stopping, urgent data and window sizes. -/
def harmlessSignals : List Nat := [0, 17, 18, 19, 20, 21, 22, 23, 28]

/-- A signal sent to the script itself ends it. -/
def kill (arguments : List (List Char)) : Effect :=
  let (signal, targets) :=
    match arguments with
    | ['-', 's'] :: name :: rest => (signal? name, rest)
    | ('-' :: name) :: rest => (signal? name, rest)
    | rest => (some 15, rest)
  match signal with
  | none => { status := 1 }
  | some n =>
    if targets = [processId] then
      if harmlessSignals.contains n then {} else { ending? := some (.signal n) }
    else { status := 1 }

/-- Whether a test on texts holds; one that cannot be read has none. -/
def test? : List (List Char) → Option Bool
  | [] => some false
  | [s] => some (!s.isEmpty)
  | ['!'] :: rest => (test? rest).map (!·)
  | [['-', 'n'], s] => some (!s.isEmpty)
  | [['-', 'z'], s] => some s.isEmpty
  | [a, ['='], b] => some (a = b)
  | [a, ['!', '='], b] => some (a ≠ b)
  | _ => none

def test (arguments : List (List Char)) : Effect :=
  match test? arguments with
  | some true => {}
  | some false => { status := 1 }
  | none => { status := 2 }

/-- Runs one command on its arguments. A command that is not known has status 127. -/
def runCommand (p : Parameters) (document : List Char) : List (List Char) → Effect
  | [] => {}
  | name :: arguments =>
    match String.ofList name with
    | "echo" => { output := echo arguments }
    | "printf" => printf arguments
    | "cat" => if arguments.isEmpty then { output := document } else { status := 1 }
    | "exit" =>
      match arguments with
      | [] => { ending? := some (.code p.status) }
      | n :: _ => { ending? := some (.code ((number? n).elim 2 (· % 256))) }
    | "kill" => kill arguments
    | "test" => test arguments
    | "[" => if arguments.getLast? = some [']'] then test arguments.dropLast else { status := 2 }
    | "true" | ":" | "sleep" => {}
    | "false" => { status := 1 }
    | _ => { status := 127 }

/-- Whether a command runs after one that ended with this status. -/
def Joint.holds (j : Joint) (status : Nat) : Bool :=
  match j with
  | .always => true
  | .ifSucceeded => status = 0
  | .ifFailed => status ≠ 0

/-- What the commands print and how the script ends. A command without words leaves the status as
it is. -/
def runAll (p : Parameters) : List Command → List Char × ExitStatus
  | [] => ([], .code p.status)
  | c :: rest =>
    if c.broken then ([], .code 2)
    else if c.words.isEmpty || !c.joint.holds p.status then runAll p rest
    else
      let effect := runCommand p ((c.document?.map p.expand).getD []) (c.words.flatMap p.fields)
      let output := if c.diverted then [] else effect.output
      match effect.ending? with
      | some ending => (output, ending)
      | none =>
        let (later, ending) := runAll { p with status := effect.status } rest
        (output ++ later, ending)

/-- The bytes of a text, one character for each byte. -/
def bytesAsChars (b : ByteArray) : List Char := b.toList.map fun byte => Char.ofNat byte.toNat

def charsAsBytes (s : List Char) : ByteArray := (s.map fun c => c.toNat.toUInt8).toByteArray

/-- The interpreters that a script may name in its first line. -/
def interpreters : List (List Char) := ["/bin/sh".toList, "/bin/bash".toList, "/bin/dash".toList]

/-- Whether bytes are a script that can be started. -/
def isScript (script : List Char) : Bool :=
  match script with
  | '#' :: '!' :: rest =>
    interpreters.contains ((rest.dropWhile isSpace).takeWhile fun c => !isSpace c && c ≠ '\n')
  | _ => false

/-- What a script prints and how it ends, if it can be started. -/
def run? (script : ByteArray) (program argument : String) : Option (ByteArray × ExitStatus) :=
  let script := bytesAsChars script
  if !isScript script then none
  else
    let p : Parameters :=
      ⟨bytesAsChars program.toUTF8, bytesAsChars argument.toUTF8, 0⟩
    let (output, ending) := runAll p (commands {} (tokens (script.length + 1) [] script))
    some (charsAsBytes output, ending)

end ToolWrappers.Shell
