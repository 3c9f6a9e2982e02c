import ToolWrappers.Definition.Nesting
import ToolWrappers.Text.Alphanumeric
import ToolWrappers.Text.Blank
import ToolWrappers.Text.Lines
import ToolWrappers.Text.Search
import ToolWrappers.Tool.Param

/-! Reading a definition line. The parameter list is cut into records, and the records are renamed
to the formals of the wrapper:

* a leading `self` is dropped, and then a leading `output, i=None` changes places;
* `i` and `i=None` become `input` without a default;
* `callback=None` becomes the implicit options;
* any other default is put as R writes it. -/

namespace ToolWrappers

/-- A parameter as written: its name and the text of its default. -/
structure WrittenParam where
  name : String
  default? : Option String
deriving DecidableEq, Repr

/-- What a definition line says. -/
structure Definition where
  name : String
  command : String
  params : List Param
deriving DecidableEq, Repr

namespace WrittenParam

/-- Reads `name`, `name: annotation` or either with `=default`. The first `=` begins the default,
and the annotation is dropped. -/
def read? (token : List Char) : Option WrittenParam :=
  let written :=
    match Text.cut? ['='] token with
    | some (left, right) => (left, some (String.ofList (Text.trim right)))
    | none => (token, none)
  let name := Text.trim (written.1.takeWhile (· ≠ ':'))
  if Text.isName name then some ⟨.ofList name, written.2⟩ else none

/-- The parameters of a list. Empty pieces, such as the one after a final comma, are dropped. -/
def readList? (list : List Char) : Option (List WrittenParam) := do
  let pieces ← Nesting.split? list
  ((pieces.map Text.trim).filter (!·.isEmpty)).mapM read?

def receiver : WrittenParam := ⟨"self", none⟩

def bareOutput : WrittenParam := ⟨"output", none⟩

def optionalInput : WrittenParam := ⟨"i", some "None"⟩

/-- An output before an optional input follows it. -/
def putInputFirst : List WrittenParam → List WrittenParam
  | first :: second :: rest =>
    if first = bareOutput ∧ second = optionalInput then second :: first :: rest
    else first :: second :: rest
  | params => params

/-- A leading receiver is dropped; without one, the order stays as written. -/
def dropReceiver : List WrittenParam → List WrittenParam
  | [] => []
  | first :: rest => if first = receiver then putInputFirst rest else first :: rest

/-- The short input name, with no default or with the default of an optional input. -/
def isShortInput (p : WrittenParam) : Bool :=
  p.name = "i" && (p.default? = none || p.default? = some "None")

def isCallback (p : WrittenParam) : Bool := p.name = "callback" && p.default? = some "None"

/-- The formals that one written parameter becomes. -/
def rename (p : WrittenParam) : List Param :=
  if p.isShortInput then [⟨"input", none⟩]
  else if p.isCallback then implicitOptions
  else [⟨p.name, p.default?.map Default.ofPython⟩]

/-- The formals of the wrapper. -/
def formals (written : List WrittenParam) : List Param := (dropReceiver written).flatMap rename

end WrittenParam

namespace Definition

/-- The runner knows the tools whose names are keywords by their lower-case names. -/
def commandOf (name : String) : String :=
  if name = "And" then "and"
  else if name = "Not" then "not"
  else if name = "Or" then "or"
  else name

/-- The text before the last closing parenthesis. -/
def beforeLastClose? (s : List Char) : Option (List Char) :=
  match s.reverse.dropWhile (· ≠ ')') with
  | [] => none
  | _ :: before => some before.reverse

/-- Reads `def name(parameters)`; what follows the last closing parenthesis is dropped. -/
def read? (line : List Char) : Option Definition := do
  let rest := Text.trimStart (← Text.stripPrefix? "def".toList line)
  let (left, right) ← Text.cut? ['('] rest
  let name := Text.trim left
  let list ← beforeLastClose? right
  if !Text.isName name then none
  let written ← WrittenParam.readList? list
  return ⟨.ofList name, commandOf (.ofList name), WrittenParam.formals written⟩

end Definition

end ToolWrappers
