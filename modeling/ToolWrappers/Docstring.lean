import ToolWrappers.Text.Blank
import ToolWrappers.Text.Search
import ToolWrappers.Tool.Basic

/-! Reading the docstring after a definition. Each line plays one part, decided by its trimmed text
alone; the scan ends at the first closing line and fails at the next definition. -/

namespace ToolWrappers

/-- The part that a trimmed line plays in a docstring. -/
inductive DocLine
  | close
  | oneLine (summary : String)
  | opening (summary : String)
  | definition
  | param (text : String)
  | other
deriving DecidableEq, Repr

namespace DocLine

def delimiter : List Char := ['"', '"', '"']

/-- A definition begins with the keyword and one space. -/
def isDefinition (line : List Char) : Bool := Text.startsWith "def ".toList line

/-- A parameter line for the documentation: the short input name is spelled out, the marker is
removed, and a percent sign, which would begin a comment there, becomes a word. -/
def paramText (line : List Char) : List Char :=
  let line :=
    match Text.stripPrefix? "i --".toList line with
    | some rest => "input --".toList ++ rest
    | none => line
  (Text.replaceAll "-- ".toList [] line).flatMap fun c =>
    if c = '%' then " percent".toList else [c]

/-- The part of a trimmed line; the tests are made in this order. -/
def ofLine (line : List Char) : DocLine :=
  if line = delimiter then .close
  else match Text.stripPrefix? delimiter line with
    | some rest =>
      match Text.stripSuffix? delimiter rest with
      | some summary => .oneLine (.ofList (Text.trimEnd summary))
      | none => .opening (.ofList (Text.trimEnd rest))
    | none =>
      if isDefinition line then .definition
      else if Text.contains "--".toList line && !Text.startsWith "callback".toList line then
        .param (.ofList (paramText line))
      else .other

end DocLine

/-- A docstring and how many lines it takes, the closing line included. -/
structure Docstring where
  doc : Documentation
  length : Nat
deriving DecidableEq, Repr

namespace Docstring

/-- A summary found earlier holds only if none is found later. -/
def addSummary (d : Docstring) (summary : String) : Docstring :=
  { doc := { d.doc with summary := some (d.doc.summary.getD summary) }, length := d.length + 1 }

def addParam (d : Docstring) (text : String) : Docstring :=
  { doc := { d.doc with params := text :: d.doc.params }, length := d.length + 1 }

/-- The docstring at the head of these lines. A docstring that meets the next definition, or the
end of the lines, before its closing line is not terminated. -/
def scan? : List (List Char) → Option Docstring
  | [] => none
  | line :: rest =>
    match DocLine.ofLine (Text.trim line) with
    | .close => some ⟨{}, 1⟩
    | .oneLine summary => some ⟨{ summary := some summary }, 1⟩
    | .opening summary => (scan? rest).map (·.addSummary summary)
    | .definition => none
    | .param text => (scan? rest).map (·.addParam text)
    | .other => (scan? rest).map fun d => { d with length := d.length + 1 }

end Docstring

end ToolWrappers
