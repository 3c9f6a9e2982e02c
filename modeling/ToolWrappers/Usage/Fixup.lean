import ToolWrappers.Json.Reader

/-! Corrections of scraped example commands. A fixup is one textual change; a table holds the
changes for every tool and the rules for named tools. -/

namespace ToolWrappers

/-- One textual change to an example. -/
inductive Fixup
  | replace (old new : String)
  | replaceFirst (old new : String)
  | append (text : String)
  | set (text : String)
deriving DecidableEq, Repr

namespace Fixup

def apply : Fixup → String → String
  | .replace old new, s => .ofList (Text.replaceAll old.toList new.toList s.toList)
  | .replaceFirst old new, s => .ofList (Text.replaceFirst old.toList new.toList s.toList)
  | .append text, s => s ++ text
  | .set text, _ => text

/-- The fixup that an operation name and its arguments in order denote. -/
def ofArguments? : String → List String → Option Fixup
  | "replace", [old, new] => some (.replace old new)
  | "replace_first", [old, new] => some (.replaceFirst old new)
  | "append", [text] => some (.append text)
  | "set", [text] => some (.set text)
  | _, _ => none

/-- The members that hold the arguments of an operation. -/
def argumentNames : String → List String
  | "replace" | "replace_first" => ["from", "to"]
  | "append" | "set" => ["text"]
  | _ => []

/-- Reads a fixup that stands inside `depth` open arrays and objects. An object has a member `op`
and one member for each argument, all texts; other members are ignored but have to be storable.
An array holds the operation and its arguments in order. -/
def ofJson? (depth : Nat) : Json → Option Fixup
  | .object members => do
    if !(Json.object members).isStorable (Json.maxDepth - depth) then none
    let op ← (← Json.member? "op" members).text?
    let arguments ← (argumentNames op).mapM fun name => do (← Json.member? name members).text?
    ofArguments? op arguments
  | .array items => do
    match ← items.mapM Json.text? with
    | op :: arguments => ofArguments? op arguments
    | [] => none
  | _ => none

/-- The fixup that a text denotes. -/
def read? (text : String) : Option Fixup := do ofJson? 0 (← Json.read? text)

end Fixup

/-- Fixups shared by a group of tools. -/
structure FixupRule where
  tools : List String
  fixups : List Fixup
deriving DecidableEq, Repr

/-- The fixups for every tool and the rules, in the order in which they apply. -/
structure FixupTable where
  always : List Fixup
  rules : List FixupRule
deriving DecidableEq, Repr

def fixupsOfJson? (depth : Nat) : Json → Option (List Fixup)
  | .array items => items.mapM (Fixup.ofJson? (depth + 1))
  | _ => none

/-- A rule is an object with the members `tools` and `fixups`, or an array of the two. -/
def FixupRule.ofJson? (depth : Nat) : Json → Option FixupRule
  | .object members => do
    if !members.all (·.1.isSome) then none
    let tools ← (← Json.member? "tools" members).texts?
    let fixups ← fixupsOfJson? (depth + 1) (← Json.member? "fixups" members)
    return ⟨tools, fixups⟩
  | .array [tools, fixups] => return ⟨← tools.texts?, ← fixupsOfJson? (depth + 1) fixups⟩
  | _ => none

namespace FixupTable

def rulesOfJson? (depth : Nat) : Json → Option (List FixupRule)
  | .array items => items.mapM (FixupRule.ofJson? (depth + 1))
  | _ => none

/-- A table is an object with the optional members `global` and `rules`, or an array of the two
that may stop early. -/
def ofJson? : Json → Option FixupTable
  | .object members => do
    if !members.all (·.1.isSome) then none
    let always ← fixupsOfJson? 1 (← Json.memberOrEmpty? "global" members)
    let rules ← rulesOfJson? 1 (← Json.memberOrEmpty? "rules" members)
    return ⟨always, rules⟩
  | .array [] => some ⟨[], []⟩
  | .array [always] => return ⟨← fixupsOfJson? 1 always, []⟩
  | .array [always, rules] => return ⟨← fixupsOfJson? 1 always, ← rulesOfJson? 1 rules⟩
  | _ => none

/-- The table that a text denotes. -/
def read? (text : String) : Option FixupTable := do ofJson? (← Json.read? text)

/-- The fixups that concern a tool: those for every tool, then those of each rule that names it. -/
def fixupsFor (table : FixupTable) (tool : String) : List Fixup :=
  table.always ++ (table.rules.filter fun r => r.tools.contains tool).flatMap (·.fixups)

def apply (table : FixupTable) (tool example' : String) : String :=
  (table.fixupsFor tool).foldl (fun text fixup => fixup.apply text) example'

end FixupTable

end ToolWrappers
