/-! Parameters of a tool and their R formals. A default is a truth value, nothing, or a literal that
both languages write alike. -/

namespace ToolWrappers

inductive Default
  | bool (value : Bool)
  | null
  | literal (text : String)
deriving DecidableEq, Repr

namespace Default

/-- The default that a Python token denotes. Only a whole token has a meaning of its own. -/
def ofPython (token : String) : Default :=
  if token = "True" then .bool true
  else if token = "False" then .bool false
  else if token = "None" then .null
  else .literal token

def toR : Default → String
  | .bool true => "TRUE"
  | .bool false => "FALSE"
  | .null => "NULL"
  | .literal text => text

end Default

/-- A parameter without a default has to be given in every call. -/
structure Param where
  name : String
  default? : Option Default
deriving DecidableEq, Repr

/-- How a wrapper hands the value of a parameter to the tool. -/
inductive Forward
  | always
  | ifTrue
  | ifNotNull
  | never
deriving DecidableEq, Repr

/-- The switch that the runner itself consumes. -/
def verboseOption : String := "verbose_mode"

/-- The options that every tool accepts; no tool documents them itself. -/
def implicitOptions : List Param :=
  [⟨"wd", some .null⟩, ⟨verboseOption, some (.bool false)⟩,
    ⟨"compress_rasters", some (.bool false)⟩]

namespace Param

def toR (p : Param) : String :=
  match p.default? with
  | some d => p.name ++ "=" ++ d.toR
  | none => p.name

/-- The formals of a function with these parameters. -/
def formals (params : List Param) : String := ", ".intercalate (params.map toR)

/-- The default decides how a value is forwarded; the verbosity switch never is. -/
def forward (p : Param) : Forward :=
  if p.name = verboseOption then .never
  else match p.default? with
    | none => .always
    | some (.bool _) => .ifTrue
    | some .null | some (.literal _) => .ifNotNull

end Param

end ToolWrappers
