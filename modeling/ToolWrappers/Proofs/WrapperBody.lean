import Mathlib.Logic.Function.Basic
import ToolWrappers.Script.Wrapper

/-! The body of a wrapper as a program. R keeps the arguments and the locals of a call in one frame,
where a local takes the place of an argument of the same name; a body with proper scopes does the
same as if the two were kept apart. -/

namespace ToolWrappers

namespace Wrapper

/-- Expressions of a wrapper. Both an argument and a local are written as a name; they say whose
value is meant. -/
inductive Expr
  | argument (name : String)
  | scratch (name : String)
  | text (contents : String)
  | call (function : String) (operands : List Expr)
  | not (operand : Expr)

inductive Stmt
  | run (e : Expr)
  | assign (name : String) (e : Expr)
  | assignIf (condition : Expr) (name : String) (e : Expr)

/-- The body of a function, which gives its last value. -/
structure Body where
  steps : List Stmt
  result : Expr

/-! ### How it is written -/

mutual

def Expr.print : Expr → String
  | .argument name | .scratch name => name
  | .text contents => "\"" ++ contents ++ "\""
  | .call function operands => function ++ "(" ++ ", ".intercalate (Expr.printAll operands) ++ ")"
  | .not operand => "!" ++ operand.print

def Expr.printAll : List Expr → List String
  | [] => []
  | e :: rest => e.print :: Expr.printAll rest

end

def Stmt.lines : Stmt → List String
  | .run e => ["  " ++ e.print]
  | .assign name e => ["  " ++ name ++ " <- " ++ e.print]
  | .assignIf condition name e =>
    ["  if (" ++ condition.print ++ ") \x7b", "    " ++ name ++ " <- " ++ e.print, "  \x7d"]

def Body.lines (b : Body) : List String := b.steps.flatMap Stmt.lines ++ ["  " ++ b.result.print]

/-! ### The body of a tool's wrapper -/

def addFlag (flag : Expr) : Expr := .call "paste" [.scratch "args", flag]

def flagWith (name : String) (value : Expr) : Expr :=
  .call "paste0" [.text ("--" ++ name ++ "="), value]

def forwardSteps (p : Param) : List Stmt :=
  match p.forward with
  | .always =>
    [.assign "args" (addFlag (flagWith p.name (.call "wbt_file_path" [.argument p.name])))]
  | .ifTrue => [.assignIf (.argument p.name) "args" (addFlag (.text ("--" ++ p.name)))]
  | .ifNotNull =>
    [.assignIf (.not (.call "is.null" [.argument p.name])) "args"
      (addFlag (flagWith p.name (.argument p.name)))]
  | .never => []

def body (t : Tool) : Body where
  steps := [.run (.call "wbt_init" []), .assign "args" (.text "")] ++
    t.params.flatMap forwardSteps ++ [.assign "tool_name" (.text t.command)]
  result := .call "wbt_run_tool" [.scratch "tool_name", .scratch "args", .argument verboseOption]

theorem lines_forwardSteps (p : Param) : (forwardSteps p).flatMap Stmt.lines = forwardLines p := by
  unfold forwardSteps forwardLines
  cases p.forward with
  | never => rfl
  | always | ifTrue | ifNotNull =>
      simp [← String.toList_inj, addFlag, flagWith, Stmt.lines, Expr.print, Expr.printAll]

theorem lines_eq (t : Tool) (wrapper : String) :
    lines t wrapper = head wrapper t.params :: (body t).lines ++ ["\x7d", "", ""] := by
  have forwarded : (t.params.flatMap forwardSteps).flatMap Stmt.lines =
      t.params.flatMap forwardLines := by
    rw [List.flatMap_assoc]
    exact congrArg (List.flatMap · t.params) (funext lines_forwardSteps)
  simp only [Body.lines, body, List.flatMap_append, forwarded]
  simp [← String.toList_inj, lines, Stmt.lines, Expr.print, Expr.printAll]

/-! ### What it does -/

abbrev Env (V : Type) := String → Option V

/-- A meaning for what a wrapper is made of. Functions are applied to values; they need not give
one, and not every value is a condition. -/
structure Interpretation (V : Type) where
  text : String → V
  apply : String → List V → Option V
  truth : V → Option Bool

variable {V : Type} (I : Interpretation V)

mutual

def Expr.eval (arguments locals : Env V) : Expr → Option V
  | .argument name => arguments name
  | .scratch name => locals name
  | .text contents => some (I.text contents)
  | .call function operands => do I.apply function (← Expr.evalAll arguments locals operands)
  | .not operand => do I.apply "!" [← operand.eval arguments locals]

def Expr.evalAll (arguments locals : Env V) : List Expr → Option (List V)
  | [] => some []
  | e :: rest => do return (← e.eval arguments locals) :: (← Expr.evalAll arguments locals rest)

end

def Stmt.exec (arguments locals : Env V) : Stmt → Option (Env V)
  | .run e => do
    let _ ← e.eval I arguments locals
    return locals
  | .assign name e => do return Function.update locals name (some (← e.eval I arguments locals))
  | .assignIf condition name e => do
    if ← I.truth (← condition.eval I arguments locals) then
      return Function.update locals name (some (← e.eval I arguments locals))
    else return locals

/-- A call with one frame for everything, in which the arguments stand at first. -/
def Body.eval (caller : Env V) (b : Body) : Option V := do
  let frame ← b.steps.foldlM (fun frame s => s.exec I frame frame) caller
  b.result.eval I frame frame

/-- A call whose locals cannot reach its arguments. -/
def Body.evalApart (caller : Env V) (b : Body) : Option V := do
  let locals ← b.steps.foldlM (fun locals s => s.exec I caller locals) fun _ => none
  b.result.eval I caller locals

/-! ### Scopes -/

section

variable (formals assigned : List String)

mutual

/-- Every argument is a formal that is not assigned yet, every local is assigned. -/
def Expr.Scoped : Expr → Prop
  | .argument name => name ∈ formals ∧ name ∉ assigned
  | .scratch name => name ∈ assigned
  | .text _ => True
  | .call _ operands => Expr.AllScoped operands
  | .not operand => operand.Scoped

def Expr.AllScoped : List Expr → Prop
  | [] => True
  | e :: rest => e.Scoped ∧ Expr.AllScoped rest

end

/-- A local that a step need not assign has to be assigned already. -/
def Stmt.Scoped : Stmt → Prop
  | .run e => e.Scoped formals assigned
  | .assign _ e => e.Scoped formals assigned
  | .assignIf condition name e =>
    condition.Scoped formals assigned ∧ name ∈ assigned ∧ e.Scoped formals assigned

def Stmt.bind : Stmt → List String
  | .assign name _ => assigned.insert name
  | .run _ | .assignIf .. => assigned

end

def StepsScoped (formals : List String) : List String → List Stmt → Prop
  | _, [] => True
  | assigned, s :: rest => s.Scoped formals assigned ∧ StepsScoped formals (s.bind assigned) rest

/-- Every argument is read while it is a formal and nothing else. -/
structure Body.Scoped (formals : List String) (b : Body) : Prop where
  steps : StepsScoped formals [] b.steps
  result : b.result.Scoped formals (b.steps.foldl Stmt.bind [])

/-- One frame that holds the assigned names and, under all other names, the arguments. -/
def overlay (assigned : List String) (locals arguments : Env V) : Env V := fun name =>
  if name ∈ assigned then locals name else arguments name

theorem overlay_nil (locals arguments : Env V) : overlay [] locals arguments = arguments := by
  funext name
  exact if_neg List.not_mem_nil

theorem overlay_assign (assigned : List String) (locals arguments : Env V) (name : String)
    (value : Option V) :
    overlay (assigned.insert name) (Function.update locals name value) arguments =
      Function.update (overlay assigned locals arguments) name value := by
  funext other
  by_cases same : other = name
  · subst same
    simp [overlay]
  · simp [overlay, same]

section

variable {I} {formals assigned : List String} {locals caller : Env V}

mutual

theorem Expr.Scoped.eval_overlay : ∀ {e : Expr}, e.Scoped formals assigned →
    e.eval I (overlay assigned locals caller) (overlay assigned locals caller) =
      e.eval I caller locals
  | .argument _, h => if_neg h.2
  | .scratch _, h => if_pos h
  | .text _, _ => rfl
  | .call _ _, h => by rw [Expr.eval, Expr.eval, Expr.AllScoped.evalAll_overlay h]
  | .not operand, h => by rw [Expr.eval, Expr.eval, Expr.Scoped.eval_overlay (e := operand) h]

theorem Expr.AllScoped.evalAll_overlay : ∀ {operands : List Expr},
    Expr.AllScoped formals assigned operands →
    Expr.evalAll I (overlay assigned locals caller) (overlay assigned locals caller) operands =
      Expr.evalAll I caller locals operands
  | [], _ => rfl
  | _ :: _, h => by
    rw [Expr.evalAll, Expr.evalAll, Expr.Scoped.eval_overlay h.1,
      Expr.AllScoped.evalAll_overlay h.2]

end

theorem Stmt.Scoped.exec_overlay {s : Stmt} (h : s.Scoped formals assigned) :
    s.exec I (overlay assigned locals caller) (overlay assigned locals caller) =
      (s.exec I caller locals).map (overlay (s.bind assigned) · caller) := by
  cases s with
  | run e =>
      change e.Scoped formals assigned at h
      simp only [Stmt.exec, h.eval_overlay]
      cases e.eval I caller locals <;> rfl
  | assign name e =>
      change e.Scoped formals assigned at h
      simp only [Stmt.exec, h.eval_overlay]
      cases e.eval I caller locals with
      | none => rfl
      | some value => exact congrArg some (overlay_assign assigned locals caller name value).symm
  | assignIf condition name e =>
      obtain ⟨guard, known, value⟩ := h
      simp only [Stmt.exec, guard.eval_overlay, value.eval_overlay]
      cases condition.eval I caller locals with
      | none => rfl
      | some v =>
          dsimp only [Option.bind_eq_bind, Option.bind_some]
          cases I.truth v with
          | none => rfl
          | some taken =>
              cases taken with
              | false => rfl
              | true =>
                  cases e.eval I caller locals with
                  | none => rfl
                  | some value =>
                      have reassigned := overlay_assign assigned locals caller name value
                      rw [List.insert_of_mem known] at reassigned
                      exact congrArg some reassigned.symm

theorem StepsScoped.foldlM_overlay {steps : List Stmt} (h : StepsScoped formals assigned steps) :
    steps.foldlM (fun frame s => s.exec I frame frame) (overlay assigned locals caller) =
      (steps.foldlM (fun locals s => Stmt.exec I caller locals s) locals).map
        (overlay (steps.foldl Stmt.bind assigned) · caller) := by
  -- The single frame stays the overlay of the two environments, with the assigned names so far.
  induction steps generalizing assigned locals with
  | nil => rfl
  | cons s rest ih =>
      rw [List.foldlM_cons, List.foldlM_cons, h.1.exec_overlay]
      cases s.exec I caller locals with
      | none => rfl
      | some next => exact ih h.2

/-- With scopes as they should be it makes no difference that there is one frame only. -/
theorem Body.Scoped.eval_eq {b : Body} (h : b.Scoped formals) (I : Interpretation V)
    (caller : Env V) : b.eval I caller = b.evalApart I caller := by
  have start := overlay_nil (fun _ => none) caller
  rw [Body.eval, Body.evalApart, ← start, h.steps.foldlM_overlay, start]
  cases b.steps.foldlM (fun locals s => Stmt.exec I caller locals s) fun _ => none with
  | none => rfl
  | some locals => exact h.result.eval_overlay

end

end Wrapper

end ToolWrappers
