import ToolWrappers.Proofs.Filing
import ToolWrappers.Proofs.WrapperBody
import ToolWrappers.Proofs.WrapperText

/-! Whose values a wrapper hands to the runner: the caller's, if its parameters hold the verbosity
switch and leave the name under which the flags are collected alone. -/

namespace ToolWrappers

namespace Wrapper

variable {V : Type} (I : Interpretation V)

/-! ### What a wrapper is to hand over -/

/-- The flags so far, with the caller's value of one more parameter by its rule. -/
def forwardValue (caller : Env V) (line : V) (p : Param) : Option V :=
  match p.forward with
  | .always => do
    let path ← I.apply "wbt_file_path" [← caller p.name]
    I.apply "paste" [line, ← I.apply "paste0" [I.text ("--" ++ p.name ++ "="), path]]
  | .ifTrue => do
    if ← I.truth (← caller p.name) then I.apply "paste" [line, I.text ("--" ++ p.name)]
    else return line
  | .ifNotNull => do
    let value ← caller p.name
    if ← I.truth (← I.apply "!" [← I.apply "is.null" [value]]) then
      I.apply "paste" [line, ← I.apply "paste0" [I.text ("--" ++ p.name ++ "="), value]]
    else return line
  | .never => return line

/-- The runner gets the command, the flags of the caller's values, and the caller's verbosity. -/
def handOver (caller : Env V) (t : Tool) : Option V := do
  let _ ← I.apply "wbt_init" []
  let line ← t.params.foldlM (forwardValue I caller) (I.text "")
  I.apply "wbt_run_tool" [I.text t.command, line, ← caller verboseOption]

def collecting (line : V) : Env V := Function.update (fun _ => none) "args" (some line)

section

variable {I} {caller : Env V}

theorem collecting_args (line : V) : collecting line "args" = some line :=
  Function.update_self ..

theorem update_collecting (line next : V) :
    Function.update (collecting line) "args" (some next) = collecting next :=
  Function.update_idem ..

theorem exec_assign_addFlag (flag : Expr) (line : V) :
    (Stmt.assign "args" (addFlag flag)).exec I caller (collecting line) = (do
      let next ← flag.eval I caller (collecting line)
      collecting <$> I.apply "paste" [line, next]) := by
  simp only [addFlag, Stmt.exec, Expr.eval, Expr.evalAll, collecting_args, update_collecting]
  cases flag.eval I caller (collecting line) with
  | none => rfl
  | some next => exact bind_pure_comp ..

theorem exec_assignIf_addFlag (condition flag : Expr) (line : V) :
    (Stmt.assignIf condition "args" (addFlag flag)).exec I caller (collecting line) = (do
      if ← I.truth (← condition.eval I caller (collecting line)) then
        (Stmt.assign "args" (addFlag flag)).exec I caller (collecting line)
      else return collecting line) := rfl

theorem eval_flagWith (name : String) (value : Expr) (locals : Env V) :
    (flagWith name value).eval I caller locals = (do
      let value ← value.eval I caller locals
      I.apply "paste0" [I.text ("--" ++ name ++ "="), value]) := by
  simp only [flagWith, Expr.eval, Expr.evalAll]
  cases value.eval I caller locals <;> rfl

theorem eval_call_argument (function name : String) (locals : Env V) :
    (Expr.call function [.argument name]).eval I caller locals = (do
      let value ← caller name
      I.apply function [value]) := by
  simp only [Expr.eval, Expr.evalAll]
  cases caller name <;> rfl

theorem eval_not (operand : Expr) (locals : Env V) :
    operand.not.eval I caller locals = (do
      let value ← operand.eval I caller locals
      I.apply "!" [value]) := rfl

theorem foldlM_forwardSteps (p : Param) (line : V) :
    (forwardSteps p).foldlM (fun locals s => s.exec I caller locals) (collecting line) =
      collecting <$> forwardValue I caller line p := by
  unfold forwardSteps forwardValue
  cases p.forward with
  | always =>
      simp only [List.foldlM_cons, List.foldlM_nil, bind_pure, exec_assign_addFlag, eval_flagWith,
        eval_call_argument, bind_assoc, map_bind]
  | ifTrue =>
      simp only [List.foldlM_cons, List.foldlM_nil, bind_pure, exec_assignIf_addFlag,
        exec_assign_addFlag, map_bind]
      refine congrArg _ (funext fun value => congrArg _ (funext fun taken => ?_))
      cases taken <;> rfl
  | ifNotNull =>
      simp only [List.foldlM_cons, List.foldlM_nil, bind_pure, exec_assignIf_addFlag,
        exec_assign_addFlag, eval_flagWith, eval_not, eval_call_argument, bind_assoc, map_bind]
      rw [Expr.eval]
      cases caller p.name with
      | none => rfl
      | some value =>
          refine congrArg (I.apply "is.null" [value] >>= ·) (funext fun absent => ?_)
          refine congrArg _ (funext fun given => congrArg _ (funext fun taken => ?_))
          cases taken with
          | false => rfl
          | true =>
              rw [if_pos rfl, if_pos rfl, map_bind]
              rfl
  | never => rfl

theorem foldlM_flatMap_forwardSteps (params : List Param) (line : V) :
    (params.flatMap forwardSteps).foldlM (fun locals s => s.exec I caller locals)
        (collecting line) =
      collecting <$> params.foldlM (forwardValue I caller) line := by
  induction params generalizing line with
  | nil => rfl
  | cons p params ih =>
      rw [List.flatMap_cons, List.foldlM_append, foldlM_forwardSteps, List.foldlM_cons]
      cases forwardValue I caller line p with
      | none => rfl
      | some next => exact ih next

theorem exec_start (I : Interpretation V) (arguments : Env V → Env V) (locals : Env V) :
    [.run (.call "wbt_init" []), .assign "args" (.text "")].foldlM
        (fun locals s => Stmt.exec I (arguments locals) locals s) locals =
      (I.apply "wbt_init" []).map fun _ => Function.update locals "args" (some (I.text "")) := by
  simp only [List.foldlM_cons, List.foldlM_nil, Stmt.exec, Expr.eval, Expr.evalAll]
  change (I.apply "wbt_init" [] >>= _) >>= _ = _
  cases I.apply "wbt_init" [] <;> rfl

theorem eval_result (command line : V) (caller : Env V) :
    (Expr.call "wbt_run_tool"
      [.scratch "tool_name", .scratch "args", .argument verboseOption]).eval I caller
        (Function.update (collecting line) "tool_name" (some command)) = (do
      let verbose ← caller verboseOption
      I.apply "wbt_run_tool" [command, line, verbose]) := by
  have args : Function.update (collecting line) "tool_name" (some command) "args" = some line :=
    (Function.update_of_ne (by decide) ..).trans (collecting_args line)
  simp only [Expr.eval, Expr.evalAll, Function.update_self, args]
  cases caller verboseOption <;> rfl

/-- With its locals kept apart a wrapper does what it is to do. -/
theorem evalApart_body (I : Interpretation V) (caller : Env V) (t : Tool) :
    (body t).evalApart I caller = handOver I caller t := by
  rw [Body.evalApart, body, handOver, List.foldlM_append, List.foldlM_append,
    exec_start I fun _ => caller]
  cases I.apply "wbt_init" [] with
  | none => rfl
  | some started =>
      rw [Option.map_some]
      change ((t.params.flatMap forwardSteps).foldlM _ (collecting (I.text "")) >>= _) >>= _ =
        t.params.foldlM (forwardValue I caller) (I.text "") >>= _
      rw [foldlM_flatMap_forwardSteps]
      cases t.params.foldlM (forwardValue I caller) (I.text "") with
      | none => rfl
      | some line => exact eval_result ..

end

/-! ### Which wrappers are scoped -/

section

variable {formals assigned : List String} {params : List Param}

theorem stepsScoped_append {steps later : List Stmt} :
    StepsScoped formals assigned (steps ++ later) ↔
      StepsScoped formals assigned steps ∧
        StepsScoped formals (steps.foldl Stmt.bind assigned) later := by
  induction steps generalizing assigned with
  | nil => simp only [List.nil_append, StepsScoped, true_and, List.foldl_nil]
  | cons s rest ih => rw [List.cons_append, StepsScoped, StepsScoped, ih, and_assoc, List.foldl_cons]

theorem foldl_bind_forwardSteps (p : Param) :
    (forwardSteps p).foldl Stmt.bind ["args"] = ["args"] := by
  unfold forwardSteps
  cases p.forward <;> rfl

theorem stepsScoped_forwardSteps (p : Param) :
    StepsScoped formals ["args"] (forwardSteps p) ↔
      (p.name ≠ verboseOption → p.name ∈ formals ∧ p.name ≠ "args") := by
  by_cases verbose : p.name = verboseOption
  · have silent : p.forward = .never := if_pos verbose
    simp [forwardSteps, silent, StepsScoped, verbose]
  · have spoken : p.forward ≠ .never := forward_of_ne verbose ▸ rule_ne_never p.default?
    unfold forwardSteps
    cases rule : p.forward with
    | never => exact absurd rule spoken
    | always | ifTrue | ifNotNull =>
        simp [StepsScoped, Stmt.Scoped, Expr.Scoped, Expr.AllScoped, addFlag, flagWith, verbose]

theorem stepsScoped_flatMap_forwardSteps :
    StepsScoped formals ["args"] (params.flatMap forwardSteps) ↔
      ∀ p ∈ params, p.name ≠ verboseOption → p.name ∈ formals ∧ p.name ≠ "args" := by
  induction params with
  | nil => simp [StepsScoped]
  | cons p params ih =>
      rw [List.flatMap_cons, stepsScoped_append, foldl_bind_forwardSteps, stepsScoped_forwardSteps,
        ih, List.forall_mem_cons]

theorem foldl_bind_flatMap_forwardSteps :
    (params.flatMap forwardSteps).foldl Stmt.bind ["args"] = ["args"] := by
  induction params with
  | nil => rfl
  | cons p params ih => rw [List.flatMap_cons, List.foldl_append, foldl_bind_forwardSteps, ih]

/-- The verbosity switch has to be a parameter, and no parameter may have the name under which the
flags are collected. -/
theorem scoped_body_iff (t : Tool) :
    (body t).Scoped (t.params.map (·.name)) ↔
      verboseOption ∈ t.params.map (·.name) ∧ "args" ∉ t.params.map (·.name) := by
  have assigned : (body t).steps.foldl Stmt.bind [] = ["tool_name", "args"] := by
    rw [body, List.foldl_append, List.foldl_append]
    exact congrArg (Stmt.bind · (.assign "tool_name" (.text t.command)))
      foldl_bind_flatMap_forwardSteps
  have steps : StepsScoped (t.params.map (·.name)) [] (body t).steps ↔
      "args" ∉ t.params.map (·.name) := by
    rw [body, stepsScoped_append, stepsScoped_append]
    constructor
    · rintro ⟨⟨-, flags⟩, -⟩ member
      obtain ⟨p, inside, same⟩ := List.mem_map.mp member
      have spoken : p.name ≠ verboseOption := same ▸ (by decide)
      exact (stepsScoped_flatMap_forwardSteps.mp flags p inside spoken).2 same
    · intro free
      have flags : ∀ p ∈ t.params, p.name ≠ verboseOption →
          p.name ∈ t.params.map (·.name) ∧ p.name ≠ "args" := by
        intro p inside _
        have named : p.name ∈ t.params.map (·.name) := List.mem_map_of_mem inside
        exact ⟨named, fun same => free (same ▸ named)⟩
      exact ⟨⟨⟨trivial, trivial, trivial⟩, stepsScoped_flatMap_forwardSteps.mpr flags⟩,
        trivial, trivial⟩
  have result : (body t).result.Scoped (t.params.map (·.name)) ["tool_name", "args"] ↔
      verboseOption ∈ t.params.map (·.name) := by
    simp [body, Expr.Scoped, Expr.AllScoped, verboseOption]
  constructor
  · intro h
    exact ⟨result.mp (assigned ▸ h.result), steps.mp h.steps⟩
  · rintro ⟨verbose, free⟩
    exact ⟨steps.mpr free, assigned.symm ▸ result.mpr verbose⟩

end

/-! ### What a wrapper makes of other parameters -/

def Stmt.target? : Stmt → Option String
  | .run _ => none
  | .assign name _ | .assignIf _ name _ => some name

section

variable {I} {arguments locals next caller : Env V} {name : String}

theorem Stmt.exec_kept {s : Stmt} (other : s.target? ≠ some name)
    (h : s.exec I arguments locals = some next) : next name = locals name := by
  cases s with
  | run e =>
      obtain ⟨_, _, same⟩ := Option.bind_eq_some_iff.mp h
      cases same
      rfl
  | assign target e =>
      obtain ⟨value, _, same⟩ := Option.bind_eq_some_iff.mp h
      cases same
      exact Function.update_of_ne (fun same => other (congrArg some same.symm)) ..
  | assignIf condition target e =>
      obtain ⟨v, _, h⟩ := Option.bind_eq_some_iff.mp h
      obtain ⟨taken, _, h⟩ := Option.bind_eq_some_iff.mp h
      cases taken with
      | false =>
          cases h
          rfl
      | true =>
          obtain ⟨value, _, same⟩ := Option.bind_eq_some_iff.mp h
          cases same
          exact Function.update_of_ne (fun same => other (congrArg some same.symm)) ..

theorem foldlM_exec_kept {steps : List Stmt} (others : ∀ s ∈ steps, s.target? ≠ some name)
    (h : steps.foldlM (fun frame s => s.exec I frame frame) locals = some next) :
    next name = locals name := by
  induction steps generalizing locals with
  | nil =>
      cases h
      rfl
  | cons s rest ih =>
      obtain ⟨between, first, later⟩ := Option.bind_eq_some_iff.mp h
      rw [ih (fun other member => others other (List.mem_cons_of_mem s member)) later]
      exact s.exec_kept (others s List.mem_cons_self) first

theorem target?_of_mem_forwardSteps {p : Param} {s : Stmt} (h : s ∈ forwardSteps p) :
    s.target? = some "args" := by
  unfold forwardSteps at h
  split at h
  · rw [List.mem_singleton.mp h, Stmt.target?]
  · rw [List.mem_singleton.mp h, Stmt.target?]
  · rw [List.mem_singleton.mp h, Stmt.target?]
  · cases h

theorem target?_of_mem_steps {t : Tool} {s : Stmt} (h : s ∈ (body t).steps) :
    s.target? ≠ some verboseOption := by
  rcases List.mem_append.mp h with before | last
  · rcases List.mem_append.mp before with first | flag
    · rcases first with _ | ⟨_, _ | ⟨_, first⟩⟩
      · nofun
      · rw [Stmt.target?]
        decide
      · cases first
    · obtain ⟨p, _, inside⟩ := List.mem_flatMap.mp flag
      rw [target?_of_mem_forwardSteps inside]
      decide
  · rw [List.mem_singleton.mp last, Stmt.target?]
    decide

theorem eval_body_of_unbound (t : Tool) (unbound : caller verboseOption = none) :
    (body t).eval I caller = none := by
  rw [Body.eval, Option.bind_eq_bind, Option.bind_eq_none_iff]
  intro frame ran
  have still : frame verboseOption = none :=
    (foldlM_exec_kept (fun s member => target?_of_mem_steps member) ran).trans unbound
  simp only [body, Expr.eval, Expr.evalAll, still]
  cases frame "tool_name" with
  | none => rfl
  | some command => cases frame "args" <;> rfl

/-- A value for a parameter of the name `args` is lost, whatever it is. -/
theorem eval_body_update_args (t : Tool) (value : Option V) :
    (body t).eval I (Function.update caller "args" value) = (body t).eval I caller := by
  simp only [Body.eval, body, List.foldlM_append]
  rw [exec_start I fun frame => frame, exec_start I fun frame => frame, Function.update_idem]

end

/-- Whose values the wrapper of a tool hands over. -/
structure Scopes (t : Tool) (wrapper : String) : Prop where
  named : ∀ p ∈ t.params, Text.isName p.name.toList = true
  written : lines t wrapper = head wrapper t.params :: (body t).lines ++ ["\x7d", "", ""]
  scoped_iff : (body t).Scoped (t.params.map (·.name)) ↔
    verboseOption ∈ t.params.map (·.name) ∧ "args" ∉ t.params.map (·.name)
  faithful : (body t).Scoped (t.params.map (·.name)) →
    ∀ {V : Type} (I : Interpretation V) (caller : Env V),
      (body t).eval I caller = handOver I caller t
  unbound : ∀ {V : Type} (I : Interpretation V) (caller : Env V),
    caller verboseOption = none → (body t).eval I caller = none
  replaced : ∀ {V : Type} (I : Interpretation V) (caller : Env V) (value : Option V),
    (body t).eval I (Function.update caller "args" value) = (body t).eval I caller

end Wrapper

open Wrapper in
/-- A wrapper hands over the caller's values if the verbosity switch is a parameter and `args` is
not. Otherwise it has no result for want of a verbosity, or loses what `args` was given. -/
theorem wrapper_scopes {settings : Settings} {text : String} {c : Catalogue}
    (h : Catalogue.read settings text = .ok c) {t : Tool} (member : t ∈ c.tools)
    (wrapper : String) : Scopes t wrapper := by
  obtain ⟨before, line, rest, number, length, _, read⟩ := Catalogue.exists_readTool h member
  obtain ⟨d, doc, accepted, _, rfl⟩ := Item.readTool_eq_ok read
  refine ⟨(Definition.wellNamed_of_read? accepted).params, lines_eq _ wrapper, scoped_body_iff _, ?_,
    fun I caller => eval_body_of_unbound _, fun I caller => eval_body_update_args _⟩
  intro tidy V I caller
  rw [tidy.eval_eq I caller, evalApart_body]

/-- R on texts. Conditions are written out, and the runner gives the command line back. -/
def Wrapper.texts : Wrapper.Interpretation String where
  text contents := contents
  apply
    | "wbt_init", [] => some ""
    | "wbt_file_path", [path] => some path
    | "paste", [first, second] => some (first ++ " " ++ second)
    | "paste0", [first, second] => some (first ++ second)
    | "is.null", [value] => some (if value = "NULL" then "TRUE" else "FALSE")
    | "!", [value] => some (if value = "TRUE" then "FALSE" else "TRUE")
    | "wbt_run_tool", [command, flags, _] => some (command ++ flags)
    | _, _ => none
  truth
    | "TRUE" => some true
    | "FALSE" => some false
    | _ => none

def Wrapper.giving (values : List (String × String)) : Wrapper.Env String := fun name =>
  values.lookup name

def oneToolLines (definition : String) : List String :=
  ["# Data Tools #", definition, "\"\"\"Reads.\"\"\""]

def oneToolCatalogue (name : String) (params : List Param) : Catalogue where
  sections := [⟨"# Data Tools #", "data_tools.R", false,
    [⟨name, name, 2, params, { summary := some "Reads." }⟩]⟩]

open Wrapper in
theorem slope_scopes :
    ∃ c t, Catalogue.read { skipLines := 0 }
        (Text.unlines (oneToolLines "def slope(self, dem, units=None, callback=None):")) = .ok c ∧
      c.tools = [t] ∧ Scopes t "wbt_slope" ∧ (body t).Scoped (t.params.map (·.name)) ∧
      (body t).eval texts (giving [("dem", "a.tif"), ("units", "radians"), ("wd", "NULL"),
        ("verbose_mode", "FALSE"), ("compress_rasters", "TRUE")]) =
          some "slope --dem=a.tif --units=radians --compress_rasters" := by
  have accepted : Catalogue.read { skipLines := 0 }
      (Text.unlines (oneToolLines "def slope(self, dem, units=None, callback=None):")) =
        .ok (oneToolCatalogue "slope"
          ([⟨"dem", none⟩, ⟨"units", some .null⟩] ++ implicitOptions)) := by
    rw [Catalogue.read_unlines _ (by decide +kernel)]
    decide +kernel
  have scopes := wrapper_scopes accepted List.mem_cons_self "wbt_slope"
  have tidy := scopes.scoped_iff.mpr (by decide +kernel)
  refine ⟨_, _, accepted, rfl, scopes, tidy, ?_⟩
  rw [scopes.faithful tidy]
  decide +kernel

open Wrapper in
/-- A wrapper that reads a verbosity nobody can give, and one that loses what it is given. -/
theorem unscoped_wrappers :
    (∃ c t, Catalogue.read { skipLines := 0 }
          (Text.unlines (oneToolLines "def list_bands(self, i):")) = .ok c ∧
        c.tools = [t] ∧ verboseOption ∉ t.params.map (·.name) ∧
        ¬ (body t).Scoped (t.params.map (·.name)) ∧
        (body t).eval texts (giving [("input", "a.tif")]) = none) ∧
      ∃ c t, Catalogue.read { skipLines := 0 }
          (Text.unlines (oneToolLines "def run_tool(self, args, callback=None):")) = .ok c ∧
        c.tools = [t] ∧ ¬ (body t).Scoped (t.params.map (·.name)) ∧
        (body t).eval texts (giving [("args", "a.tif"), ("wd", "NULL"), ("verbose_mode", "FALSE"),
          ("compress_rasters", "FALSE")]) = some "run_tool --args=" := by
  constructor
  · refine ⟨oneToolCatalogue "list_bands" [⟨"input", none⟩], _, ?_, rfl, by decide, ?_,
      by decide +kernel⟩
    · rw [Catalogue.read_unlines _ (by decide +kernel)]
      decide +kernel
    · rw [scoped_body_iff]
      decide
  · refine ⟨oneToolCatalogue "run_tool" (⟨"args", none⟩ :: implicitOptions), _, ?_, rfl, ?_,
      by decide +kernel⟩
    · rw [Catalogue.read_unlines _ (by decide +kernel)]
      decide +kernel
    · rw [scoped_body_iff]
      decide

end ToolWrappers
