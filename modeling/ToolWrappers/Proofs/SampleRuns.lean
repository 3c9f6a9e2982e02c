import ToolWrappers.Proofs.Scoping
import ToolWrappers.Proofs.ScriptLines

/-! Which tools get a sample run, and that their wrappers take the call that it makes. -/

namespace ToolWrappers

namespace Tool

/-- A tool that has to be given an input and an output and takes nothing else but implicit options,
the verbosity switch among them. -/
structure TakesInputOutput (t : Tool) : Prop where
  required : (t.params.filter (·.default?.isNone)).map (·.name) = ["input", "output"]
  verbose : verboseOption ∈ t.params.map (·.name)
  implicit : ∀ p ∈ t.params, p.default?.isSome = true → p.name ∈ implicitOptions.map (·.name)

theorem isInputOutputOnly_iff {t : Tool} : t.isInputOutputOnly = true ↔ t.TakesInputOutput := by
  simp only [isInputOutputOnly, Bool.and_eq_true, decide_eq_true_eq, List.any_eq_true,
    List.all_eq_true, List.contains_iff_mem, List.mem_filter, and_imp]
  constructor
  · rintro ⟨⟨required, p, inside, same⟩, implicit⟩
    exact ⟨required, List.mem_map.mpr ⟨p, inside, same⟩, implicit⟩
  · rintro ⟨required, verbose, implicit⟩
    obtain ⟨p, inside, same⟩ := List.mem_map.mp verbose
    exact ⟨⟨required, p, inside, same⟩, implicit⟩

instance (t : Tool) : Decidable t.TakesInputOutput := decidable_of_iff _ isInputOutputOnly_iff

end Tool

namespace Wrapper

/-- A line that adds a flag whatever is given. -/
def isUnconditional (line : String) : Bool := Text.startsWith "  args <- paste(".toList line.toList

theorem isUnconditional_append (line : String) :
    isUnconditional ("  args <- paste(" ++ line) = true := by
  rw [isUnconditional, String.toList_append]
  exact Text.startsWith_append _ _

/-- The third character tells the lines of a wrapper apart. -/
theorem isUnconditional_append_of_getElem? {lead : String} {c : Char}
    (third : lead.toList[2]? = some c) (other : c ≠ 'a') (line : String) :
    isUnconditional (lead ++ line) = false := by
  cases found : isUnconditional (lead ++ line) with
  | false => rfl
  | true =>
      obtain ⟨rest, shape⟩ := Text.startsWith_iff.mp found
      have here : (lead ++ line).toList[2]? = some c := by
        rw [String.toList_append, List.getElem?_append_left (List.getElem?_eq_some_iff.mp third).1, third]
      rw [shape] at here
      exact absurd (Option.some.inj here).symm other

theorem filter_block (name : String) (rule : Forward) :
    (block name rule).filter isUnconditional = if rule = .always then block name .always else [] := by
  have closing : isUnconditional "  \x7d" = false := by decide
  cases rule with
  | always =>
      have opening : "  args <- paste(args, paste0(\"--" = "  args <- paste(" ++ "args, paste0(\"--" := rfl
      have flag : ∀ line ∈ block name .always, isUnconditional line = true := by
        intro line member
        rw [List.mem_singleton.mp member, opening]
        simp only [String.append_assoc]
        exact isUnconditional_append _
      rw [if_pos rfl, List.filter_eq_self.mpr flag]
  | ifTrue =>
      have guard : isUnconditional ("  if (" ++ name ++ ") \x7b") = false := by
        rw [String.append_assoc]
        exact isUnconditional_append_of_getElem? rfl (by decide) _
      have flag : isUnconditional ("    args <- paste(args, \"--" ++ name ++ "\")") = false := by
        rw [String.append_assoc]
        exact isUnconditional_append_of_getElem? rfl (by decide) _
      simp [block, guard, flag, closing]
  | ifNotNull =>
      have guard : isUnconditional ("  if (!is.null(" ++ name ++ ")) \x7b") = false := by
        rw [String.append_assoc]
        exact isUnconditional_append_of_getElem? rfl (by decide) _
      have flag : isUnconditional
          ("    args <- paste(args, paste0(\"--" ++ name ++ "=\", " ++ name ++ "))") = false := by
        simp only [String.append_assoc]
        exact isUnconditional_append_of_getElem? rfl (by decide) _
      simp [block, guard, flag, closing]
  | never => rfl

theorem rule_eq_always_iff {default? : Option Default} : rule default? = .always ↔ default? = none := by
  cases default? with
  | none => exact iff_of_true rfl rfl
  | some d => cases d <;> simp [rule]

theorem flatMap_flags_always (params : List Param) :
    (flags params).flatMap (fun f => (block f.1 f.2).filter isUnconditional) =
      (((params.filter (·.default?.isNone)).map (·.name)).filter (· ≠ verboseOption)).flatMap
        fun name => block name .always := by
  induction params with
  | nil => rfl
  | cons p params ih =>
      simp only [flags, filter_block, ne_eq, decide_not] at ih ⊢
      by_cases verbose : p.name = verboseOption
      · cases given : p.default? <;> simp [verbose, given, ih]
      · cases given : p.default? <;> simp [verbose, given, ih, rule_eq_always_iff]

theorem innerLines_eq (t : Tool) :
    innerLines t = ["  wbt_init()", "  args <- \"\""] ++
      ((flags t.params).flatMap fun f => block f.1 f.2) ++
      ["  tool_name <- \"" ++ t.command ++ "\"",
        "  wbt_run_tool(tool_name, args, " ++ verboseOption ++ ")", "\x7d", "", ""] := by
  have whole := lines_eq_cons t ""
  rw [lines, flatMap_forwardLines] at whole
  exact (List.cons.inj whole).2.symm

/-- The flags that are added in any case are those of the parameters without a default, the switch
of the runner apart. -/
theorem filter_tail_lines (t : Tool) (wrapper : String) :
    (lines t wrapper).tail.filter isUnconditional =
      (t.required.filter (· ≠ verboseOption)).flatMap fun name => block name .always := by
  have first : ["  wbt_init()", "  args <- \"\""].filter isUnconditional = [] := by decide +kernel
  have command : isUnconditional ("  tool_name <- \"" ++ t.command ++ "\"") = false := by
    rw [String.append_assoc]
    exact isUnconditional_append_of_getElem? rfl (by decide) _
  have last : ["  wbt_run_tool(tool_name, args, " ++ verboseOption ++ ")", "\x7d", "", ""].filter
      isUnconditional = [] := by decide +kernel
  rw [lines_eq_cons, List.tail_cons, innerLines_eq, List.filter_append, List.filter_append, first,
    List.filter_flatMap, flatMap_flags_always, List.filter_cons_of_neg (by simp [command]), last,
    List.nil_append, List.append_nil]
  rfl

end Wrapper

namespace Tool

/-- A wrapper takes a call that gives exactly these parameters: each is one formal of its head, all others
have a default, what its body adds in any case are their flags, and the body is scoped. -/
structure Accepts (t : Tool) (wrapper : String) (given : List String) : Prop where
  written : Wrapper.lines t wrapper =
    Wrapper.head wrapper t.params :: (Wrapper.body t).lines ++ ["\x7d", "", ""]
  once : ∀ name ∈ given, (t.params.map (·.name)).count name = 1
  defaults : ∀ p ∈ t.params, p.name ∉ given → p.default?.isSome = true
  forwarded : (Wrapper.lines t wrapper).tail.filter Wrapper.isUnconditional =
    given.flatMap fun name => Wrapper.block name .always
  scopes : (Wrapper.body t).Scoped (t.params.map (·.name))

theorem TakesInputOutput.name_mem {t : Tool} (h : t.TakesInputOutput) {p : Param}
    (inside : p ∈ t.params) :
    p.default? = none ∧ p.name ∈ ["input", "output"] ∨
      p.default?.isSome = true ∧ p.name ∈ implicitOptions.map (·.name) := by
  cases given : p.default? with
  | some d => exact .inr ⟨rfl, h.implicit p inside (by rw [given]; rfl)⟩
  | none =>
      have needed : p.name ∈ (t.params.filter (·.default?.isNone)).map (·.name) :=
        List.mem_map_of_mem (List.mem_filter.mpr ⟨inside, by rw [given]; rfl⟩)
      exact .inl ⟨rfl, h.required ▸ needed⟩

theorem TakesInputOutput.count_eq_one {t : Tool} (h : t.TakesInputOutput) {name : String}
    (member : name ∈ ["input", "output"]) : (t.params.map (·.name)).count name = 1 := by
  have parts := (List.filter_append_perm (fun p : Param => p.default?.isNone) t.params).map (·.name)
  have defaulted : name ∉ (t.params.filter fun p => !p.default?.isNone).map (·.name) := by
    intro there
    obtain ⟨p, inside, rfl⟩ := List.mem_map.mp there
    obtain ⟨inside, given⟩ := List.mem_filter.mp inside
    have known := h.implicit p inside (by simpa using given)
    have other : ∀ name ∈ ["input", "output"], name ∉ implicitOptions.map (·.name) := by decide
    exact other p.name member known
  rw [← parts.count_eq, List.map_append, h.required, List.count_append,
    List.count_eq_zero.mpr defaulted]
  have single : ∀ name ∈ ["input", "output"], ["input", "output"].count name = 1 := by decide
  exact single name member

theorem TakesInputOutput.accepts {t : Tool} (h : t.TakesInputOutput) (wrapper : String) :
    t.Accepts wrapper ["input", "output"] := by
  constructor
  case written => exact Wrapper.lines_eq t wrapper
  case once => exact fun name => h.count_eq_one
  case defaults =>
    intro p inside other
    rcases h.name_mem inside with ⟨_, needed⟩ | ⟨given, _⟩
    · exact absurd needed other
    · exact given
  case forwarded =>
    have needed : t.required = ["input", "output"] := h.required
    rw [Wrapper.filter_tail_lines, needed]
    rfl
  case scopes =>
    refine (Wrapper.scoped_body_iff t).mpr ⟨h.verbose, fun member => ?_⟩
    obtain ⟨p, inside, same⟩ := List.mem_map.mp member
    rcases h.name_mem inside with ⟨_, known⟩ | ⟨_, known⟩
    · exact absurd (same ▸ known) (by decide)
    · exact absurd (same ▸ known) (by decide)

end Tool

namespace Roxygen

/-- The call of an examples block at the head of these lines. -/
def sampleCall? : List String → Option String
  | first :: second :: _ :: call :: _ =>
    if first = mark "@examples" ∧ second = mark "\\dontrun\x7b" then some call else none
  | _ => none

/-- The calls of all examples blocks among these lines. -/
def sampleCalls : List String → List String
  | [] => []
  | line :: rest => (sampleCall? (line :: rest)).toList ++ sampleCalls rest

theorem sampleCalls_cons_of_ne {line : String} (other : line ≠ mark "@examples")
    (rest : List String) : sampleCalls (line :: rest) = sampleCalls rest := by
  have nothing : sampleCall? (line :: rest) = none := by
    rcases rest with _ | ⟨_, _ | ⟨_, _ | ⟨_, _⟩⟩⟩ <;> simp [sampleCall?, other]
  rw [sampleCalls, nothing]
  rfl

/-- A line that could begin a block does not if an empty comment follows. -/
theorem sampleCalls_cons_emptyLine (line : String) (rest : List String) :
    sampleCalls (line :: emptyLine :: rest) = sampleCalls (emptyLine :: rest) := by
  have other : emptyLine ≠ mark "\\dontrun\x7b" := by decide
  have nothing : sampleCall? (line :: emptyLine :: rest) = none := by
    rcases rest with _ | ⟨_, _ | ⟨_, _⟩⟩ <;> simp [sampleCall?, other]
  rw [sampleCalls, nothing]
  rfl

theorem sampleCalls_append_of_ne {lines : List String} (others : ∀ line ∈ lines, line ≠ mark "@examples")
    (rest : List String) : sampleCalls (lines ++ rest) = sampleCalls rest := by
  induction lines with
  | nil => rfl
  | cons line lines ih =>
      rw [List.cons_append, sampleCalls_cons_of_ne (others line List.mem_cons_self)]
      exact ih fun other member => others other (List.mem_cons_of_mem line member)

theorem mark_param_ne (param : String) : mark ("@param " ++ param) ≠ mark "@examples" := by
  intro same
  have letter := congrArg (fun line : String => line.toList[4]?) same
  simp [mark, String.toList_append] at letter

theorem append_ne_of_getLast? {tail : String} {c : Char} (last : tail.toList.getLast? = some c)
    (other : c ≠ 's') (line : String) : line ++ tail ≠ mark "@examples" := by
  intro same
  have ends := congrArg (fun line : String => line.toList.getLast?) same
  simp only [String.toList_append, List.getLast?_append, last, Option.some_or] at ends
  exact other (Option.some.inj ends)

/-- A title or a summary may look like the start of a block, but no block follows it. -/
theorem sampleCalls_lines (t : Tool) (rest : List String) :
    sampleCalls (lines t none ++ rest) = sampleCalls rest := by
  have empty : emptyLine ≠ mark "@examples" := by decide
  have params : ∀ line ∈ (t.doc.params ++ implicitParams).map (fun p => mark ("@param " ++ p)),
      line ≠ mark "@examples" := by
    intro line member
    obtain ⟨text, _, rfl⟩ := List.mem_map.mp member
    exact mark_param_ne text
  have last : ∀ line ∈ [emptyLine, mark "@return Returns the tool text outputs.", mark "@export"],
      line ≠ mark "@examples" := by decide
  rw [lines, List.append_nil]
  simp only [List.append_assoc, List.cons_append, List.nil_append]
  rw [sampleCalls_cons_emptyLine, sampleCalls_cons_of_ne empty]
  cases t.doc.summary with
  | none =>
      rw [List.nil_append, sampleCalls_append_of_ne params]
      exact sampleCalls_append_of_ne last rest
  | some summary =>
      simp only [List.cons_append, List.nil_append]
      rw [sampleCalls_cons_emptyLine, sampleCalls_cons_of_ne empty, sampleCalls_append_of_ne params]
      exact sampleCalls_append_of_ne last rest

theorem sampleCalls_exampleLines (wrapper : String) (rest : List String) :
    sampleCalls (exampleLines wrapper ++ rest) = sampleLine wrapper :: sampleCalls rest := by
  have before : ∀ line ∈ [mark "\\dontrun\x7b",
      mark "dem <- system.file(\"extdata\", \"DEM.tif\", package=\"whitebox\")"],
      line ≠ mark "@examples" := by decide +kernel
  have call : sampleLine wrapper ≠ mark "@examples" := by
    rw [sampleLine, mark, ← String.append_assoc]
    exact append_ne_of_getLast? (c := ')') (by decide +kernel) (by decide) _
  have block : sampleCalls (exampleLines wrapper ++ rest) =
      sampleLine wrapper :: sampleCalls ((exampleLines wrapper ++ rest).drop 2) := by
    change sampleCalls (emptyLine :: mark "@examples" :: mark "\\dontrun\x7b" :: _ ::
      sampleLine wrapper :: _) = _
    rw [sampleCalls_cons_of_ne (by decide), sampleCalls, sampleCall?, if_pos ⟨rfl, rfl⟩]
    rfl
  rw [block]
  refine congrArg _ ?_
  change sampleCalls ([_, _] ++ sampleLine wrapper :: mark "\x7d" :: rest) = _
  rw [sampleCalls_append_of_ne before, sampleCalls_cons_of_ne call, sampleCalls_cons_of_ne (by decide)]

end Roxygen

theorem Wrapper.ne_examples_of_mem_lines {t : Tool} {wrapper line : String}
    (member : line ∈ lines t wrapper) : line ≠ Roxygen.mark "@examples" := by
  rw [lines_eq_cons] at member
  rcases List.mem_cons.mp member with rfl | inner
  · exact Roxygen.append_ne_of_getLast? (c := '\x7b') (by decide) (by decide) _
  · rintro rfl
    rcases head?_of_mem_innerLines inner with first | first | empty
    · exact absurd first (by decide)
    · exact absurd first (by decide)
    · exact absurd empty (by decide)

/-- A test file for a wrapper: it has the wrapper in its name, and one of its lines calls the wrapper with
an input and an output. -/
structure GeneratedFile.Tests (file : GeneratedFile) (wrapper : String) : Prop where
  named : file.name = "test-" ++ wrapper ++ ".R"
  calls : ∃ before after, file.contents = Text.unlines (before ++
    ("  ret <- " ++ wrapper ++ "(input = dem, output = \"output.tif\")") :: after)

/-- Whether a tool of a section gets sample runs of a kind that leaves out these commands. -/
def Section.Samples (s : Section) (excluded : List String) (t : Tool) : Prop :=
  s.examples = true ∧ t.TakesInputOutput ∧ t.command ∉ excluded

instance (s : Section) (excluded : List String) (t : Tool) : Decidable (s.Samples excluded t) :=
  inferInstanceAs (Decidable (_ ∧ _ ∧ _))

namespace Generated

variable {settings : Settings} {s : Section}

theorem test_tests (settings : Settings) (t : Tool) :
    (test settings t).Tests (settings.wrapperName t.command) := by
  let wrapper := settings.wrapperName t.command
  have parts : TestStub.lines t wrapper = (TestStub.lines t wrapper).take 7 ++
      ("  ret <- " ++ wrapper ++ "(input = dem, output = \"output.tif\")") ::
        (TestStub.lines t wrapper).drop 8 := rfl
  exact ⟨rfl, _, _, congrArg Text.unlines parts⟩

theorem hasSampleRun_and (s : Section) (excluded : List String) (t : Tool) :
    (hasSampleRun s t && !excluded.contains t.command) = decide (s.Samples excluded t) := by
  rw [Bool.eq_iff_iff, decide_eq_true_iff]
  simp [hasSampleRun, Tool.isInputOutputOnly_iff, Section.Samples, and_assoc]

theorem sampleCalls_toolLines (settings : Settings) (s : Section) (t : Tool) (rest : List String) :
    Roxygen.sampleCalls (toolLines settings s t ++ rest) =
      (if s.Samples settings.exampleExclusions t then
        [Roxygen.sampleLine (settings.wrapperName t.command)] else []) ++ Roxygen.sampleCalls rest := by
  have code : Roxygen.sampleCalls (Wrapper.lines t (settings.wrapperName t.command) ++ rest) =
      Roxygen.sampleCalls rest :=
    Roxygen.sampleCalls_append_of_ne (fun _ => Wrapper.ne_examples_of_mem_lines) rest
  rw [Wrapper.lines_eq_cons] at code
  rw [toolLines_eq, List.append_assoc, List.append_assoc, Roxygen.sampleCalls_lines, sample?,
    Settings.wantsExample, hasSampleRun_and]
  by_cases chosen : s.Samples settings.exampleExclusions t
  · rw [if_pos chosen, if_pos (decide_eq_true chosen), Option.elim_some,
      Roxygen.sampleCalls_exampleLines, code]
    rfl
  · rw [if_neg chosen, if_neg (by simp [chosen]), Option.elim_none, List.nil_append, List.nil_append,
      code]

theorem sampleCalls_scriptLines (settings : Settings) (s : Section) :
    Roxygen.sampleCalls (scriptLines settings s) =
      (s.tools.filter (s.Samples settings.exampleExclusions ·)).map fun t =>
        Roxygen.sampleLine (settings.wrapperName t.command) := by
  rw [scriptLines]
  induction s.tools with
  | nil => rfl
  | cons t tools ih =>
      rw [List.flatMap_cons, sampleCalls_toolLines, ih]
      by_cases chosen : s.Samples settings.exampleExclusions t <;> simp [chosen]

theorem testedTools_eq (settings : Settings) (s : Section) :
    testedTools settings s = s.tools.filter (s.Samples settings.testExclusions ·) := by
  rw [testedTools]
  exact List.filter_congr fun t _ => hasSampleRun_and s settings.testExclusions t

end Generated

/-- The sample runs of a catalogue: test files and examples blocks stand for the tools that take an
input and an output and are not excluded, in order, each calls the wrapper of its tool, and the wrappers
take such a call. -/
structure Catalogue.SampleRuns (settings : Settings) (c : Catalogue) : Prop where
  scripts : (Generated.ofCatalogue settings c).scripts.map (·.contents) =
    c.sections.map fun s => Text.unlines (Generated.scriptLines settings s)
  tests : (Generated.ofCatalogue settings c).tests =
    (c.sections.flatMap fun s => s.tools.filter (s.Samples settings.testExclusions ·)).map
      (Generated.test settings)
  stubs : ∀ t, (Generated.test settings t).Tests (settings.wrapperName t.command)
  examples : ∀ s ∈ c.sections, Roxygen.sampleCalls (Generated.scriptLines settings s) =
    (s.tools.filter (s.Samples settings.exampleExclusions ·)).map fun t =>
      Roxygen.sampleLine (settings.wrapperName t.command)
  valid : ∀ t ∈ c.tools, t.TakesInputOutput →
    t.Accepts (settings.wrapperName t.command) ["input", "output"]

-- The input comes first, and a parameter of its own keeps a tool from sample runs.
example : ¬ Tool.TakesInputOutput
    ⟨"f", "f", 1, ⟨"output", none⟩ :: ⟨"input", none⟩ :: implicitOptions, {}⟩ := by decide

example : ¬ Tool.TakesInputOutput
    ⟨"f", "f", 1, ⟨"input", none⟩ :: ⟨"output", none⟩ :: ⟨"order", some (.literal "1")⟩ ::
      implicitOptions, {}⟩ := by decide

end ToolWrappers
