import ToolWrappers.CommandLine.Run
import ToolWrappers.Proofs.ScriptLines
import ToolWrappers.Proofs.TreeActions

/-! The signatures that are listed for a catalogue are the heads of the wrappers in its scripts. A head
is found by its shape alone, so nothing else in a script may have it. -/

namespace ToolWrappers

namespace Wrapper

/-- A line that is not empty, no comment, not indented and no closing brace. -/
def isHead (line : List Char) : Bool :=
  !line.isEmpty && !Roxygen.isComment line && line.head? != some ' ' && line.head? != some '\x7d'

/-- The head of the wrapper for a signature: an assignment takes the place of the bare name. -/
def headOf (lead signature : String) : String :=
  lead ++ .ofList (Text.replaceFirst ['('] " <- function(".toList signature.toList) ++ " \x7b"

theorem headOf_signature (lead : String) {t : Tool} (called : Text.isName t.command.toList = true) :
    headOf lead t.signature = head (lead ++ t.command) t.params := by
  have shape : t.signature.toList =
      t.command.toList ++ (['('] ++ ((Param.formals t.params).toList ++ [')'])) := by
    simp [Tool.signature, String.toList_append]
  have unnamed : '(' ∉ t.command.toList :=
    Text.not_mem_of_named (Text.isName_iff.mp called).2 (by decide)
  have cut : Text.cut? ['('] t.signature.toList =
      some (t.command.toList, (Param.formals t.params).toList ++ [')']) := by
    rw [shape]
    exact Text.cut?_append_of_not_mem unnamed _
  rw [← String.toList_inj, headOf, Text.replaceFirst, cut]
  simp [head, String.toList_append]

theorem isHead_head {wrapper : String} (named : Text.isName wrapper.toList = true)
    (params : List Param) : isHead (head wrapper params).toList = true := by
  obtain ⟨c, first, letter⟩ := exists_head?_head named params
  have other {x : Char} (unnamed : Text.isNameChar x = false) : c ≠ x := by
    rintro rfl
    rw [letter] at unnamed
    cases unnamed
  have unmarked := isComment_head named params
  have filled : (head wrapper params).toList ≠ [] := by
    intro empty
    rw [empty] at first
    cases first
  simp [isHead, unmarked, filled, first, other (x := ' ') (by decide), other (x := '\x7d') (by decide)]

theorem isHead_of_comment {line : String} (h : Roxygen.Comment line) :
    isHead line.toList = false := by
  simp [isHead, h.marked]

theorem isHead_of_mem_innerLines {t : Tool} {line : String} (member : line ∈ innerLines t) :
    isHead line.toList = false := by
  rcases head?_of_mem_innerLines member with first | first | empty
  · simp [isHead, first]
  · simp [isHead, first]
  · simp [isHead, empty]

end Wrapper

namespace Generated

variable {settings : Settings} {s : Section} {t : Tool}

/-- The head of a tool's wrapper is the only line of its shape among the lines of the tool. -/
theorem linesWhere_isHead (single : t.SingleLine) (readable : Wrapper.Readable t)
    (named : Text.isName (settings.wrapperName t.command).toList = true) :
    (toolLines settings s t).flatMap (Text.linesWhere Wrapper.isHead) =
      [(Wrapper.head (settings.wrapperName t.command) t.params).toList] := by
  have letters := (Text.isName_iff.mp named).2
  have documentation : (Roxygen.lines t none).flatMap (Text.linesWhere Wrapper.isHead) = [] :=
    Text.flatMap_linesWhere_eq_nil
      (fun _ member => (Roxygen.comment_of_mem_lines single member).single)
      fun _ member => Wrapper.isHead_of_comment (Roxygen.comment_of_mem_lines single member)
  have sample : ((sample? settings s t).elim [] Roxygen.exampleLines).flatMap
      (Text.linesWhere Wrapper.isHead) = [] := by
    rw [sample?]
    split
    · have comment {line : String}
          (member : line ∈ Roxygen.exampleLines (settings.wrapperName t.command)) :=
        Roxygen.comment_of_mem_exampleLines (Text.newline_not_mem_name letters) member
      exact Text.flatMap_linesWhere_eq_nil (fun _ member => (comment member).single)
        fun _ member => Wrapper.isHead_of_comment (comment member)
    · rfl
  have inner : (Wrapper.innerLines t).flatMap (Text.linesWhere Wrapper.isHead) = [] :=
    Text.flatMap_linesWhere_eq_nil (fun _ => readable.newline_not_mem_innerLines)
      fun _ => Wrapper.isHead_of_mem_innerLines
  rw [toolLines_eq, List.flatMap_append, List.flatMap_append, documentation, sample,
    List.flatMap_cons, inner, Text.linesWhere_of_single (readable.newline_not_mem_head letters),
    List.filter_cons_of_pos (Wrapper.isHead_head named t.params)]
  rfl

end Generated

namespace Workflow

variable [User] {path text : String} {tree : FileTree} {c : Catalogue}

/-- The file at a path may be read, and it holds this text. -/
def Reads (tree : FileTree) (path text : String) : Prop :=
  ∃ bytes, (Action.readFile path).run tree = (.ok bytes, tree) ∧ Text.decode? bytes = some text

theorem readCatalogue_run {s : Settings} (stored : Reads tree path text)
    (accepted : Catalogue.read s text = .ok c) :
    (readCatalogue path s).run tree = (.ok c, tree) := by
  obtain ⟨bytes, read, decoded⟩ := stored
  rw [readCatalogue, Action.run_bind_of_ok (Action.run_orFail_eq_ok.mpr read)]
  simp only [decoded, accepted, Action.run_pure]

theorem signatures_run {skipLines : Nat} (stored : Reads tree path text)
    (accepted : Catalogue.read (settings skipLines) text = .ok c) :
    (signatures path skipLines).run tree = (.ok (c.tools.map Tool.signature), tree) := by
  rw [signatures, Action.run_bind_of_ok (readCatalogue_run stored accepted), Action.run_pure]

theorem generate_run {skipLines : Nat} (stored : Reads tree path text)
    (accepted : Catalogue.read (settings skipLines) text = .ok c) (scriptsDir testsDir : String) :
    (generate path scriptsDir testsDir skipLines).run tree =
      (Install.writeGenerated (Generated.ofCatalogue (settings skipLines) c) scriptsDir testsDir).run
        tree := by
  rw [generate]
  exact Action.run_bind_of_ok (readCatalogue_run stored accepted) _

end Workflow

/-- A catalogue lists the signatures that its scripts define, in the order of the scripts. -/
structure Catalogue.Announces (settings : Settings) (text : String) (c : Catalogue) : Prop where
  names : (Generated.ofCatalogue settings c).scripts.map (·.name) = c.sections.map (·.fileName)
  heads : ((Generated.ofCatalogue settings c).scripts.flatMap fun f =>
      Text.linesWhere Wrapper.isHead f.contents) =
    (c.tools.map Tool.signature).map fun s => (Wrapper.headOf settings.wrapperPrefix s).toList
  spelled : ∀ t ∈ c.tools, Wrapper.headOf settings.wrapperPrefix t.signature =
    settings.wrapperPrefix ++ t.command ++ " <- function(" ++ Param.formals t.params ++ ") \x7b"
  listed : ∀ [User] world path skipLines tree, settings = Workflow.settings skipLines →
    Workflow.Reads tree path text →
    ((CommandLine.Command.functions path skipLines).act world).run tree =
      (.ok (Text.unlines (c.tools.map Tool.signature)), tree)
  generated : ∀ [User] path scriptsDir testsDir skipLines tree, settings = Workflow.settings skipLines →
    Workflow.Reads tree path text →
    (Workflow.generate path scriptsDir testsDir skipLines).run tree =
      (Install.writeGenerated (Generated.ofCatalogue settings c) scriptsDir testsDir).run tree

/-- Whatever the defaults and the docstrings of an accepted catalogue hold, the lines of its scripts
that look like heads are the heads of the listed signatures. -/
theorem scripts_define_signatures {settings : Settings} {text : String} {c : Catalogue}
    (h : Catalogue.read settings text = .ok c)
    (named : ∀ x ∈ settings.wrapperPrefix.toList, Text.isNameChar x = true) :
    c.Announces settings text := by
  have called {t : Tool} (member : t ∈ c.tools) : Text.isName t.command.toList = true :=
    (Catalogue.wellNamed_of_mem_tools h member).command
  constructor
  case names => rw [Generated.ofCatalogue, List.map_map]; rfl
  case heads =>
    have script : ∀ s ∈ c.sections,
        Text.linesWhere Wrapper.isHead (Generated.script settings s).contents =
          s.tools.map fun t => (Wrapper.headOf settings.wrapperPrefix t.signature).toList := by
      intro s inside
      rw [Generated.linesWhere_script (by decide), List.map_eq_flatMap]
      refine List.flatMap_congr fun t there => ?_
      have member : t ∈ c.tools := List.mem_flatMap.mpr ⟨s, inside, there⟩
      rw [Generated.linesWhere_isHead (Catalogue.singleLine_of_mem_tools h member)
        (Catalogue.readable_of_mem_tools h member)
        (Settings.isName_wrapperName named (called member)),
        Wrapper.headOf_signature _ (called member), Settings.wrapperName]
    rw [Generated.ofCatalogue, List.flatMap_map, List.flatMap_congr script, List.map_map,
      Catalogue.tools, List.map_flatMap]
    rfl
  case spelled =>
    intro t member
    rw [Wrapper.headOf_signature _ (called member), Wrapper.head]
  case listed =>
    rintro user world path skipLines tree rfl stored
    exact Action.run_bind_of_ok (Workflow.signatures_run stored h) _
  case generated =>
    rintro user path scriptsDir testsDir skipLines tree rfl stored
    exact Workflow.generate_run stored h scriptsDir testsDir

/-- A summary that looks like a head, a reopened section, and a default that looks like the end of
the formals. -/
def headlikeLines : List String :=
  ["# Math and Stats Tools #", "def Not(self, i):", "\"\"\"wbt_f <- function() \x7b", "\"\"\"",
    "# Data Tools #", "def g(self, x=\") \x7b\"):", "\"\"\"", "\x7d -- i", "\"\"\"",
    "# Math and Stats Tools #", "def h(self):", "\"\"\"Reads.\"\"\""]

theorem headlikeLines_define_signatures :
    ∃ c, Catalogue.read { skipLines := 0 } (Text.unlines headlikeLines) = .ok c ∧
      c.tools.map Tool.signature = ["not(input)", "h()", "g(x=\") \x7b\")"] ∧
      (Generated.ofCatalogue { skipLines := 0 } c).scripts.map (·.name) =
        ["math_stat_analysis.R", "data_tools.R"] ∧
      ((Generated.ofCatalogue { skipLines := 0 } c).scripts.flatMap fun f =>
          Text.linesWhere Wrapper.isHead f.contents) =
        ["wbt_not <- function(input) \x7b".toList, "wbt_h <- function() \x7b".toList,
          "wbt_g <- function(x=\") \x7b\") \x7b".toList] := by
  have known : (Catalogue.read { skipLines := 0 } (Text.unlines headlikeLines)).toOption.map
      (fun c => (c.tools.map Tool.signature, c.sections.map (·.fileName))) =
        some (["not(input)", "h()", "g(x=\") \x7b\")"], ["math_stat_analysis.R", "data_tools.R"]) := by
    rw [Catalogue.read_unlines _ (by decide +kernel)]
    decide +kernel
  cases read : Catalogue.read { skipLines := 0 } (Text.unlines headlikeLines) with
  | error e =>
      rw [read] at known
      cases known
  | ok c =>
      rw [read] at known
      obtain ⟨signatures, files⟩ := Prod.mk.inj (Option.some.inj known)
      have announced := scripts_define_signatures read (List.all_eq_true.mp (by decide))
      refine ⟨c, rfl, signatures, announced.names.trans files, ?_⟩
      rw [announced.heads, signatures]
      decide +kernel

end ToolWrappers
