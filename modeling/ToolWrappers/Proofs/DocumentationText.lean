import Mathlib.Data.List.Basic
import ToolWrappers.Proofs.Captured
import ToolWrappers.Script.Generated

/-! Documentation never becomes code. What a catalogue generates outside comments and test labels is
what the same catalogue without any documentation generates. -/

namespace ToolWrappers

def Tool.undocumented (t : Tool) : Tool := { t with doc := {} }

def Section.undocumented (s : Section) : Section :=
  { s with tools := s.tools.map Tool.undocumented }

def Catalogue.undocumented (c : Catalogue) : Catalogue := ⟨c.sections.map Section.undocumented⟩

/-- Documentation of a tool of some catalogue. -/
def Documentation.Captured (doc : Documentation) : Prop :=
  ∃ settings text c, Catalogue.read settings text = .ok c ∧ ∃ t ∈ c.tools, t.doc = doc

theorem Documentation.Captured.singleLine {doc : Documentation} (h : doc.Captured) :
    doc.SingleLine := by
  obtain ⟨settings, text, c, read, t, member, rfl⟩ := h
  exact (Catalogue.singleLine_of_mem_tools read member).doc

namespace Tool.SingleLine

variable {t : Tool}

theorem undocumented (h : t.SingleLine) : t.undocumented.SingleLine := ⟨h.name, .empty⟩

/-- A title holds no character that stands before the letters, if no name holds it either. -/
theorem not_mem_title (h : t.SingleLine) {x : Char} (pos : 0 < x.toNat) (small : x.toNat < 65)
    (unnamed : Text.isNameChar x = false) (filled : x ≠ ' ') : x ∉ t.title.toList := by
  have clean := Text.not_mem_of_named (Text.isName_iff.mp h.name).2 unnamed
  have blanks : x ∉ t.name.toList.map fun c => if c = '_' then ' ' else c := by
    intro member
    obtain ⟨c, inside, same⟩ := List.mem_map.mp member
    split at same
    · exact filled same.symm
    · exact clean (same ▸ inside)
  unfold Tool.title
  split
  · exact List.not_mem_nil
  · rename_i first rest spelled
    rw [spelled] at blanks
    rw [String.toList_ofList]
    intro member
    rcases List.mem_append.mp member with head | tail
    · exact List.ne_of_not_mem_cons blanks (Text.eq_of_mem_uppercase pos small head)
    · exact blanks (List.mem_cons_of_mem first tail)

theorem title (h : t.SingleLine) : '\n' ∉ t.title.toList :=
  h.not_mem_title (by decide) (by decide) (by decide) (by decide)

theorem label (h : t.SingleLine) : '\n' ∉ t.label.toList := by
  have written : '\n' ∉ (t.doc.summary.getD "").toList := by
    cases found : t.doc.summary with
    | none => exact List.not_mem_nil
    | some summary => exact h.doc.summary summary found
  have trimmed : '\n' ∉ Text.trim (t.doc.summary.getD "").toList :=
    fun member => written ((Text.trim_sublist _).subset member)
  unfold Tool.label
  split
  · exact h.title
  · rw [String.toList_ofList]
    cases ended : Text.stripSuffix? ['.'] (Text.trim (t.doc.summary.getD "").toList) with
    | none => exact trimmed
    | some before =>
        exact fun member => trimmed ((Text.sublist_of_stripSuffix? ended).subset member)

end Tool.SingleLine

namespace Roxygen

def isComment (line : List Char) : Bool := Text.startsWith "#'".toList line

/-- The lines of a text that are run, cut at every line feed. -/
def codePieces (text : String) : List (List Char) :=
  (Text.pieces '\n' text.toList).filter (!isComment ·)

structure Comment (line : String) : Prop where
  marked : isComment line.toList = true
  single : '\n' ∉ line.toList

theorem comment_mark {text : String} (clean : '\n' ∉ text.toList) : Comment (mark text) where
  marked := by
    rw [mark, String.toList_append]
    rfl
  single := by simp [mark, String.toList_append, clean]

theorem comment_emptyLine : Comment emptyLine := ⟨rfl, by decide⟩

theorem codePieces_of_comment {line : String} (h : Comment line) : codePieces line = [] := by
  rw [codePieces, Text.pieces_of_not_mem h.single]
  exact List.filter_cons_of_neg (by simp [h.marked])

theorem codePieces_unlines (lines : List String) :
    codePieces (Text.unlines lines) = lines.flatMap codePieces ++ [[]] := by
  rw [codePieces, Text.pieces_unlines, List.filter_append, List.filter_flatMap]
  rfl

/-- The documentation of the implicit options is plain text. -/
theorem not_mem_implicitParams {x : Char} (unnamed : Text.isNameChar x = false)
    (other : x ∉ [' ', '.', ',']) {text : String} (member : text ∈ implicitParams) :
    x ∉ text.toList := by
  have plain : implicitParams.all (fun text => text.toList.all fun c =>
      Text.isNameChar c || [' ', '.', ','].contains c) = true := by decide +kernel
  intro inside
  have here := List.all_eq_true.mp (List.all_eq_true.mp plain text member) x inside
  rw [unnamed, Bool.false_or] at here
  exact other (List.contains_iff_mem.mp here)

theorem comment_of_mem_lines {t : Tool} (h : t.SingleLine) {line : String}
    (member : line ∈ lines t none) : Comment line := by
  simp only [lines, List.mem_append] at member
  rcases member with (((title | summary) | param) | last) | sample
  · rcases List.mem_cons.mp title with rfl | empty
    · exact comment_mark h.title
    · rw [List.mem_singleton.mp empty]
      exact comment_emptyLine
  · cases written : t.doc.summary with
    | none =>
        rw [written] at summary
        cases summary
    | some text =>
        rw [written] at summary
        rcases List.mem_cons.mp summary with rfl | empty
        · exact comment_mark (h.doc.summary text written)
        · rw [List.mem_singleton.mp empty]
          exact comment_emptyLine
  · obtain ⟨text, inside, rfl⟩ := List.mem_map.mp param
    have clean : '\n' ∉ text.toList := by
      rcases List.mem_append.mp inside with documented | implicit
      · exact h.doc.params text documented
      · exact not_mem_implicitParams (by decide) (by decide) implicit
    exact comment_mark (by simp [String.toList_append, clean])
  · simp only [List.mem_cons, List.not_mem_nil, or_false] at last
    rcases last with rfl | rfl | rfl
    · exact comment_emptyLine
    · exact comment_mark (by decide +kernel)
    · exact comment_mark (by decide +kernel)
  · cases sample

/-- A sample call comes last and shows nothing of the documentation. -/
theorem lines_some (t : Tool) (wrapper : String) :
    lines t (some wrapper) = lines t none ++ exampleLines wrapper := by
  simp [lines]

theorem codePieces_lines {t : Tool} (h : t.SingleLine) (sample : Option String) :
    (lines t sample).flatMap codePieces = (sample.elim [] exampleLines).flatMap codePieces := by
  have nothing : (lines t none).flatMap codePieces = [] := by
    rw [List.flatMap_eq_nil_iff]
    exact fun line member => codePieces_of_comment (comment_of_mem_lines h member)
  cases sample with
  | none => exact nothing
  | some wrapper => rw [lines_some, List.flatMap_append, nothing, List.nil_append, Option.elim_some]

end Roxygen

namespace Generated

variable {settings : Settings} {s : Section} {t : Tool}

theorem codePieces_toolLines (h : t.SingleLine) :
    (toolLines settings s t).flatMap Roxygen.codePieces =
      (toolLines settings s.undocumented t.undocumented).flatMap Roxygen.codePieces := by
  simp only [toolLines, List.flatMap_append, Roxygen.codePieces_lines h,
    Roxygen.codePieces_lines h.undocumented]
  rfl

/-- Outside comments, a script depends on no documentation. -/
theorem codePieces_script (h : ∀ t ∈ s.tools, t.SingleLine) :
    Roxygen.codePieces (script settings s).contents =
      Roxygen.codePieces (script settings s.undocumented).contents := by
  have same : (scriptLines settings s).flatMap Roxygen.codePieces =
      (scriptLines settings s.undocumented).flatMap Roxygen.codePieces := by
    rw [scriptLines, scriptLines, Section.undocumented, List.flatMap_map, List.flatMap_assoc,
      List.flatMap_assoc]
    exact List.flatMap_congr fun t member => codePieces_toolLines (h t member)
  rw [script, script, Roxygen.codePieces_unlines, Roxygen.codePieces_unlines, same]

theorem testedTools_undocumented (settings : Settings) (s : Section) :
    testedTools settings s.undocumented = (testedTools settings s).map Tool.undocumented :=
  List.filter_map

theorem mem_of_mem_testedTools (h : t ∈ testedTools settings s) : t ∈ s.tools :=
  (List.mem_filter.mp h).1

end Generated

/-- Two files of one name that differ in one line at most, which labels a test in both. -/
def GeneratedFile.SameButLabel (f g : GeneratedFile) : Prop :=
  f.name = g.name ∧ ∃ before after first second,
    Text.pieces '\n' f.contents.toList = before ++ first :: after ∧
    Text.pieces '\n' g.contents.toList = before ++ second :: after ∧
    Text.startsWith "test_that(\"".toList first = true ∧
    Text.startsWith "test_that(\"".toList second = true

namespace TestStub

variable {t u : Tool}

theorem newline_not_mem_labelLine (h : t.SingleLine) : '\n' ∉ (labelLine t).toList := by
  have escaped : '\n' ∉ escape t.label.toList := by
    intro member
    obtain ⟨c, inside, here⟩ := List.mem_flatMap.mp member
    split at here
    · rcases List.mem_cons.mp here with slash | same
      · exact absurd slash (by decide)
      · exact h.label (List.mem_singleton.mp same ▸ inside)
    · exact h.label (List.mem_singleton.mp here ▸ inside)
  simp [labelLine, String.toList_append, escaped]

theorem startsWith_labelLine (t : Tool) :
    Text.startsWith "test_that(\"".toList (labelLine t).toList = true := by
  rw [labelLine, String.append_assoc, String.toList_append]
  exact Text.startsWith_append _ _

/-- Only the label of a test file comes from the documentation. -/
theorem pieces_lines (h : t.SingleLine) (wrapper : String) :
    Text.pieces '\n' (Text.unlines (lines t wrapper)).toList =
      ((lines t wrapper).take 2).flatMap (fun line => Text.pieces '\n' line.toList) ++
        (labelLine t).toList ::
          (((lines t wrapper).drop 3).flatMap (fun line => Text.pieces '\n' line.toList) ++ [[]]) := by
  have label := Text.pieces_of_not_mem (newline_not_mem_labelLine h)
  rw [Text.pieces_unlines]
  simp only [lines, List.take_succ_cons, List.take_zero, List.drop_succ_cons, List.drop_zero,
    List.flatMap_cons, List.flatMap_nil, label, List.append_assoc, List.cons_append, List.nil_append,
    List.append_nil]

theorem sameButLabel (ht : t.SingleLine) (hu : u.SingleLine)
    (same : t.undocumented = u.undocumented) (settings : Settings) :
    (Generated.test settings t).SameButLabel (Generated.test settings u) := by
  have command : t.undocumented.command = u.undocumented.command := congrArg Tool.command same
  change t.command = u.command at command
  refine ⟨?_, _, _, _, _, pieces_lines ht _, ?_, startsWith_labelLine t, startsWith_labelLine u⟩
  · rw [Generated.test, Generated.test, command]
  · -- Up to the label and after it, the lines mention the wrapper only.
    have before : (lines t (settings.wrapperName t.command)).take 2 =
        (lines u (settings.wrapperName t.command)).take 2 := by
      simp only [lines, List.take_succ_cons, List.take_zero]
    have after : (lines t (settings.wrapperName t.command)).drop 3 =
        (lines u (settings.wrapperName t.command)).drop 3 := by
      simp only [lines, List.drop_succ_cons, List.drop_zero]
    rw [Generated.test, ← command, before, after]
    exact pieces_lines hu _

end TestStub

theorem forall₂_of_map_eq {α β γ : Type} {f : α → β} {R : γ → γ → Prop} {g : α → γ} {xs ys : List α}
    (same : xs.map f = ys.map f) (h : ∀ x ∈ xs, ∀ y ∈ ys, f x = f y → R (g x) (g y)) :
    List.Forall₂ R (xs.map g) (ys.map g) := by
  induction xs generalizing ys with
  | nil =>
      rw [List.map_eq_nil_iff.mp same.symm]
      exact .nil
  | cons x xs ih =>
      cases ys with
      | nil => cases same
      | cons y ys =>
          obtain ⟨head, tail⟩ := List.cons.inj same
          refine .cons (h x List.mem_cons_self y List.mem_cons_self head) (ih tail ?_)
          exact fun x' inside y' there =>
            h x' (List.mem_cons_of_mem x inside) y' (List.mem_cons_of_mem y there)

section

variable {settings : Settings} {text : String} {c other : Catalogue}

theorem Catalogue.names_undocumented (settings : Settings) (c : Catalogue) :
    (Generated.ofCatalogue settings c.undocumented).scripts.map (·.name) =
      (Generated.ofCatalogue settings c).scripts.map (·.name) := by
  simp only [Generated.ofCatalogue, Catalogue.undocumented, List.map_map]
  rfl

theorem Catalogue.code_undocumented (h : ∀ t ∈ c.tools, t.SingleLine) (settings : Settings) :
    (Generated.ofCatalogue settings c).scripts.map (fun f => Roxygen.codePieces f.contents) =
      (Generated.ofCatalogue settings c.undocumented).scripts.map
        (fun f => Roxygen.codePieces f.contents) := by
  simp only [Generated.ofCatalogue, Catalogue.undocumented, List.map_map]
  refine List.map_congr_left fun s member => ?_
  exact Generated.codePieces_script fun t inside => h t (List.mem_flatMap.mpr ⟨s, member, inside⟩)

theorem Catalogue.testedTools_undocumented (settings : Settings) (c : Catalogue) :
    (c.sections.flatMap (Generated.testedTools settings)).map Tool.undocumented =
      c.undocumented.sections.flatMap (Generated.testedTools settings) := by
  rw [Catalogue.undocumented, List.flatMap_map, List.map_flatMap]
  exact List.flatMap_congr fun s _ => (Generated.testedTools_undocumented settings s).symm

theorem Catalogue.tools_undocumented (c : Catalogue) :
    c.undocumented.tools = c.tools.map Tool.undocumented := by
  rw [Catalogue.tools, Catalogue.tools, Catalogue.undocumented, List.flatMap_map, List.map_flatMap]
  rfl

/-- Documentation from elsewhere leaves the tools on single lines. -/
theorem Catalogue.singleLine_of_undocumented (h : Catalogue.read settings text = .ok c)
    (same : other.undocumented = c.undocumented)
    (captured : ∀ t ∈ other.tools, t.doc.Captured) : ∀ t ∈ other.tools, t.SingleLine := by
  intro t member
  have erased : t.undocumented ∈ c.tools.map Tool.undocumented := by
    rw [← Catalogue.tools_undocumented, ← same, Catalogue.tools_undocumented]
    exact List.mem_map_of_mem member
  obtain ⟨u, inside, equal⟩ := List.mem_map.mp erased
  have name : u.undocumented.name = t.undocumented.name := congrArg Tool.name equal
  change u.name = t.name at name
  refine ⟨?_, (captured t member).singleLine⟩
  rw [← name]
  exact (Catalogue.singleLine_of_mem_tools h inside).name

end

/-- A catalogue with other documentation, taken from any catalogues, gives scripts that run the same
lines and test files that differ in their labels only. All documentation stays in comments. -/
theorem documentation_never_runs {settings : Settings} {text : String} {c other : Catalogue}
    (h : Catalogue.read settings text = .ok c) (same : other.undocumented = c.undocumented)
    (captured : ∀ t ∈ other.tools, t.doc.Captured) :
    (Generated.ofCatalogue settings other).scripts.map (·.name) =
        (Generated.ofCatalogue settings c).scripts.map (·.name) ∧
      (Generated.ofCatalogue settings other).scripts.map (fun f => Roxygen.codePieces f.contents) =
        (Generated.ofCatalogue settings c).scripts.map (fun f => Roxygen.codePieces f.contents) ∧
      List.Forall₂ GeneratedFile.SameButLabel (Generated.ofCatalogue settings other).tests
        (Generated.ofCatalogue settings c).tests ∧
      ∀ t ∈ other.tools, ∀ line ∈ Roxygen.lines t none,
        Roxygen.isComment line.toList = true ∧ '\n' ∉ line.toList := by
  have here : ∀ t ∈ c.tools, t.SingleLine := fun t member => Catalogue.singleLine_of_mem_tools h member
  have there := Catalogue.singleLine_of_undocumented h same captured
  have tested {d : Catalogue} {t : Tool}
      (member : t ∈ d.sections.flatMap (Generated.testedTools settings)) : t ∈ d.tools := by
    obtain ⟨s, inside, chosen⟩ := List.mem_flatMap.mp member
    exact List.mem_flatMap.mpr ⟨s, inside, Generated.mem_of_mem_testedTools chosen⟩
  refine ⟨?_, ?_, ?_, ?_⟩
  · rw [← Catalogue.names_undocumented settings other, same, Catalogue.names_undocumented]
  · rw [Catalogue.code_undocumented there, same, Catalogue.code_undocumented here]
  · refine forall₂_of_map_eq (f := Tool.undocumented) ?_ ?_
    · rw [Catalogue.testedTools_undocumented, same, Catalogue.testedTools_undocumented]
    · intro t inside u found equal
      exact TestStub.sameButLabel (there t (tested inside)) (here u (tested found)) equal settings
  · intro t member line written
    have comment := Roxygen.comment_of_mem_lines (there t member) written
    exact ⟨comment.marked, comment.single⟩

/-- One tool with a sample run. -/
def harmlessLines : List String :=
  ["# Math and Stats Tools #", "def f(self, i, output, callback=None):", "\"\"\"Adds.",
    "i -- Input.", "\"\"\""]

/-- The same tool, documented by what looks like code. -/
def hostileLines : List String :=
  ["# Math and Stats Tools #", "def f(self, i, output, callback=None):",
    "\"\"\"\", \x7b\x7d); stop(1)", "-- \rstop(2)", "\"\"\""]

theorem documentation_never_runs_from_hostileLines :
    ∃ c other, Catalogue.read { skipLines := 0 } (Text.unlines harmlessLines) = .ok c ∧
      Catalogue.read { skipLines := 0 } (Text.unlines hostileLines) = .ok other ∧
      other ≠ c ∧ other.undocumented = c.undocumented ∧
      (Generated.ofCatalogue { skipLines := 0 } other).tests.length = 1 ∧
      (Generated.ofCatalogue { skipLines := 0 } other).scripts.map
          (fun f => Roxygen.codePieces f.contents) =
        (Generated.ofCatalogue { skipLines := 0 } c).scripts.map
          (fun f => Roxygen.codePieces f.contents) ∧
      List.Forall₂ GeneratedFile.SameButLabel (Generated.ofCatalogue { skipLines := 0 } other).tests
        (Generated.ofCatalogue { skipLines := 0 } c).tests := by
  have both : ((Catalogue.read { skipLines := 0 } (Text.unlines harmlessLines)).toOption.bind
      fun c => (Catalogue.read { skipLines := 0 } (Text.unlines hostileLines)).toOption.map
        fun other => (decide (other = c), decide (other.undocumented = c.undocumented),
          (Generated.ofCatalogue { skipLines := 0 } other).tests.length)) =
        some (false, true, 1) := by
    rw [Catalogue.read_unlines _ (by decide +kernel), Catalogue.read_unlines _ (by decide +kernel)]
    decide +kernel
  cases read : Catalogue.read { skipLines := 0 } (Text.unlines harmlessLines) with
  | error e =>
      rw [read] at both
      cases both
  | ok c =>
      cases readOther : Catalogue.read { skipLines := 0 } (Text.unlines hostileLines) with
      | error e =>
          rw [read, readOther] at both
          cases both
      | ok other =>
          rw [read, readOther] at both
          obtain ⟨differ, both⟩ := Prod.mk.inj (Option.some.inj both)
          obtain ⟨erased, tests⟩ := Prod.mk.inj both
          have same := of_decide_eq_true erased
          have captured : ∀ t ∈ other.tools, t.doc.Captured :=
            fun t member => ⟨_, _, other, readOther, t, member, rfl⟩
          obtain ⟨_, code, labels, _⟩ := documentation_never_runs read same captured
          exact ⟨c, other, rfl, rfl, of_decide_eq_false differ, same, tests, code, labels⟩

end ToolWrappers
