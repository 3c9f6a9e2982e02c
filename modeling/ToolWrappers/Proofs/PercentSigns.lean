import ToolWrappers.Proofs.DocumentedNames
import ToolWrappers.Proofs.ScriptLines

/-! Percent signs in the documentation, where each begins a comment. Parameter lines lose theirs, and
names cannot hold any; a summary keeps them. -/

namespace ToolWrappers

namespace Roxygen

/-- A comment line with a percent sign. -/
def hasPercent (line : List Char) : Bool := isComment line && line.contains '%'

/-- The summary line of a tool, if it holds a percent sign. -/
def percentSummary (t : Tool) : List (List Char) :=
  match t.doc.summary with
  | some summary => if '%' ∈ summary.toList then [(mark summary).toList] else []
  | none => []

theorem hasPercent_of_not_mem {line : List Char} (clean : '%' ∉ line) : hasPercent line = false := by
  simp [hasPercent, clean]

theorem mem_mark {x : Char} (other : x ∉ "#' ".toList) {text : String} :
    x ∈ (mark text).toList ↔ x ∈ text.toList := by
  rw [mark, String.toList_append, List.mem_append]
  exact or_iff_right other

theorem linesWhere_mark {text : String} (single : '\n' ∉ text.toList) :
    Text.linesWhere hasPercent (mark text) =
      if '%' ∈ text.toList then [(mark text).toList] else [] := by
  have comment := comment_mark single
  rw [Text.linesWhere_of_single comment.single]
  by_cases held : '%' ∈ text.toList
  · have found : hasPercent (mark text).toList = true := by
      simp [hasPercent, comment.marked, mem_mark (x := '%') (by decide), held]
    rw [if_pos held, List.filter_cons_of_pos found, List.filter_nil]
  · have plain : '%' ∉ (mark text).toList := fun member => held ((mem_mark (by decide)).mp member)
    rw [if_neg held, List.filter_cons_of_neg (by simp [hasPercent_of_not_mem plain]), List.filter_nil]

theorem linesWhere_mark_of_not_mem {text : String} (single : '\n' ∉ text.toList)
    (clean : '%' ∉ text.toList) : Text.linesWhere hasPercent (mark text) = [] := by
  rw [linesWhere_mark single, if_neg clean]

/-- The only percent signs of a documentation block are those of its summary. -/
theorem linesWhere_lines {t : Tool} (h : t.SingleLine)
    (params : ∀ param ∈ t.doc.params, '%' ∉ param.toList) :
    (lines t none).flatMap (Text.linesWhere hasPercent) = percentSummary t := by
  have title : Text.linesWhere hasPercent (mark t.title) = [] :=
    linesWhere_mark_of_not_mem h.title
      (h.not_mem_title (by decide) (by decide) (by decide) (by decide))
  have empty : Text.linesWhere hasPercent emptyLine = [] := by decide
  have described : ((t.doc.params ++ implicitParams).map fun p => mark ("@param " ++ p)).flatMap
      (Text.linesWhere hasPercent) = [] := by
    rw [List.flatMap_map, List.flatMap_eq_nil_iff]
    intro param member
    have clean : '\n' ∉ param.toList ∧ '%' ∉ param.toList := by
      rcases List.mem_append.mp member with captured | implicit
      · exact ⟨h.doc.params param captured, params param captured⟩
      · exact ⟨not_mem_implicitParams (by decide) (by decide) implicit,
          not_mem_implicitParams (by decide) (by decide) implicit⟩
    refine linesWhere_mark_of_not_mem ?_ ?_
    · simp [String.toList_append, clean]
    · simp [String.toList_append, clean]
  have last : [emptyLine, mark "@return Returns the tool text outputs.", mark "@export"].flatMap
      (Text.linesWhere hasPercent) = [] := by decide +kernel
  rw [lines, percentSummary]
  simp only [List.flatMap_append, List.flatMap_cons, List.flatMap_nil, title, empty, described, last,
    List.append_nil, List.nil_append]
  cases written : t.doc.summary with
  | none => rfl
  | some summary =>
      simp only [List.flatMap_cons, List.flatMap_nil, empty, List.append_nil]
      exact linesWhere_mark (h.doc.summary summary written)

theorem linesWhere_exampleLines (wrapper : String) :
    (exampleLines wrapper).flatMap (Text.linesWhere hasPercent) =
      Text.linesWhere hasPercent (sampleLine wrapper) := by
  have before : [emptyLine, mark "@examples", mark "\\dontrun\x7b",
      mark "dem <- system.file(\"extdata\", \"DEM.tif\", package=\"whitebox\")"].flatMap
        (Text.linesWhere hasPercent) = [] := by decide +kernel
  have after : Text.linesWhere hasPercent (mark "\x7d") = [] := by decide
  have shape : exampleLines wrapper = [emptyLine, mark "@examples", mark "\\dontrun\x7b",
      mark "dem <- system.file(\"extdata\", \"DEM.tif\", package=\"whitebox\")"] ++
        [sampleLine wrapper, mark "\x7d"] := rfl
  rw [shape, List.flatMap_append, before, List.flatMap_cons, List.flatMap_singleton, after,
    List.nil_append, List.append_nil]

end Roxygen

namespace Generated

open Roxygen

/-- The comment lines with a percent sign in which the prefix of wrapper names has a part: the
sample call, and a head that is taken for a comment. -/
def percentPrefix (settings : Settings) (s : Section) (t : Tool) : List (List Char) :=
  (sample? settings s t).elim [] (fun wrapper => Text.linesWhere hasPercent (sampleLine wrapper)) ++
    Text.linesWhere hasPercent (Wrapper.head (settings.wrapperName t.command) t.params)

variable {settings : Settings} {s : Section} {t : Tool}

theorem linesWhere_toolLines (single : t.SingleLine) (readable : Wrapper.Readable t)
    (params : ∀ param ∈ t.doc.params, '%' ∉ param.toList) :
    (toolLines settings s t).flatMap (Text.linesWhere hasPercent) =
      percentSummary t ++ percentPrefix settings s t := by
  have inner : (Wrapper.innerLines t).flatMap (Text.linesWhere hasPercent) = [] := by
    refine Text.flatMap_linesWhere_eq_nil (fun line => readable.newline_not_mem_innerLines) ?_
    intro line member
    rw [hasPercent, Wrapper.isComment_of_mem_innerLines member, Bool.false_and]
  rw [toolLines_eq, List.flatMap_append, List.flatMap_append, linesWhere_lines single params,
    List.flatMap_cons, inner, List.append_nil, percentPrefix, List.append_assoc]
  cases sample? settings s t with
  | none => rfl
  | some wrapper => rw [Option.elim_some, Option.elim_some, linesWhere_exampleLines]

/-- A prefix of name characters brings in no percent sign. -/
theorem percentPrefix_eq_nil (readable : Wrapper.Readable t)
    (named : ∀ c ∈ settings.wrapperPrefix.toList, Text.isNameChar c = true)
    (called : Text.isName t.command.toList = true) : percentPrefix settings s t = [] := by
  have wrapper := Settings.isName_wrapperName named called
  have letters := (Text.isName_iff.mp wrapper).2
  have head : Text.linesWhere hasPercent (Wrapper.head (settings.wrapperName t.command) t.params) =
      [] := by
    have plain : hasPercent (Wrapper.head (settings.wrapperName t.command) t.params).toList =
        false := by
      rw [hasPercent, Wrapper.isComment_head wrapper, Bool.false_and]
    rw [Text.linesWhere_of_single (readable.newline_not_mem_head letters),
      List.filter_cons_of_neg (by simp [plain]), List.filter_nil]
  have call : Text.linesWhere hasPercent (sampleLine (settings.wrapperName t.command)) = [] := by
    have clean {x : Char} (unnamed : Text.isNameChar x = false)
        (other : x ∉ "(input = dem, output = 'output.tif')".toList) :
        x ∉ (settings.wrapperName t.command ++ "(input = dem, output = 'output.tif')").toList := by
      rw [String.toList_append, List.mem_append, not_or]
      exact ⟨Text.not_mem_of_named letters unnamed, other⟩
    exact linesWhere_mark_of_not_mem (clean (by decide) (by decide +kernel))
      (clean (by decide) (by decide +kernel))
  rw [percentPrefix, head, List.append_nil, sample?]
  split
  · exact call
  · rfl

end Generated

theorem Roxygen.percentSummary_eq_nil_iff {t : Tool} :
    percentSummary t = [] ↔ ∀ summary ∈ t.doc.summary, '%' ∉ summary.toList := by
  unfold percentSummary
  cases t.doc.summary with
  | none => simp
  | some summary => simp

/-- Percent signs reach the comments of a script through summaries only, apart from what the prefix
of wrapper names brings in; a prefix of name characters brings in none. -/
theorem percent_signs_from_summaries {settings : Settings} {text : String} {c : Catalogue}
    (h : Catalogue.read settings text = .ok c) :
    (∀ s ∈ c.sections, Text.linesWhere Roxygen.hasPercent (Generated.script settings s).contents =
      s.tools.flatMap fun t => Roxygen.percentSummary t ++ Generated.percentPrefix settings s t) ∧
    ((∀ x ∈ settings.wrapperPrefix.toList, Text.isNameChar x = true) →
      ((∀ f ∈ (Generated.ofCatalogue settings c).scripts,
          Text.linesWhere Roxygen.hasPercent f.contents = []) ↔
        ∀ t ∈ c.tools, ∀ summary ∈ t.doc.summary, '%' ∉ summary.toList)) := by
  have sections : ∀ s ∈ c.sections,
      Text.linesWhere Roxygen.hasPercent (Generated.script settings s).contents =
        s.tools.flatMap fun t => Roxygen.percentSummary t ++ Generated.percentPrefix settings s t := by
    intro s inside
    rw [Generated.linesWhere_script (by decide)]
    refine List.flatMap_congr fun t there => ?_
    have member : t ∈ c.tools := List.mem_flatMap.mpr ⟨s, inside, there⟩
    refine Generated.linesWhere_toolLines (Catalogue.singleLine_of_mem_tools h member)
      (Catalogue.readable_of_mem_tools h member) ?_
    intro param captured
    obtain ⟨_, params, _⟩ := Catalogue.exists_sources h member
    rw [params] at captured
    obtain ⟨line, _, added⟩ := List.mem_filterMap.mp captured
    rw [DocLine.eq_paramText_of_param? added, String.toList_ofList]
    exact DocLine.percent_not_mem_spellPercent _
  refine ⟨sections, fun named => ?_⟩
  have free : ∀ t ∈ c.tools, ∀ s, Generated.percentPrefix settings s t = [] := by
    intro t member s
    exact Generated.percentPrefix_eq_nil (Catalogue.readable_of_mem_tools h member) named
      (Catalogue.wellNamed_of_mem_tools h member).command
  have scripts : (∀ f ∈ (Generated.ofCatalogue settings c).scripts,
      Text.linesWhere Roxygen.hasPercent f.contents = []) ↔
        ∀ s ∈ c.sections, ∀ t ∈ s.tools, Roxygen.percentSummary t = [] := by
    rw [Generated.ofCatalogue, List.forall_mem_map]
    refine forall₂_congr fun s inside => ?_
    rw [sections s inside, List.flatMap_eq_nil_iff]
    refine forall₂_congr fun t there => ?_
    rw [free t (List.mem_flatMap.mpr ⟨s, inside, there⟩) s, List.append_nil]
  rw [scripts]
  simp only [Roxygen.percentSummary_eq_nil_iff, Catalogue.tools, List.mem_flatMap]
  constructor
  · rintro all t ⟨s, inside, there⟩
    exact all s inside t there
  · intro all s inside t there
    exact all t ⟨s, inside, there⟩

theorem percent_signs_of_halfTool :
    '%' ∈ "i -- Half (50%).".toList ∧ "i -- Half (50%)." ∈ halfLines ∧
      ∀ f ∈ (Generated.ofCatalogue { skipLines := 0 }
          ⟨[⟨"# Data Tools #", "data_tools.R", false, [halfTool]⟩]⟩).scripts,
        Text.linesWhere Roxygen.hasPercent f.contents = [] := by
  have plain := (percent_signs_from_summaries read_halfLines).2 (List.all_eq_true.mp (by decide))
  refine ⟨by decide, by decide, plain.mpr ?_⟩
  intro t member
  obtain rfl := List.mem_singleton.mp member
  decide

/-- The same percent sign in the summary and in a parameter line. -/
def bareLines : List String :=
  ["# Data Tools #", "def f(self, i, callback=None):", "\"\"\"Keeps 50% of all points.",
    "i -- Half (50%).", "\"\"\""]

def bareTool : Tool :=
  { halfTool with
    doc := { summary := some "Keeps 50% of all points.", params := ["input Half (50 percent)."] } }

theorem percent_sign_in_summary :
    ∃ c, Catalogue.read { skipLines := 0 } (Text.unlines bareLines) = .ok c ∧
      (Generated.ofCatalogue { skipLines := 0 } c).scripts.map
          (fun f => Text.linesWhere Roxygen.hasPercent f.contents) =
        [["#' Keeps 50% of all points.".toList]] := by
  have accepted : Catalogue.read { skipLines := 0 } (Text.unlines bareLines) =
      .ok ⟨[⟨"# Data Tools #", "data_tools.R", false, [bareTool]⟩]⟩ := by
    rw [Catalogue.read_unlines _ (by decide +kernel)]
    decide +kernel
  refine ⟨_, accepted, ?_⟩
  have member : bareTool ∈ [bareTool] := List.mem_singleton_self _
  have readable := Catalogue.readable_of_mem_tools accepted (t := bareTool) member
  rw [Generated.ofCatalogue, List.map_singleton, List.map_singleton,
    Generated.linesWhere_script (by decide), List.flatMap_singleton,
    Generated.linesWhere_toolLines (Catalogue.singleLine_of_mem_tools accepted member) readable
      (by decide), Generated.percentPrefix_eq_nil readable (List.all_eq_true.mp (by decide))
      (by decide)]
  decide +kernel

end ToolWrappers
