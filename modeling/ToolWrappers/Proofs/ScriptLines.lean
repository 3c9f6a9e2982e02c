import ToolWrappers.Proofs.DocumentationText
import ToolWrappers.Proofs.WrapperBody
import ToolWrappers.Proofs.WrapperText

/-! The lines of one kind in a script. A script is written tool by tool, so these are the lines of
this kind in each documentation block, and in the head and the body of each wrapper. -/

namespace ToolWrappers

namespace Text

/-- The lines of a text, cut at every line feed, that are of one kind. -/
def linesWhere (kind : List Char → Bool) (text : String) : List (List Char) :=
  (pieces '\n' text.toList).filter kind

variable {kind : List Char → Bool}

theorem linesWhere_unlines (filled : kind [] = false) (lines : List String) :
    linesWhere kind (unlines lines) = lines.flatMap (linesWhere kind) := by
  have last : [([] : List Char)].filter kind = [] := by simp [filled]
  rw [linesWhere, pieces_unlines, List.filter_append, List.filter_flatMap, last, List.append_nil]
  rfl

theorem linesWhere_of_single {line : String} (single : '\n' ∉ line.toList) :
    linesWhere kind line = [line.toList].filter kind := by
  rw [linesWhere, pieces_of_not_mem single]

theorem flatMap_linesWhere_eq_nil {lines : List String} (single : ∀ line ∈ lines, '\n' ∉ line.toList)
    (others : ∀ line ∈ lines, kind line.toList = false) : lines.flatMap (linesWhere kind) = [] := by
  rw [List.flatMap_eq_nil_iff]
  intro line member
  rw [linesWhere_of_single (single line member), List.filter_cons_of_neg]
  · rfl
  · rw [others line member]
    exact Bool.false_ne_true

end Text

theorem Roxygen.isComment_of_head? {line : List Char} (other : line.head? ≠ some '#') :
    isComment line = false := by
  cases line with
  | nil => rfl
  | cons c line =>
      rw [isComment, Text.startsWith]
      change (if '#' = c then _ else none).isSome = false
      rw [if_neg fun same => other (congrArg some same.symm)]
      rfl

namespace Wrapper

/-- The lines of a wrapper after its head. -/
def innerLines (t : Tool) : List String := (body t).lines ++ ["\x7d", "", ""]

theorem lines_eq_cons (t : Tool) (wrapper : String) :
    lines t wrapper = head wrapper t.params :: innerLines t := lines_eq t wrapper

theorem head?_of_mem_lines {b : Body} {line : String} (member : line ∈ b.lines) :
    line.toList.head? = some ' ' := by
  have indented (text : String) : ("  " ++ text).toList.head? = some ' ' := by
    rw [String.toList_append]
    rfl
  rcases List.mem_append.mp member with step | result
  · obtain ⟨s, _, inside⟩ := List.mem_flatMap.mp step
    cases s with
    | run e =>
        rw [List.mem_singleton.mp inside]
        exact indented _
    | assign name e =>
        rw [List.mem_singleton.mp inside, String.append_assoc, String.append_assoc]
        exact indented _
    | assignIf condition name e =>
        rcases inside with _ | ⟨_, _ | ⟨_, _ | ⟨_, inside⟩⟩⟩
        · rw [String.append_assoc, String.toList_append]
          rfl
        · rw [String.append_assoc, String.append_assoc, String.toList_append]
          rfl
        · rfl
        · cases inside
  · rw [List.mem_singleton.mp result]
    exact indented _

/-- After its head a wrapper is indented, apart from the closing brace and two empty lines. -/
theorem head?_of_mem_innerLines {t : Tool} {line : String} (member : line ∈ innerLines t) :
    line.toList.head? = some ' ' ∨ line.toList.head? = some '\x7d' ∨ line.toList = [] := by
  rcases List.mem_append.mp member with inside | last
  · exact .inl (head?_of_mem_lines inside)
  · have all : ∀ line ∈ ["\x7d", "", ""],
        line.toList.head? = some '\x7d' ∨ line.toList = [] := by decide
    exact .inr (all line last)

theorem isComment_of_mem_innerLines {t : Tool} {line : String} (member : line ∈ innerLines t) :
    Roxygen.isComment line.toList = false := by
  apply Roxygen.isComment_of_head?
  rcases head?_of_mem_innerLines member with first | first | empty
  · rw [first]
    decide
  · rw [first]
    decide
  · rw [empty]
    simp

theorem Readable.newline_not_mem_innerLines {t : Tool} (h : Readable t) {line : String}
    (member : line ∈ innerLines t) : '\n' ∉ line.toList := by
  have inside : line ∈ lines t "" := by
    rw [lines_eq_cons]
    exact List.mem_cons_of_mem _ member
  exact (h.isLine_of_mem_lines (List.all_eq_true.mp rfl) inside).1

theorem Readable.newline_not_mem_head {t : Tool} (h : Readable t) {wrapper : String}
    (named : ∀ c ∈ wrapper.toList, Text.isNameChar c = true) :
    '\n' ∉ (head wrapper t.params).toList :=
  (h.isLine_of_mem_lines named (lines_eq_cons t wrapper ▸ List.mem_cons_self)).1

/-- A head begins with the name of its wrapper. -/
theorem exists_head?_head {wrapper : String} (named : Text.isName wrapper.toList = true)
    (params : List Param) :
    ∃ c, (head wrapper params).toList.head? = some c ∧ Text.isNameChar c = true := by
  obtain ⟨filled, all⟩ := Text.isName_iff.mp named
  obtain ⟨c, rest, shape⟩ := List.exists_cons_of_ne_nil filled
  refine ⟨c, ?_, all c (shape ▸ List.mem_cons_self)⟩
  simp only [head, String.toList_append, shape, List.cons_append, List.head?_cons]

theorem isComment_head {wrapper : String} (named : Text.isName wrapper.toList = true)
    (params : List Param) : Roxygen.isComment (head wrapper params).toList = false := by
  obtain ⟨c, first, letter⟩ := exists_head?_head named params
  apply Roxygen.isComment_of_head?
  rw [first]
  intro same
  rw [Option.some.inj same] at letter
  exact absurd letter (by decide)

end Wrapper

theorem Settings.isName_wrapperName {settings : Settings} {command : String}
    (named : ∀ c ∈ settings.wrapperPrefix.toList, Text.isNameChar c = true)
    (called : Text.isName command.toList = true) :
    Text.isName (settings.wrapperName command).toList = true := by
  obtain ⟨filled, all⟩ := Text.isName_iff.mp called
  rw [Text.isName_iff, wrapperName, String.toList_append]
  refine ⟨fun empty => filled (List.append_eq_nil_iff.mp empty).2, ?_⟩
  intro c member
  exact (List.mem_append.mp member).elim (named c) (all c)

theorem Catalogue.wellNamed_of_mem_tools {settings : Settings} {text : String} {c : Catalogue}
    (h : read settings text = .ok c) {t : Tool} (member : t ∈ c.tools) : t.definition.WellNamed := by
  obtain ⟨before, line, rest, number, length, _, found⟩ := exists_readTool h member
  obtain ⟨d, doc, accepted, _, rfl⟩ := Item.readTool_eq_ok found
  exact Definition.wellNamed_of_read? accepted

theorem Catalogue.readable_of_mem_tools {settings : Settings} {text : String} {c : Catalogue}
    (h : read settings text = .ok c) {t : Tool} (member : t ∈ c.tools) : Wrapper.Readable t := by
  obtain ⟨before, line, rest, number, length, split, found⟩ := exists_readTool h member
  obtain ⟨d, doc, accepted, _, rfl⟩ := Item.readTool_eq_ok found
  have clean : '\n' ∉ line := by
    apply Text.newline_not_mem_of_mem_lines
    rw [split]
    exact List.mem_append_right before List.mem_cons_self
  have trimmed : '\n' ∉ Text.trim line := fun broken => clean ((Text.trim_sublist line).subset broken)
  exact Wrapper.Readable.of_definition trimmed accepted

/-- The call that a sample shows. -/
def Roxygen.sampleLine (wrapper : String) : String :=
  mark (wrapper ++ "(input = dem, output = 'output.tif')")

theorem Roxygen.comment_of_mem_exampleLines {wrapper : String} (clean : '\n' ∉ wrapper.toList)
    {line : String} (member : line ∈ exampleLines wrapper) : Comment line := by
  simp only [exampleLines, List.mem_cons, List.not_mem_nil, or_false] at member
  rcases member with rfl | rfl | rfl | rfl | rfl | rfl
  · exact comment_emptyLine
  · exact comment_mark (by decide)
  · exact comment_mark (by decide)
  · exact comment_mark (by decide +kernel)
  · refine comment_mark ?_
    rw [String.toList_append, List.mem_append, not_or]
    exact ⟨clean, by decide +kernel⟩
  · exact comment_mark (by decide)

namespace Generated

/-- The sample call that the documentation of a tool shows, if any. -/
def sample? (settings : Settings) (s : Section) (t : Tool) : Option String :=
  if hasSampleRun s t && settings.wantsExample t.command then
    some (settings.wrapperName t.command)
  else none

theorem toolLines_eq (settings : Settings) (s : Section) (t : Tool) :
    toolLines settings s t =
      Roxygen.lines t none ++ (sample? settings s t).elim [] Roxygen.exampleLines ++
        Wrapper.head (settings.wrapperName t.command) t.params :: Wrapper.innerLines t := by
  have documented : Roxygen.lines t (sample? settings s t) =
      Roxygen.lines t none ++ (sample? settings s t).elim [] Roxygen.exampleLines := by
    cases sample? settings s t with
    | none => exact (List.append_nil _).symm
    | some wrapper => exact Roxygen.lines_some t wrapper
  rw [← documented, ← Wrapper.lines_eq_cons]
  rfl

theorem linesWhere_script {kind : List Char → Bool} (filled : kind [] = false) (settings : Settings)
    (s : Section) :
    Text.linesWhere kind (script settings s).contents =
      s.tools.flatMap fun t => (toolLines settings s t).flatMap (Text.linesWhere kind) := by
  rw [script, Text.linesWhere_unlines filled, scriptLines, List.flatMap_assoc]

end Generated

end ToolWrappers
