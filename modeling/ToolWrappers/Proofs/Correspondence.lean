import ToolWrappers.Proofs.Filing

/-! The tools of an accepted catalogue and the definition lines of its text correspond one to one:
no definition is lost, none is filed twice, and no tool comes from anywhere else. -/

namespace ToolWrappers

/-- The trimmed definition lines from index `skip` on, with their numbers. The first line has this
`number`. -/
def definitionLines (skip number : Nat) (lines : List (List Char)) : List (List Char × Nat) :=
  (((lines.map Text.trim).zipIdx number).drop skip).filter fun (line, _) =>
    DocLine.isDefinition line

variable {skip number : Nat} {line : List Char} {rest lines : List (List Char)}

theorem definitionLines_skipped :
    definitionLines (skip + 1) number (line :: rest) = definitionLines skip (number + 1) rest := rfl

theorem definitionLines_of_isDefinition (h : DocLine.isDefinition (Text.trim line) = true) :
    definitionLines 0 number (line :: rest) =
      (Text.trim line, number) :: definitionLines 0 (number + 1) rest :=
  List.filter_cons_of_pos h

theorem definitionLines_of_silent (h : DocLine.isDefinition (Text.trim line) = false) :
    definitionLines 0 number (line :: rest) = definitionLines 0 (number + 1) rest :=
  List.filter_cons_of_neg (Bool.eq_false_iff.mp h)

/-- Passing over lines without definitions loses none. -/
theorem definitionLines_of_silent_lines
    (h : ∀ line ∈ lines.take skip, DocLine.isDefinition (Text.trim line) = false) :
    definitionLines skip number lines = definitionLines 0 number lines := by
  induction skip generalizing number lines with
  | zero => rfl
  | succ skip ih =>
      cases lines with
      | nil => rfl
      | cons line rest =>
          rw [List.take_succ_cons] at h
          rw [definitionLines_skipped, definitionLines_of_silent (h line List.mem_cons_self)]
          exact ih fun other member => h other (List.mem_cons_of_mem line member)

theorem pairwise_definitionLines (skip number : Nat) (lines : List (List Char)) :
    ((definitionLines skip number lines).map (·.2)).Pairwise (· < ·) := by
  have numbers : (((lines.map Text.trim).zipIdx number).map (·.2)).Pairwise (· < ·) := by
    rw [List.zipIdx_map_snd]
    exact List.pairwise_lt_range'
  exact numbers.sublist ((List.filter_sublist.trans (List.drop_sublist skip _)).map _)

/-- A line with a header of the table is no definition, if no header of the table looks like one. -/
theorem Settings.not_isDefinition_of_toolbox? {settings : Settings}
    (plain : ∀ entry ∈ settings.toolboxes, DocLine.isDefinition entry.header.toList = false)
    {line : List Char} {entry : Toolbox} (h : settings.toolbox? (.ofList line) = some entry) :
    DocLine.isDefinition line = false := by
  have same : entry.header = .ofList line := by simpa using List.find?_some h
  have silent := plain entry (List.mem_of_find?_eq_some h)
  rwa [same, String.toList_ofList] at silent

theorem Item.Reads.definitions {settings : Settings} {items : List Item}
    (plain : ∀ entry ∈ settings.toolboxes, DocLine.isDefinition entry.header.toList = false)
    (h : Item.Reads settings skip number lines items) :
    ((items.filterMap Item.tool?).map fun t => (some t.definition, t.line)) =
      (definitionLines skip number lines).map fun l => (Definition.read? l.1, l.2) := by
  induction h with
  | done => simp [definitionLines]
  | skipped _ ih => exact ih
  | toolbox mapped _ ih =>
      rw [definitionLines_of_silent (Settings.not_isDefinition_of_toolbox? plain mapped), ← ih]
      rfl
  | banner _ shaped _ ih =>
      rw [definitionLines_of_silent (DocLine.isDefinition_of_isBanner shaped), ← ih]
      rfl
  | other _ _ silent _ ih =>
      rw [definitionLines_of_silent silent, ← ih]
  | @tool number line rest items found length _ _ defines read _ ih =>
      obtain ⟨d, doc, parsed, scanned, rfl⟩ := Item.readTool_eq_ok read
      have whole : definitionLines length (number + 1) rest = definitionLines 0 (number + 1) rest :=
        definitionLines_of_silent_lines fun other member =>
          Docstring.isDefinition_of_mem_take scanned member
      rw [definitionLines_of_isDefinition defines, ← whole, List.map_cons, ← ih]
      exact congrArg (fun read? => (read?, number) :: _) parsed.symm

/-- Each definition line from `skipLines` on gives exactly one tool, with the number of the line and
what the line says; there are no other tools, and every section keeps the order of the text. -/
theorem tools_correspond_definitions {settings : Settings} {text : String} {c : Catalogue}
    (plain : ∀ entry ∈ settings.toolboxes, DocLine.isDefinition entry.header.toList = false)
    (h : Catalogue.read settings text = .ok c) :
    (c.tools.map fun t => (some t.definition, t.line)).Perm
        ((definitionLines settings.skipLines 1 (Text.lines text.toList)).map fun l =>
          (Definition.read? l.1, l.2)) ∧
      (c.tools.map (·.line)).Nodup ∧
      ∀ s ∈ c.sections, (s.tools.map (·.line)).Pairwise (· < ·) := by
  obtain ⟨items, f, reads, reflects, same⟩ := Catalogue.exists_reads h
  have found := reads.definitions plain
  have filed : c.tools.Perm (items.filterMap Item.tool?) := by
    unfold Catalogue.tools
    rw [← same]
    exact reflects.filed
  have lines : (items.filterMap Item.tool?).map (·.line) =
      (definitionLines settings.skipLines 1 (Text.lines text.toList)).map (·.2) := by
    have numbers := congrArg (List.map Prod.snd) found
    simpa only [List.map_map, Function.comp_def] using numbers
  have increasing : ((items.filterMap Item.tool?).map (·.line)).Pairwise (· < ·) :=
    lines ▸ pairwise_definitionLines _ _ _
  refine ⟨?_, ?_, ?_⟩
  · rw [← found]
    exact filed.map _
  · exact (filed.map _).nodup_iff.mpr (increasing.imp Nat.ne_of_lt)
  · intro s member
    exact increasing.sublist ((reflects.ordered s (same ▸ member)).map _)

/-- The first line is passed over, the first docstring speaks of a definition, and the first section
is reopened. -/
def reopenedLines : List String :=
  ["def run(self):", "# Data Tools #", "def f(self, i, output):", "\"\"\"Like def g.", "i -- Input.",
    "\"\"\"", "# GIS Analysis #", "  def h(x=1):", "\"\"\"One line.\"\"\"", "# Data Tools #", "def k():",
    "\"\"\""]

theorem tools_correspond_in_reopenedLines :
    (∀ entry ∈ standardToolboxes, DocLine.isDefinition entry.header.toList = false) ∧
      ∃ c, Catalogue.read { skipLines := 1 } (Text.unlines reopenedLines) = .ok c ∧
        c.tools.map (·.line) = [3, 11, 8] ∧
        (c.tools.map fun t => (some t.definition, t.line)).Perm
          ((definitionLines 1 1 (Text.lines (Text.unlines reopenedLines).toList)).map fun l =>
            (Definition.read? l.1, l.2)) ∧
        (c.tools.map (·.line)).Nodup ∧
        ∀ s ∈ c.sections, (s.tools.map (·.line)).Pairwise (· < ·) := by
  have plain : ∀ entry ∈ standardToolboxes, DocLine.isDefinition entry.header.toList = false := by
    decide +kernel
  have lines : (Catalogue.read { skipLines := 1 } (Text.unlines reopenedLines)).toOption.map
      (fun c => c.tools.map (·.line)) = some [3, 11, 8] := by
    rw [Catalogue.read_unlines _ (by decide +kernel)]
    decide +kernel
  cases read : Catalogue.read { skipLines := 1 } (Text.unlines reopenedLines) with
  | error e =>
      rw [read] at lines
      cases lines
  | ok c =>
      rw [read] at lines
      obtain ⟨same, distinct, ordered⟩ := tools_correspond_definitions plain read
      exact ⟨plain, c, rfl, Option.some.inj lines, same, distinct, ordered⟩

end ToolWrappers
