import Mathlib.Data.List.Nodup
import ToolWrappers.Proofs.Filing

/-! Where the tools of an accepted catalogue stand: under the last header before their definition.
Lines of the preamble and of docstrings announce nothing. -/

namespace ToolWrappers

namespace Settings

variable (settings : Settings)

/-- A header of the table or any other banner. -/
def header? (line : List Char) : Option String :=
  if (settings.toolbox? (.ofList line)).isSome || Banner.isBanner line then some (.ofList line)
  else none

/-- Whether the line with index `i` is a definition that is not passed over as preamble. -/
def definesAt (skip : Nat) (lines : List (List Char)) (i : Nat) : Bool :=
  skip ≤ i && lines[i]?.any fun line =>
    DocLine.isDefinition (Text.trim line) && (settings.toolbox? (.ofList (Text.trim line))).isNone

/-- Whether line `j` lies between an earlier definition and the end of its docstring. -/
def inDocstring (skip : Nat) (lines : List (List Char)) (j : Nat) : Bool :=
  (List.range j).any fun i => settings.definesAt skip lines i &&
    (Docstring.scan? (lines.drop (i + 1))).any fun d => j ≤ i + d.length

/-- The header on line `j`, unless the line is preamble or documentation. -/
def headerAt? (skip : Nat) (lines : List (List Char)) (j : Nat) : Option String :=
  if j < skip || settings.inDocstring skip lines j then none
  else lines[j]?.bind fun line => settings.header? (Text.trim line)

def headersBefore (skip : Nat) (lines : List (List Char)) (i : Nat) : List String :=
  (List.range i).filterMap (settings.headerAt? skip lines)

variable {settings} {skip : Nat} {line : List Char} {rest : List (List Char)}

theorem definesAt_succ_succ (i : Nat) :
    settings.definesAt (skip + 1) (line :: rest) (i + 1) = settings.definesAt skip rest i := by
  simp [definesAt]

theorem definesAt_zero_succ (i : Nat) :
    settings.definesAt 0 (line :: rest) (i + 1) = settings.definesAt 0 rest i := by
  simp [definesAt]

theorem definesAt_of_silent_lines {lines : List (List Char)}
    (h : ∀ line ∈ lines.take skip, DocLine.isDefinition (Text.trim line) = false) (i : Nat) :
    settings.definesAt 0 lines i = settings.definesAt skip lines i := by
  by_cases later : skip ≤ i
  · simp [definesAt, later]
  · cases at_i : lines[i]? with
    | none => simp [definesAt, at_i]
    | some line =>
        have member : line ∈ lines.take skip := by
          apply List.mem_of_getElem? (i := i)
          rw [List.getElem?_take_of_lt (Nat.lt_of_not_le later), at_i]
        simp [definesAt, at_i, later, h line member]

theorem any_range_succ (f : Nat → Bool) (n : Nat) :
    (List.range (n + 1)).any f = (f 0 || (List.range n).any fun i => f (i + 1)) := by
  rw [List.range_succ_eq_map, List.any_cons, List.any_map]
  rfl

theorem inDocstring_skipped (j : Nat) :
    settings.inDocstring (skip + 1) (line :: rest) (j + 1) = settings.inDocstring skip rest j := by
  have first : settings.definesAt (skip + 1) (line :: rest) 0 = false := by simp [definesAt]
  simp only [inDocstring, any_range_succ, first, definesAt_succ_succ, List.drop_succ_cons,
    Bool.false_and, Bool.false_or, Nat.add_right_comm _ 1, Nat.add_le_add_iff_right]

theorem inDocstring_silent (first : settings.definesAt 0 (line :: rest) 0 = false) (j : Nat) :
    settings.inDocstring 0 (line :: rest) (j + 1) = settings.inDocstring 0 rest j := by
  simp only [inDocstring, any_range_succ, first, definesAt_zero_succ, List.drop_succ_cons,
    Bool.false_and, Bool.false_or, Nat.add_right_comm _ 1, Nat.add_le_add_iff_right]

/-- The docstring of a first definition hides as much as if its lines were passed over. -/
theorem inDocstring_definition (first : settings.definesAt 0 (line :: rest) 0 = true)
    {d : Docstring} (scanned : Docstring.scan? rest = some d) (j : Nat) :
    settings.inDocstring 0 (line :: rest) (j + 1) =
      (decide (j < d.length) || settings.inDocstring d.length rest j) := by
  have silent (i : Nat) : settings.definesAt 0 rest i = settings.definesAt d.length rest i :=
    definesAt_of_silent_lines (fun other member =>
      Docstring.isDefinition_of_mem_take scanned member) i
  simp only [inDocstring, any_range_succ, first, definesAt_zero_succ, List.drop_succ_cons,
    List.drop_zero, scanned, Option.any_some, Bool.true_and, Nat.zero_add,
    Nat.add_right_comm _ 1, Nat.add_le_add_iff_right, silent]
  rfl

/-! ### The header on one line, with the first line taken away -/

theorem headerAt?_skipped (j : Nat) :
    settings.headerAt? (skip + 1) (line :: rest) (j + 1) = settings.headerAt? skip rest j := by
  simp only [headerAt?, inDocstring_skipped, Nat.add_lt_add_iff_right, List.getElem?_cons_succ]

theorem headerAt?_silent (first : settings.definesAt 0 (line :: rest) 0 = false) (j : Nat) :
    settings.headerAt? 0 (line :: rest) (j + 1) = settings.headerAt? 0 rest j := by
  simp only [headerAt?, inDocstring_silent first, Nat.not_lt_zero, decide_false,
    List.getElem?_cons_succ]

theorem headerAt?_definition (first : settings.definesAt 0 (line :: rest) 0 = true)
    {d : Docstring} (scanned : Docstring.scan? rest = some d) (j : Nat) :
    settings.headerAt? 0 (line :: rest) (j + 1) = settings.headerAt? d.length rest j := by
  simp only [headerAt?, inDocstring_definition first scanned, Nat.not_lt_zero, decide_false,
    Bool.false_or, List.getElem?_cons_succ]

/-! ### The headers on the first lines, line by line -/

theorem headersBefore_succ {skip' : Nat}
    (shift : ∀ j, settings.headerAt? skip (line :: rest) (j + 1) = settings.headerAt? skip' rest j)
    (i : Nat) :
    settings.headersBefore skip (line :: rest) (i + 1) =
      (settings.headerAt? skip (line :: rest) 0).toList ++ settings.headersBefore skip' rest i := by
  have shifted : settings.headerAt? skip (line :: rest) ∘ Nat.succ =
      settings.headerAt? skip' rest := funext shift
  rw [headersBefore, List.range_succ_eq_map, List.filterMap_cons, List.filterMap_map, shifted]
  cases settings.headerAt? skip (line :: rest) 0 <;> rfl

theorem headersBefore_skipped (i : Nat) :
    settings.headersBefore (skip + 1) (line :: rest) (i + 1) =
      settings.headersBefore skip rest i := by
  have first : settings.headerAt? (skip + 1) (line :: rest) 0 = none := by
    simp [headerAt?]
  rw [headersBefore_succ headerAt?_skipped, first]
  rfl

theorem headersBefore_silent (first : settings.definesAt 0 (line :: rest) 0 = false) (i : Nat) :
    settings.headersBefore 0 (line :: rest) (i + 1) =
      (settings.header? (Text.trim line)).toList ++ settings.headersBefore 0 rest i :=
  headersBefore_succ (headerAt?_silent first) i

theorem headersBefore_definition (first : settings.definesAt 0 (line :: rest) 0 = true)
    (plain : settings.header? (Text.trim line) = none)
    {d : Docstring} (scanned : Docstring.scan? rest = some d) (i : Nat) :
    settings.headersBefore 0 (line :: rest) (i + 1) =
      settings.headersBefore d.length rest i := by
  have none_here : settings.headerAt? 0 (line :: rest) 0 = none := plain
  rw [headersBefore_succ (headerAt?_definition first scanned), none_here]
  rfl

end Settings

namespace Item

def header? : Item → Option String
  | .toolbox header _ | .banner header _ => some header
  | .tool _ => none

def Agrees (settings : Settings) : Item → Prop
  | .toolbox header entry => settings.toolbox? header = some entry
  | .banner header _ => settings.toolbox? header = none
  | .tool _ => True

variable {settings : Settings} {skip number : Nat} {lines : List (List Char)} {items : List Item}

theorem Reads.agrees (h : Reads settings skip number lines items) :
    ∀ item ∈ items, item.Agrees settings := by
  induction h with
  | done => exact nofun
  | skipped _ ih => exact ih
  | toolbox mapped _ ih => exact List.forall_mem_cons.mpr ⟨mapped, ih⟩
  | banner unmapped _ _ ih => exact List.forall_mem_cons.mpr ⟨unmapped, ih⟩
  | tool _ _ _ _ _ ih => exact List.forall_mem_cons.mpr ⟨trivial, ih⟩
  | other _ _ _ _ ih => exact ih

/-- The mapped headers among the headers are those that open a section. -/
theorem entries_eq (agrees : ∀ item ∈ items, item.Agrees settings) :
    items.filterMap entry? = (items.filterMap header?).filterMap settings.toolbox? := by
  induction items with
  | nil => rfl
  | cons item items ih =>
      obtain ⟨here, later⟩ := List.forall_mem_cons.mp agrees
      cases item with
      | toolbox header entry =>
          change settings.toolbox? header = some entry at here
          change entry :: items.filterMap entry? =
            (header :: items.filterMap header?).filterMap settings.toolbox?
          rw [List.filterMap_cons_some here, ih later]
      | banner header line =>
          change settings.toolbox? header = none at here
          change items.filterMap entry? =
            (header :: items.filterMap header?).filterMap settings.toolbox?
          rw [List.filterMap_cons_none here, ih later]
      | tool t => exact ih later

/-- If tools go to a file, the last header is mapped to it. -/
theorem exists_last_header {fileName : String} (agrees : ∀ item ∈ items, item.Agrees settings)
    (target : destination items = .file fileName) :
    ∃ header entry, (items.filterMap header?).getLast? = some header ∧
      settings.toolbox? header = some entry ∧ entry.fileName = fileName := by
  induction items using List.reverseRecOn with
  | nil => cases target
  | append_singleton items item ih =>
      rw [destination_concat] at target
      rw [List.filterMap_append]
      have here := agrees item (List.mem_append_right items List.mem_cons_self)
      cases item with
      | toolbox header entry =>
          cases target
          exact ⟨header, entry, by simp [header?], here, rfl⟩
      | banner header line => cases target
      | tool t =>
          obtain ⟨header, entry, last, found⟩ := ih
            (fun other member => agrees other (List.mem_append_left _ member)) target
          exact ⟨header, entry, by simpa [header?] using last, found⟩

/-- The items `before` come from the first `i` lines. If a tool follows them, the next line is its
definition; if nothing follows, these are all lines. -/
structure CutAt (settings : Settings) (skip number : Nat) (lines : List (List Char))
    (before after : List Item) (i : Nat) : Prop where
  headers : before.filterMap header? = settings.headersBefore skip lines i
  next : ∀ t later, after = .tool t :: later →
    t.line = number + i ∧ settings.definesAt skip lines i = true
  ends : after = [] → i = lines.length

theorem CutAt.cons {skip' i : Nat} {line : List Char} {rest : List (List Char)}
    {before after : List Item} (h : CutAt settings skip' (number + 1) rest before after i)
    (front : List Item)
    (defines : settings.definesAt skip (line :: rest) (i + 1) = settings.definesAt skip' rest i)
    (headers : settings.headersBefore skip (line :: rest) (i + 1) =
      front.filterMap header? ++ settings.headersBefore skip' rest i) :
    CutAt settings skip number (line :: rest) (front ++ before) after (i + 1) where
  headers := by rw [List.filterMap_append, headers, h.headers]
  next t later following := by
    obtain ⟨line, there⟩ := h.next t later following
    exact ⟨by omega, defines.trans there⟩
  ends done := by rw [h.ends done, List.length_cons]

/-- Every cut of the items is a cut of the lines. -/
theorem Reads.exists_cutAt (h : Reads settings skip number lines items) {before after : List Item}
    (split : items = before ++ after) :
    ∃ i, CutAt settings skip number lines before after i := by
  -- Induction on the reading: where the first line gives an item, the cut is before it, with
  -- nothing read, or after it, with the cut of the rest moved by one line.
  induction h generalizing before after with
  | @done skip number =>
      obtain ⟨rfl, rfl⟩ := List.append_eq_nil_iff.mp split.symm
      exact ⟨0, rfl, nofun, fun _ => rfl⟩
  | skipped _ ih =>
      obtain ⟨i, cut⟩ := ih split
      exact ⟨i + 1, cut.cons [] (Settings.definesAt_succ_succ i)
        (Settings.headersBefore_skipped i)⟩
  | @toolbox number line rest items entry mapped _ ih =>
      have first : settings.definesAt 0 (line :: rest) 0 = false := by simp [Settings.definesAt, mapped]
      rcases List.cons_eq_append_iff.mp split with ⟨rfl, rfl⟩ | ⟨before, rfl, shorter⟩
      · exact ⟨0, rfl, nofun, nofun⟩
      · obtain ⟨i, cut⟩ := ih shorter
        refine ⟨i + 1, cut.cons [_] (Settings.definesAt_zero_succ i) ?_⟩
        rw [Settings.headersBefore_silent first, Settings.header?, mapped]
        rfl
  | @banner number line rest items unmapped shaped _ ih =>
      have first : settings.definesAt 0 (line :: rest) 0 = false := by
        simp [Settings.definesAt, DocLine.isDefinition_of_isBanner shaped]
      rcases List.cons_eq_append_iff.mp split with ⟨rfl, rfl⟩ | ⟨before, rfl, shorter⟩
      · exact ⟨0, rfl, nofun, nofun⟩
      · obtain ⟨i, cut⟩ := ih shorter
        refine ⟨i + 1, cut.cons [_] (Settings.definesAt_zero_succ i) ?_⟩
        rw [Settings.headersBefore_silent first, Settings.header?, unmapped, shaped]
        rfl
  | @tool number line rest items found length unmapped plain defines read _ ih =>
      obtain ⟨d, doc, _, scanned, rfl⟩ := readTool_eq_ok read
      have first : settings.definesAt 0 (line :: rest) 0 = true := by
        simp [Settings.definesAt, defines, unmapped]
      have no_header : settings.header? (Text.trim line) = none := by
        simp [Settings.header?, unmapped, plain]
      have silent (i : Nat) : settings.definesAt 0 rest i = settings.definesAt length rest i :=
        Settings.definesAt_of_silent_lines (fun other member =>
          Docstring.isDefinition_of_mem_take scanned member) i
      rcases List.cons_eq_append_iff.mp split with ⟨rfl, rfl⟩ | ⟨before, rfl, shorter⟩
      · refine ⟨0, rfl, ?_, nofun⟩
        rintro t later following
        cases following
        exact ⟨rfl, first⟩
      · obtain ⟨i, cut⟩ := ih shorter
        refine ⟨i + 1, cut.cons [_]
          ((Settings.definesAt_zero_succ i).trans (silent i)) ?_⟩
        exact Settings.headersBefore_definition first no_header scanned i
  | @other number line rest items unmapped plain silent _ ih =>
      have first : settings.definesAt 0 (line :: rest) 0 = false := by simp [Settings.definesAt, silent]
      obtain ⟨i, cut⟩ := ih split
      refine ⟨i + 1, cut.cons [] (Settings.definesAt_zero_succ i) ?_⟩
      rw [Settings.headersBefore_silent first, Settings.header?, unmapped, plain]
      rfl

end Item

/-- The sections stand in the order of the first mapped headers for their files, each file once.
The last header before the definition of a tool is mapped, and its file is that of the section. -/
structure Catalogue.FollowsHeaders (c : Catalogue) (settings : Settings)
    (lines : List (List Char)) : Prop where
  distinct : (c.sections.map (·.fileName)).Nodup
  order : c.sections.map (·.fileName) =
    (((settings.headersBefore settings.skipLines lines lines.length).filterMap
      settings.toolbox?).map (·.fileName)).eraseDups
  placed : ∀ s ∈ c.sections, ∀ t ∈ s.tools, ∃ i header entry, t.line = i + 1 ∧
    settings.definesAt settings.skipLines lines i = true ∧
    (settings.headersBefore settings.skipLines lines i).getLast? = some header ∧
    settings.toolbox? header = some entry ∧ s.fileName = entry.fileName ∧
    ((settings.toolboxes.map (·.fileName)).Nodup → s.examples = entry.examples)

theorem tools_follow_headers {settings : Settings} {text : String} {c : Catalogue}
    (h : Catalogue.read settings text = .ok c) :
    c.FollowsHeaders settings (Text.lines text.toList) := by
  obtain ⟨items, f, reads, reflects, same⟩ := Catalogue.exists_reads h
  have agrees := reads.agrees
  refine ⟨same ▸ reflects.nodup, ?_, ?_⟩
  · obtain ⟨i, cut⟩ := reads.exists_cutAt (List.append_nil items).symm
    rw [← same, reflects.names, Item.entries_eq agrees, cut.headers, cut.ends rfl]
  · rw [← same]
    intro s member t here
    obtain ⟨before, after, split, target⟩ := reflects.placed s member t here
    obtain ⟨i, cut⟩ := reads.exists_cutAt split
    obtain ⟨line, defines⟩ := cut.next t after rfl
    obtain ⟨header, entry, last, mapped, file⟩ := Item.exists_last_header
      (fun item earlier => agrees item (split ▸ List.mem_append_left _ earlier)) target
    refine ⟨i, header, entry, by omega, defines, cut.headers ▸ last, mapped, file.symm, ?_⟩
    intro distinct
    obtain ⟨opener, opened, name, flag⟩ := reflects.opened s member
    rw [Item.entries_eq agrees] at opened
    obtain ⟨first, _, found⟩ := List.mem_filterMap.mp opened
    have one : opener = entry := List.inj_on_of_nodup_map distinct
      (List.mem_of_find?_eq_some found) (List.mem_of_find?_eq_some mapped) (name.symm.trans file.symm)
    exact one ▸ flag

/-- A header inside a docstring, a banner that is not mapped, and a header that comes again. -/
def hiddenHeaderLines : List String :=
  ["# GIS Analysis #", "# Data Tools #", "def f(i):", "\"\"\"Text.", "# GIS Analysis #", "\"\"\"",
    "def g(i):", "\"\"\"", "# Strange #", "# Data Tools #", "def h(i):", "\"\"\""]

theorem tools_follow_headers_in_hiddenHeaderLines :
    ∃ c, Catalogue.read { skipLines := 0 } (Text.unlines hiddenHeaderLines) = .ok c ∧
      c.sections.map (fun s => (s.fileName, s.tools.map (·.line))) =
        [("gis_analysis.R", []), ("data_tools.R", [3, 7, 11])] ∧
      c.FollowsHeaders { skipLines := 0 } (Text.lines (Text.unlines hiddenHeaderLines).toList) := by
  have sections : (Catalogue.read { skipLines := 0 } (Text.unlines hiddenHeaderLines)).toOption.map
      (fun c => c.sections.map fun s => (s.fileName, s.tools.map (·.line))) =
      some [("gis_analysis.R", []), ("data_tools.R", [3, 7, 11])] := by
    rw [Catalogue.read_unlines _ (by decide +kernel)]
    decide +kernel
  cases read : Catalogue.read { skipLines := 0 } (Text.unlines hiddenHeaderLines) with
  | error e =>
      rw [read] at sections
      cases sections
  | ok c =>
      rw [read] at sections
      exact ⟨c, rfl, Option.some.inj sections, tools_follow_headers read⟩

end ToolWrappers
