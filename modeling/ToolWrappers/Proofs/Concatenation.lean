import ToolWrappers.Proofs.Renumbering

/-! Catalogues of texts that follow one another. What comes after an accepted text only adds to its
catalogue, and if it begins with a header, then it adds what it holds by itself. -/

namespace ToolWrappers

/-! ### Catalogues that add to others -/

def Section.extend (more : String → List Tool) (s : Section) : Section :=
  { s with tools := s.tools ++ more s.fileName }

/-- What `d` has beyond `c` stands at the end of its sections and in sections behind them. -/
def Catalogue.Extends (c d : Catalogue) : Prop :=
  ∃ more opened, d.sections = c.sections.map (·.extend more) ++ opened

def toolsFor (sections : List Section) (fileName : String) : List Tool :=
  match sections.find? (·.fileName = fileName) with
  | some s => s.tools
  | none => []

/-- The first sections take over the tools for their files; the others follow. -/
def mergeSections (first second : List Section) : List Section :=
  first.map (·.extend (toolsFor second)) ++
    second.filter fun s => s.fileName ∉ first.map (·.fileName)

def Catalogue.merge (c d : Catalogue) : Catalogue := ⟨mergeSections c.sections d.sections⟩

def onlyFor (fileName : String) (t : Tool) (other : String) : List Tool :=
  if other = fileName then [t] else []

theorem Section.extend_nothing (s : Section) : s.extend (fun _ => []) = s := by
  simp only [extend, List.append_nil]

theorem Section.extend_extend (more later : String → List Tool) (s : Section) :
    (s.extend more).extend later = s.extend fun name => more name ++ later name := by
  simp only [extend, List.append_assoc]

theorem map_extend_nothing (sections : List Section) :
    sections.map (·.extend fun _ => []) = sections := by
  simp only [Section.extend_nothing, List.map_id']

theorem names_map_extend (more : String → List Tool) (sections : List Section) :
    (sections.map (·.extend more)).map (·.fileName) = sections.map (·.fileName) := by
  rw [List.map_map]
  rfl

theorem Catalogue.Extends.refl (c : Catalogue) : c.Extends c :=
  ⟨fun _ => [], [], by rw [map_extend_nothing, List.append_nil]⟩

theorem Catalogue.Extends.trans {c d e : Catalogue} (first : c.Extends d) (second : d.Extends e) :
    c.Extends e := by
  obtain ⟨more, opened, same⟩ := first
  obtain ⟨later, last, same'⟩ := second
  refine ⟨fun name => more name ++ later name, opened.map (·.extend later) ++ last, ?_⟩
  simp only [same', same, List.map_append, List.map_map, Function.comp_def, Section.extend_extend,
    List.append_assoc]

namespace Filing

variable {settings : Settings} {skip number : Nat} {lines : List (List Char)} {f g : Filing}
  {items : List Item}

theorem sections_addTool (f : Filing) (fileName : String) (t : Tool) :
    (f.addTool fileName t).sections = f.sections.map (·.extend (onlyFor fileName t)) := by
  refine List.map_congr_left fun s _ => ?_
  unfold Section.extend onlyFor
  split
  · rfl
  · rw [List.append_nil]

section

variable {R : Filing → Filing → Prop} (refl : ∀ f, R f f)
  (trans : ∀ {f g h}, R f g → R g h → R f h)
  (step : ∀ {f item g}, f.add item = .ok g → R f g)

include refl trans step

/-- What holds between the filings before and after one item, and can be chained, holds between
those before and after a run of items. -/
theorem chain_of_run (h : items.foldlM add f = .ok g) : R f g := by
  induction items generalizing f with
  | nil =>
      cases h
      exact refl _
  | cons item items ih =>
      obtain ⟨next, here, later⟩ := bind_eq_ok.mp h
      exact trans (step here) (ih later)

theorem chain_of_readLines (h : readLines settings skip number lines f = .ok g) : R f g := by
  induction lines generalizing skip number f with
  | nil =>
      cases h
      exact refl _
  | cons line rest ih =>
      cases skip with
      | succ skip => exact ih h
      | zero =>
          obtain ⟨here, next, _, filed, later⟩ := readLines_cons_eq_ok.mp h
          exact trans (chain_of_run refl trans step filed) (ih later)

end

theorem extends_openSection (f : Filing) (header : String) (entry : Toolbox) :
    f.catalogue.Extends (f.openSection header entry).catalogue := by
  by_cases known : entry.fileName ∈ f.sections.map (·.fileName)
  · refine ⟨fun _ => [], [], ?_⟩
    rw [map_extend_nothing, List.append_nil]
    exact openSection_of_mem header known
  · refine ⟨fun _ => [], [⟨header, entry.fileName, entry.examples, []⟩], ?_⟩
    rw [map_extend_nothing]
    exact openSection_of_not_mem header known

theorem extends_add {item : Item} (h : f.add item = .ok g) : f.catalogue.Extends g.catalogue := by
  cases item with
  | toolbox header entry =>
      cases h
      exact extends_openSection f header entry
  | banner header line =>
      cases h
      exact .refl f.catalogue
  | tool t =>
      obtain ⟨fileName, _, rfl⟩ := add_tool_eq_ok h
      refine ⟨onlyFor fileName t, [], ?_⟩
      rw [List.append_nil]
      exact sections_addTool f fileName t

/-! ### Filing behind what is filed already -/

/-- Tools go to a section that is there. -/
def Open (f : Filing) : Prop :=
  ∀ fileName, f.destination = .file fileName → fileName ∈ f.sections.map (·.fileName)

theorem Open.start : Open {} := nofun

theorem Open.openSection (f : Filing) (header : String) (entry : Toolbox) :
    (f.openSection header entry).Open := by
  rintro fileName same
  cases same
  by_cases known : entry.fileName ∈ f.sections.map (·.fileName)
  · rw [openSection_of_mem header known]
    exact known
  · rw [openSection_of_not_mem header known, List.map_append]
    exact List.mem_append_right _ List.mem_cons_self

theorem Open.add (h : f.Open) {item : Item} (step : f.add item = .ok g) : g.Open := by
  cases item with
  | toolbox header entry =>
      cases step
      exact .openSection f header entry
  | banner header line =>
      cases step
      exact nofun
  | tool t =>
      obtain ⟨_, _, rfl⟩ := add_tool_eq_ok step
      intro fileName same
      rw [names_addTool]
      exact h fileName same

def after (first : List Section) (f : Filing) : Filing :=
  ⟨mergeSections first f.sections, f.destination⟩

theorem mem_names_mergeSections (first second : List Section) (fileName : String) :
    fileName ∈ (mergeSections first second).map (·.fileName) ↔
      fileName ∈ first.map (·.fileName) ∨ fileName ∈ second.map (·.fileName) := by
  rw [mergeSections, List.map_append, names_map_extend, List.mem_append]
  constructor
  · rintro (here | there)
    · exact .inl here
    · obtain ⟨s, member, same⟩ := List.mem_map.mp there
      exact .inr (List.mem_map.mpr ⟨s, (List.mem_filter.mp member).1, same⟩)
  · intro h
    by_cases known : fileName ∈ first.map (·.fileName)
    · exact .inl known
    · obtain ⟨s, member, rfl⟩ := List.mem_map.mp (h.resolve_left known)
      exact .inr (List.mem_map.mpr ⟨s, List.mem_filter.mpr ⟨member, decide_eq_true known⟩, rfl⟩)

theorem toolsFor_concat {sections : List Section} {s : Section} (empty : s.tools = []) :
    toolsFor (sections ++ [s]) = toolsFor sections := by
  funext fileName
  unfold toolsFor
  rw [List.find?_append]
  cases sections.find? (·.fileName = fileName) with
  | some found => rfl
  | none =>
      by_cases same : s.fileName = fileName <;> simp [same, empty]

theorem openSection_after (first : List Section) (f : Filing) (header : String) (entry : Toolbox) :
    (f.after first).openSection header entry = (f.openSection header entry).after first := by
  have sections : ((f.after first).openSection header entry).sections =
      mergeSections first (f.openSection header entry).sections := by
    have named := mem_names_mergeSections first f.sections entry.fileName
    by_cases known : entry.fileName ∈ f.sections.map (·.fileName)
    · rw [openSection_of_mem header known, openSection_of_mem header (named.mpr (.inr known))]
      rfl
    · rw [openSection_of_not_mem header known, mergeSections, toolsFor_concat rfl,
        List.filter_append, ← List.append_assoc, ← mergeSections]
      by_cases old : entry.fileName ∈ first.map (·.fileName)
      · rw [openSection_of_mem header (named.mpr (.inl old)),
          List.filter_cons_of_neg (by simpa using old), List.filter_nil, List.append_nil]
        rfl
      · rw [openSection_of_not_mem header (mt named.mp (not_or_intro old known)),
          List.filter_cons_of_pos (by simpa using old), List.filter_nil]
        rfl
  exact congrArg (Filing.mk · (.file entry.fileName)) sections

theorem toolsFor_addTool {f : Filing} {fileName : String} (t : Tool)
    (known : fileName ∈ f.sections.map (·.fileName)) :
    toolsFor (f.addTool fileName t).sections =
      fun name => toolsFor f.sections name ++ onlyFor fileName t name := by
  funext name
  unfold toolsFor
  rw [sections_addTool, List.find?_map]
  change (match (f.sections.find? (·.fileName = name)).map (·.extend (onlyFor fileName t)) with
    | some s => s.tools
    | none => []) = _
  cases found : f.sections.find? (·.fileName = name) with
  | some s =>
      have same : s.fileName = name := by simpa using List.find?_some found
      exact congrArg (s.tools ++ onlyFor fileName t ·) same
  | none =>
      have other : name ≠ fileName := by
        rintro rfl
        obtain ⟨s, member, same⟩ := List.mem_map.mp known
        simpa [same] using List.find?_eq_none.mp found s member
      exact (if_neg other).symm

theorem addTool_after (first : List Section) {f : Filing} {fileName : String} (t : Tool)
    (known : fileName ∈ f.sections.map (·.fileName)) :
    (f.after first).addTool fileName t = (f.addTool fileName t).after first := by
  have sections : ((f.after first).addTool fileName t).sections =
      mergeSections first (f.addTool fileName t).sections := by
    rw [sections_addTool, mergeSections, toolsFor_addTool t known, sections_addTool,
      List.filter_map]
    simp only [after, mergeSections, List.map_append, List.map_map, Function.comp_def,
      Section.extend_extend]
    rfl
  exact congrArg (Filing.mk · f.destination) sections

theorem add_after (first : List Section) (h : f.Open) (item : Item) :
    (f.after first).add item = after first <$> f.add item := by
  cases item with
  | toolbox header entry => exact congrArg Except.ok (openSection_after first f header entry)
  | banner header line => rfl
  | tool t =>
      obtain ⟨sections, destination⟩ := f
      cases destination with
      | nowhere => rfl
      | file fileName => exact congrArg Except.ok (addTool_after first t (h fileName rfl))
      | unmapped header line => rfl

theorem foldlM_add_after (first : List Section) (h : f.Open) (items : List Item) :
    items.foldlM add (f.after first) = after first <$> items.foldlM add f := by
  induction items generalizing f with
  | nil => rfl
  | cons item items ih =>
      rw [List.foldlM_cons, List.foldlM_cons, add_after first h]
      cases step : f.add item with
      | error e => rfl
      | ok next => exact ih (h.add step)

theorem Open.foldlM (h : f.Open) (run : items.foldlM Filing.add f = .ok g) : g.Open :=
  chain_of_run (R := fun f g => f.Open → g.Open) (fun _ => id) (fun first second => second ∘ first)
    (fun step before => before.add step) run h

theorem readLines_after (settings : Settings) (skip number : Nat) (lines : List (List Char))
    (first : List Section) (h : f.Open) :
    readLines settings skip number lines (f.after first) =
      after first <$> readLines settings skip number lines f := by
  -- Filing behind other sections needs an open destination, which each step leaves open.
  induction lines generalizing skip number f with
  | nil => rfl
  | cons line rest ih =>
      cases skip with
      | succ skip => exact ih skip (number + 1) h
      | zero =>
          rw [readLines, readLines]
          cases Item.atLine settings number line rest with
          | error e => rfl
          | ok here =>
              rw [ok_bind, ok_bind, foldlM_add_after first h]
              cases run : here.1.foldlM add f with
              | error e => rfl
              | ok next => exact ih here.2 (number + 1) (h.foldlM run)

theorem after_start (first : List Section) : after first {} = ⟨first, .nowhere⟩ := by
  have same : mergeSections first [] = first := by
    change first.map (·.extend fun _ => []) ++ [] = first
    rw [map_extend_nothing, List.append_nil]
  exact congrArg (Filing.mk · .nowhere) same

/-- A header on the first line settles where tools go, whatever was settled before. -/
theorem readLines_of_header {line : List Char} {entry : Toolbox}
    (mapped : settings.toolbox? (.ofList (Text.trim line)) = some entry) (number : Nat)
    (rest : List (List Char)) (f : Filing) :
    readLines settings 0 number (line :: rest) f =
      after f.sections <$> readLines settings 0 number (line :: rest) {} := by
  rw [← readLines_after settings 0 number (line :: rest) f.sections .start, after_start, readLines,
    readLines, Item.atLine_toolbox mapped]
  rfl

end Filing

theorem Catalogue.exists_read_append {settings : Settings} (whole : settings.skipLines = 0)
    {first : String} (complete : Text.Complete first.toList) {c : Catalogue}
    (accepted : read settings first = .ok c) :
    ∃ f : Filing, f.catalogue = c ∧ ∀ second : String, read settings (first ++ second) =
      Filing.catalogue <$> Filing.readLines settings 0 (1 + (Text.lines first.toList).length)
        (Text.lines second.toList) f := by
  rw [read_eq_readLines, whole] at accepted
  cases run : Filing.readLines settings 0 1 (Text.lines first.toList) {} with
  | error e =>
      rw [run] at accepted
      cases accepted
  | ok f =>
      rw [run] at accepted
      refine ⟨f, Except.ok.inj accepted, fun second => ?_⟩
      rw [read_eq_readLines, whole, String.toList_append, Text.lines_append_of_complete complete,
        Filing.readLines_append (Nat.zero_le _) run]

/-- A text after an accepted one, which ends with a complete line, adds to its catalogue or has an
error behind it. If it begins with a header, then its own catalogue is added, or its own error
comes up, moved down by the lines before it. -/
theorem reading_adds_up {settings : Settings} (whole : settings.skipLines = 0) {first : String}
    (complete : Text.Complete first.toList) {c : Catalogue}
    (accepted : Catalogue.read settings first = .ok c) (second : String) :
    ((∃ e, Catalogue.read settings (first ++ second) = .error e ∧
          (Text.lines first.toList).length < e.line) ∨
        ∃ d, Catalogue.read settings (first ++ second) = .ok d ∧ c.Extends d) ∧
      ∀ line entry, (Text.lines second.toList).head? = some line →
        settings.toolbox? (.ofList (Text.trim line)) = some entry →
        Catalogue.read settings (first ++ second) =
          movedOutcome (Text.lines first.toList).length
            (fun d => c.merge (d.movedBy (Text.lines first.toList).length))
            (Catalogue.read settings second) := by
  obtain ⟨f, rfl, joined⟩ := Catalogue.exists_read_append whole complete accepted
  rw [joined]
  generalize (Text.lines first.toList).length = n
  constructor
  · cases run : Filing.readLines settings 0 (1 + n) (Text.lines second.toList) f with
    | error e =>
        obtain ⟨before, _, _, _, _, stops⟩ := Filing.exists_stopsAt run
        have behind := stops.line_eq
        exact .inl ⟨e, rfl, by omega⟩
    | ok g =>
        exact .inr ⟨g.catalogue, rfl, Filing.chain_of_readLines
          (R := fun f g => f.catalogue.Extends g.catalogue) (fun f => .refl f.catalogue)
          .trans Filing.extends_add run⟩
  · intro line entry head mapped
    obtain ⟨rest, lines⟩ := List.head?_eq_some_iff.mp head
    have alone := Filing.catalogue_readLines_moved settings n 0 (Text.lines second.toList)
    rw [Catalogue.read_eq_readLines, whole]
    calc
      Filing.catalogue <$> Filing.readLines settings 0 (1 + n) (Text.lines second.toList) f =
          f.catalogue.merge <$> Filing.catalogue <$>
            Filing.readLines settings 0 (1 + n) (Text.lines second.toList) {} := by
        rw [lines, Filing.readLines_of_header mapped]
        cases Filing.readLines settings 0 (1 + n) (line :: rest) {} <;> rfl
      _ = f.catalogue.merge <$> movedOutcome n (·.movedBy n)
            (Filing.catalogue <$> Filing.readLines settings 0 1 (Text.lines second.toList) {}) := by
        rw [alone]
      _ = movedOutcome n (fun d => f.catalogue.merge (d.movedBy n))
            (Filing.catalogue <$> Filing.readLines settings 0 1 (Text.lines second.toList) {}) := by
        cases Filing.readLines settings 0 1 (Text.lines second.toList) {} <;> rfl

/-- Two sections; the second text goes on with one of them and opens another. -/
def earlierLines : List String :=
  ["# GIS Analysis #", "# Data Tools #", "def f(i):", "\"\"\"Text.", "\"\"\""]

def laterLines : List String :=
  ["# GIS Analysis #", "def g(i):", "\"\"\"", "# LiDAR Tools #", "def h(i):", "\"\"\"One line.\"\"\""]

theorem reading_adds_up_for_laterLines :
    Text.Complete (Text.unlines earlierLines).toList ∧
      ∃ c d, Catalogue.read { skipLines := 0 } (Text.unlines earlierLines) = .ok c ∧
        Catalogue.read { skipLines := 0 } (Text.unlines laterLines) = .ok d ∧
        Catalogue.read { skipLines := 0 } (Text.unlines earlierLines ++ Text.unlines laterLines) =
          .ok (c.merge (d.movedBy 5)) ∧
        c.Extends (c.merge (d.movedBy 5)) ∧
        (c.merge (d.movedBy 5)).sections.map (fun s => (s.fileName, s.tools.map (·.line))) =
          [("gis_analysis.R", [7]), ("data_tools.R", [3]), ("lidar_analysis.R", [10])] := by
  have complete : Text.Complete (Text.unlines earlierLines).toList := by decide +kernel
  have counted : (Text.lines (Text.unlines earlierLines).toList).length = 5 := by decide +kernel
  have head : (Text.lines (Text.unlines laterLines).toList).head? =
      some "# GIS Analysis #".toList := by decide +kernel
  have mapped : Settings.toolbox? {} (.ofList (Text.trim "# GIS Analysis #".toList)) =
      some ⟨"# GIS Analysis #", "gis_analysis.R", false⟩ := by decide +kernel
  have both : ((Catalogue.read { skipLines := 0 } (Text.unlines earlierLines)).toOption.bind
      fun c => (Catalogue.read { skipLines := 0 } (Text.unlines laterLines)).toOption.map
        fun d => (c.merge (d.movedBy 5)).sections.map fun s => (s.fileName, s.tools.map (·.line))) =
        some [("gis_analysis.R", [7]), ("data_tools.R", [3]), ("lidar_analysis.R", [10])] := by
    rw [Catalogue.read_unlines _ (by decide +kernel), Catalogue.read_unlines _ (by decide +kernel)]
    decide +kernel
  cases read : Catalogue.read { skipLines := 0 } (Text.unlines earlierLines) with
  | error e =>
      rw [read] at both
      cases both
  | ok c =>
      cases readLater : Catalogue.read { skipLines := 0 } (Text.unlines laterLines) with
      | error e =>
          rw [read, readLater] at both
          cases both
      | ok d =>
          rw [read, readLater] at both
          obtain ⟨adds, merges⟩ := reading_adds_up rfl complete read (Text.unlines laterLines)
          have joined := merges _ _ head mapped
          rw [counted, readLater] at joined
          refine ⟨complete, c, d, rfl, rfl, joined, ?_, Option.some.inj both⟩
          rcases adds with ⟨e, fails, _⟩ | ⟨d', reads, longer⟩
          · rw [joined] at fails
            cases fails
          · rw [joined] at reads
            cases reads
            exact longer

end ToolWrappers
