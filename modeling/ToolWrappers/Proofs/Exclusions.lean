import ToolWrappers.Proofs.LineByLine
import ToolWrappers.Proofs.SampleRuns

/-! The two lists of excluded tools do not reach into each other. A list of tools without tests leaves
the scripts alone, a list of tools without examples leaves the tests alone, and of what each is for it
touches nothing but the tools that it names. -/

namespace ToolWrappers

namespace Roxygen

/-- Whether the lines begin with the examples block of one of these wrappers. -/
def beginsExample (wrappers lines : List String) : Bool :=
  wrappers.any fun wrapper => (exampleLines wrapper).isPrefixOf lines

/-- The lines without the examples blocks of these wrappers; `skip` lines still belong to the block just
met. -/
def dropExamplesFrom (wrappers : List String) : Nat → List String → List String
  | _, [] => []
  | skip + 1, _ :: rest => dropExamplesFrom wrappers skip rest
  | 0, line :: rest =>
    if beginsExample wrappers (line :: rest) then dropExamplesFrom wrappers 5 rest
    else line :: dropExamplesFrom wrappers 0 rest

/-- The lines without the examples blocks of these wrappers, each of them six lines long. -/
def dropExamples (wrappers lines : List String) : List String := dropExamplesFrom wrappers 0 lines

section

variable {wrappers lines : List String} {line wrapper other : String}

theorem beginsExample_iff :
    beginsExample wrappers lines = true ↔ ∃ wrapper ∈ wrappers, exampleLines wrapper <+: lines := by
  simp only [beginsExample, List.any_eq_true, List.isPrefixOf_iff_prefix]

theorem beginsExample_eq_false (other : ∀ wrapper, ¬exampleLines wrapper <+: lines) :
    beginsExample wrappers lines = false := by
  rw [Bool.eq_false_iff]
  intro begins
  obtain ⟨wrapper, -, lead⟩ := beginsExample_iff.mp begins
  exact other wrapper lead

theorem beginsExample_of_ne (other : line ≠ emptyLine) (rest : List String) :
    beginsExample wrappers (line :: rest) = false := by
  apply beginsExample_eq_false
  intro wrapper lead
  exact other (List.cons_prefix_cons.mp lead).1.symm

theorem beginsExample_of_second_ne (other : line ≠ mark "@examples") (first : String)
    (rest : List String) : beginsExample wrappers (first :: line :: rest) = false := by
  apply beginsExample_eq_false
  intro wrapper lead
  exact other (List.cons_prefix_cons.mp (List.cons_prefix_cons.mp lead).2).1.symm

theorem beginsExample_of_third_ne (other : line ≠ mark "\\dontrun\x7b") (first second : String)
    (rest : List String) : beginsExample wrappers (first :: second :: line :: rest) = false := by
  apply beginsExample_eq_false
  intro wrapper lead
  have later := (List.cons_prefix_cons.mp (List.cons_prefix_cons.mp lead).2).2
  exact other (List.cons_prefix_cons.mp later).1.symm

/-- A block names its wrapper. -/
theorem eq_of_exampleLines_isPrefix {rest : List String}
    (lead : exampleLines wrapper <+: exampleLines other ++ rest) : wrapper = other := by
  simpa [exampleLines, mark] using lead

theorem dropExamples_cons (inside : beginsExample wrappers (line :: lines) = false) :
    dropExamples wrappers (line :: lines) = line :: dropExamples wrappers lines := by
  rw [dropExamples, dropExamplesFrom, inside]
  rfl

theorem dropExamples_append_of_ne (others : ∀ line ∈ lines, line ≠ emptyLine) (rest : List String) :
    dropExamples wrappers (lines ++ rest) = lines ++ dropExamples wrappers rest := by
  induction lines with
  | nil => rfl
  | cons line lines ih =>
      rw [List.cons_append, dropExamples_cons (beginsExample_of_ne (others line List.mem_cons_self) _),
        ih fun other member => others other (List.mem_cons_of_mem line member)]
      rfl

theorem mark_ne_emptyLine (text : String) : mark text ≠ emptyLine := by
  intro same
  have third := congrArg (fun line : String => line.toList[2]?) same
  simp [mark, emptyLine, String.toList_append] at third

theorem dropExamples_exampleLines_of_mem (member : wrapper ∈ wrappers) (rest : List String) :
    dropExamples wrappers (exampleLines wrapper ++ rest) = dropExamples wrappers rest := by
  have begins := beginsExample_iff.mpr ⟨wrapper, member, List.prefix_append _ rest⟩
  rw [exampleLines, List.cons_append] at begins ⊢
  rw [dropExamples, dropExamplesFrom, if_pos begins]
  rfl

theorem dropExamples_exampleLines_of_not_mem (absent : wrapper ∉ wrappers) (rest : List String) :
    dropExamples wrappers (exampleLines wrapper ++ rest) =
      exampleLines wrapper ++ dropExamples wrappers rest := by
  -- The block of another wrapper differs in the fifth line only.
  have inside : beginsExample wrappers (exampleLines wrapper ++ rest) = false := by
    rw [Bool.eq_false_iff]
    intro begins
    obtain ⟨other, member, lead⟩ := beginsExample_iff.mp begins
    exact absent (eq_of_exampleLines_isPrefix lead ▸ member)
  have others : ∀ line ∈ (exampleLines wrapper).tail, line ≠ emptyLine := by
    simp [exampleLines, mark_ne_emptyLine]
  have shape : exampleLines wrapper = emptyLine :: (exampleLines wrapper).tail := rfl
  rw [shape, List.cons_append] at inside ⊢
  rw [dropExamples_cons inside, dropExamples_append_of_ne others]
  rfl

example : dropExamples ["wbt_f"] ("#' " :: exampleLines "wbt_f" ++ exampleLines "wbt_g") =
    "#' " :: exampleLines "wbt_g" := by decide +kernel

theorem dropExamples_sample (sample? : Option String) (rest : List String) :
    dropExamples wrappers (sample?.elim [] exampleLines ++ rest) =
      (sample?.filter (· ∉ wrappers)).elim [] exampleLines ++ dropExamples wrappers rest := by
  cases sample? with
  | none => rfl
  | some wrapper =>
      rw [Option.filter_some]
      by_cases member : wrapper ∈ wrappers
      · rw [if_neg (by simpa using member)]
        exact dropExamples_exampleLines_of_mem member rest
      · rw [if_pos (by simpa using member)]
        exact dropExamples_exampleLines_of_not_mem member rest

/-- A title or a summary may look like a line of a block, but without a sample there is no block. -/
theorem dropExamples_lines (t : Tool) (rest : List String) :
    dropExamples wrappers (Roxygen.lines t none ++ rest) =
      Roxygen.lines t none ++ dropExamples wrappers rest := by
  have head (text : String) (later : List String) :
      dropExamples wrappers (mark text :: later) = mark text :: dropExamples wrappers later :=
    dropExamples_cons (beginsExample_of_ne (mark_ne_emptyLine text) later)
  have params (later : List String) :
      dropExamples wrappers
          (emptyLine ::
            ((t.doc.params ++ implicitParams).map (fun p => mark ("@param " ++ p)) ++ later)) =
        emptyLine :: ((t.doc.params ++ implicitParams).map (fun p => mark ("@param " ++ p)) ++
          dropExamples wrappers later) := by
    have others : ∀ line ∈ (t.doc.params ++ implicitParams).map (fun p => mark ("@param " ++ p)),
        line ≠ emptyLine := List.forall_mem_map.mpr fun p _ => mark_ne_emptyLine _
    obtain ⟨first, more, shape⟩ : ∃ first more, t.doc.params ++ implicitParams = first :: more :=
      List.exists_cons_of_ne_nil (by simp [implicitParams])
    rw [← dropExamples_append_of_ne others, shape, List.map_cons, List.cons_append,
      dropExamples_cons (beginsExample_of_second_ne (mark_param_ne first) _ _)]
  have last : dropExamples wrappers
      (emptyLine :: mark "@return Returns the tool text outputs." :: mark "@export" :: rest) =
      emptyLine :: mark "@return Returns the tool text outputs." :: mark "@export" ::
        dropExamples wrappers rest := by
    rw [dropExamples_cons (beginsExample_of_second_ne (by decide) _ _), head, head]
  rw [Roxygen.lines, List.append_nil]
  simp only [List.append_assoc, List.cons_append, List.nil_append]
  rw [head]
  cases t.doc.summary with
  | none => rw [List.nil_append, params, last, List.nil_append]
  | some summary =>
      have empty : emptyLine ≠ mark "\\dontrun\x7b" := by decide
      simp only [List.cons_append, List.nil_append]
      rw [dropExamples_cons (beginsExample_of_third_ne empty _ _ _), head, params, last]

end

end Roxygen

theorem Wrapper.ne_emptyLine_of_mem_lines {t : Tool} {wrapper line : String}
    (member : line ∈ lines t wrapper) : line ≠ Roxygen.emptyLine := by
  rw [lines_eq_cons] at member
  rcases List.mem_cons.mp member with rfl | inner
  · intro same
    have ends := congrArg (fun line : String => line.toList.getLast?) same
    rw [head, String.toList_append, List.getLast?_append_of_ne_nil _ (by decide)] at ends
    exact absurd ends (by decide)
  · rintro rfl
    rcases head?_of_mem_innerLines inner with first | first | empty
    · exact absurd first (by decide)
    · exact absurd first (by decide)
    · exact absurd empty (by decide)

/-- The names that are in exactly one of two lists. -/
def onlyInOne (first second : List String) : List String :=
  first.filter (· ∉ second) ++ second.filter (· ∉ first)

theorem mem_onlyInOne {first second : List String} {name : String} :
    name ∈ onlyInOne first second ↔ ¬(name ∈ first ↔ name ∈ second) := by
  simp only [onlyInOne, List.mem_append, List.mem_filter, decide_eq_true_eq]
  grind

namespace Settings

def excludingTests (settings : Settings) (commands : List String) : Settings :=
  { settings with testExclusions := commands }

def excludingExamples (settings : Settings) (commands : List String) : Settings :=
  { settings with exampleExclusions := commands }

@[simp] theorem wrapperName_excludingExamples (settings : Settings) (commands : List String)
    (command : String) :
    (settings.excludingExamples commands).wrapperName command = settings.wrapperName command := rfl

/-- The names of the test files of these tools. -/
def testNames (settings : Settings) (commands : List String) : List String :=
  commands.map fun command => TestStub.fileName (settings.wrapperName command)

theorem mem_testNames {settings : Settings} {commands : List String} {command : String} :
    TestStub.fileName (settings.wrapperName command) ∈ settings.testNames commands ↔
      command ∈ commands := by
  have injective : Function.Injective fun command =>
      TestStub.fileName (settings.wrapperName command) := by
    intro _ _ same
    simpa [TestStub.fileName, wrapperName] using same
  exact List.mem_map_of_injective injective

theorem mem_map_wrapperName {settings : Settings} {commands : List String} {command : String} :
    settings.wrapperName command ∈ commands.map settings.wrapperName ↔ command ∈ commands :=
  List.mem_map_of_injective fun _ _ same => (String.append_right_inj _).mp same

end Settings

namespace Generated

variable {settings : Settings} {s : Section} {t : Tool}

/-- The lines of a tool without its examples block if it is the block of one of these wrappers. -/
def keptLines (settings : Settings) (wrappers : List String) (s : Section) (t : Tool) : List String :=
  Roxygen.lines t none ++
    ((sample? settings s t).filter (· ∉ wrappers)).elim [] Roxygen.exampleLines ++
    Wrapper.lines t (settings.wrapperName t.command)

theorem dropExamples_toolLines (settings : Settings) (wrappers : List String) (s : Section) (t : Tool)
    (rest : List String) :
    Roxygen.dropExamples wrappers (toolLines settings s t ++ rest) =
      keptLines settings wrappers s t ++ Roxygen.dropExamples wrappers rest := by
  have code : Roxygen.dropExamples wrappers (Wrapper.lines t (settings.wrapperName t.command) ++ rest) =
      Wrapper.lines t (settings.wrapperName t.command) ++ Roxygen.dropExamples wrappers rest :=
    Roxygen.dropExamples_append_of_ne (fun _ => Wrapper.ne_emptyLine_of_mem_lines) rest
  rw [toolLines_eq, ← Wrapper.lines_eq_cons, keptLines]
  simp only [List.append_assoc]
  rw [Roxygen.dropExamples_lines, Roxygen.dropExamples_sample, code]

theorem dropExamples_scriptLines (settings : Settings) (wrappers : List String) (s : Section) :
    Roxygen.dropExamples wrappers (scriptLines settings s) =
      s.tools.flatMap (keptLines settings wrappers s) := by
  rw [scriptLines]
  induction s.tools with
  | nil => rfl
  | cons t tools ih => rw [List.flatMap_cons, dropExamples_toolLines, ih, List.flatMap_cons]

variable {first second : List String}

theorem sample?_congr (same : t.command ∈ first ↔ t.command ∈ second) (settings : Settings)
    (s : Section) :
    sample? (settings.excludingExamples first) s t =
      sample? (settings.excludingExamples second) s t := by
  have wanted : (settings.excludingExamples first).wantsExample t.command =
      (settings.excludingExamples second).wantsExample t.command := by
    simp [Settings.wantsExample, Settings.excludingExamples, same]
  rw [sample?, wanted]
  rfl

theorem keptLines_congr (settings : Settings) (s : Section) (t : Tool) (first second : List String) :
    keptLines (settings.excludingExamples first) ((onlyInOne first second).map settings.wrapperName)
        s t =
      keptLines (settings.excludingExamples second) ((onlyInOne first second).map settings.wrapperName)
        s t := by
  have sample : (sample? (settings.excludingExamples first) s t).filter
        (· ∉ (onlyInOne first second).map settings.wrapperName) =
      (sample? (settings.excludingExamples second) s t).filter
        (· ∉ (onlyInOne first second).map settings.wrapperName) := by
    by_cases same : t.command ∈ first ↔ t.command ∈ second
    · rw [sample?_congr same]
    · have dropped (commands : List String) :
          (sample? (settings.excludingExamples commands) s t).filter
            (· ∉ (onlyInOne first second).map settings.wrapperName) = none := by
        have named : settings.wrapperName t.command ∈
            (onlyInOne first second).map settings.wrapperName :=
          Settings.mem_map_wrapperName.mpr (mem_onlyInOne.mpr same)
        rw [sample?, Settings.wrapperName_excludingExamples]
        split
        · rw [Option.filter_some, if_neg (by simpa using named)]
        · rfl
      rw [dropped, dropped]
  rw [keptLines, sample]
  rfl

/-- Without the tests of some tools the tests of all others are left. -/
theorem filter_tests (settings : Settings) (c : Catalogue) (first second : List String) :
    (ofCatalogue (settings.excludingTests first) c).tests.filter
        (·.name ∉ settings.testNames second) =
      (c.sections.flatMap fun s => s.tools.filter fun t =>
        hasSampleRun s t ∧ t.command ∉ first ∧ t.command ∉ second).map (test settings) := by
  have named (t : Tool) : (test settings t).name ∈ settings.testNames second ↔ t.command ∈ second :=
    Settings.mem_testNames
  change ((c.sections.flatMap (testedTools (settings.excludingTests first))).map
    (test settings)).filter _ = _
  rw [List.filter_map, List.filter_flatMap]
  refine congrArg _ (List.flatMap_congr fun s _ => ?_)
  rw [testedTools, List.filter_filter]
  refine List.filter_congr fun t _ => ?_
  rw [Bool.eq_iff_iff]
  simpa [named, Settings.wantsTest, Settings.excludingTests] using and_rotate

end Generated

namespace Catalogue

/-- What two runs have in common that differ in the list of tools without tests. -/
structure SharedWithoutTests (settings : Settings) (c : Catalogue) (first second : List String) :
    Prop where
  scripts : (Generated.ofCatalogue (settings.excludingTests first) c).scripts =
    (Generated.ofCatalogue (settings.excludingTests second) c).scripts
  tests : (Generated.ofCatalogue (settings.excludingTests first) c).tests.filter
      (·.name ∉ settings.testNames second) =
    (Generated.ofCatalogue (settings.excludingTests second) c).tests.filter
      (·.name ∉ settings.testNames first)

/-- What two runs have in common that differ in the list of tools without examples. -/
structure SharedWithoutExamples (settings : Settings) (c : Catalogue) (first second : List String) :
    Prop where
  tests : (Generated.ofCatalogue (settings.excludingExamples first) c).tests =
    (Generated.ofCatalogue (settings.excludingExamples second) c).tests
  names : (Generated.ofCatalogue (settings.excludingExamples first) c).scripts.map (·.name) =
    (Generated.ofCatalogue (settings.excludingExamples second) c).scripts.map (·.name)
  scripts : ∀ commands,
    (Generated.ofCatalogue (settings.excludingExamples commands) c).scripts.map (·.contents) =
      c.sections.map fun s =>
        Text.unlines (s.tools.flatMap (Generated.toolLines (settings.excludingExamples commands) s))
  examples : ∀ s ∈ c.sections,
    Roxygen.dropExamples ((onlyInOne first second).map settings.wrapperName)
        (s.tools.flatMap (Generated.toolLines (settings.excludingExamples first) s)) =
      Roxygen.dropExamples ((onlyInOne first second).map settings.wrapperName)
        (s.tools.flatMap (Generated.toolLines (settings.excludingExamples second) s))
  others : ∀ s ∈ c.sections, ∀ t ∈ s.tools, (t.command ∈ first ↔ t.command ∈ second) →
    Generated.toolLines (settings.excludingExamples first) s t =
      Generated.toolLines (settings.excludingExamples second) s t

end Catalogue

theorem Catalogue.read_congr {settings other : Settings} (skips : other.skipLines = settings.skipLines)
    (tables : other.toolboxes = settings.toolboxes) (text : String) :
    read other text = read settings text := by
  rw [read_eq_readLines, read_eq_readLines, skips, Filing.readLines_congr tables]

/-- A list of excluded tools decides nothing but what it is for: whether a text is accepted and as what
catalogue does not depend on it, the files of the other kind do not, and its own files depend on it only
at the tools that it names. -/
theorem exclusions_have_their_own_effect (settings : Settings) (text : String)
    (first second : List String) :
    (Catalogue.read (settings.excludingTests first) text =
          Catalogue.read (settings.excludingTests second) text ∧
        ∀ c : Catalogue, c.SharedWithoutTests settings first second) ∧
      Catalogue.read (settings.excludingExamples first) text =
          Catalogue.read (settings.excludingExamples second) text ∧
        ∀ c : Catalogue, c.SharedWithoutExamples settings first second := by
  refine ⟨⟨Catalogue.read_congr (by rfl) (by rfl) text, fun c => ?_⟩,
    Catalogue.read_congr (by rfl) (by rfl) text, fun c => ?_⟩
  · constructor
    case scripts => rfl
    case tests =>
      rw [Generated.filter_tests, Generated.filter_tests]
      simp only [and_comm]
  · constructor
    case tests => rfl
    case names =>
      simp only [Generated.ofCatalogue, List.map_map]
      rfl
    case scripts =>
      intro commands
      rw [Generated.ofCatalogue, List.map_map]
      rfl
    case examples =>
      intro s _
      rw [← Generated.scriptLines, ← Generated.scriptLines, Generated.dropExamples_scriptLines,
        Generated.dropExamples_scriptLines]
      exact List.flatMap_congr fun t _ => Generated.keptLines_congr settings s t first second
    case others =>
      intro s _ t _ same
      rw [Generated.toolLines_eq, Generated.toolLines_eq, Generated.sample?_congr same]
      rfl

/-- Two tools that take an input and an output. -/
def sampledLines : List String :=
  ["# Math and Stats Tools #", "def f(self, i, output, callback=None):", "\"\"\"Reads.\"\"\"",
    "def g(self, i, output, callback=None):", "\"\"\"Writes.\"\"\""]

theorem exclusions_have_their_own_effect_in_sampledLines :
    ∃ c, Catalogue.read (Settings.excludingExamples { skipLines := 0 } ["f"])
          (Text.unlines sampledLines) = .ok c ∧
      Catalogue.read (Settings.excludingExamples { skipLines := 0 } ["h"])
          (Text.unlines sampledLines) = .ok c ∧
      c.SharedWithoutExamples { skipLines := 0 } ["f"] ["h"] ∧
      (c.sections.flatMap (Generated.scriptLines
          (Settings.excludingExamples { skipLines := 0 } ["f"]))).length + 6 =
        (c.sections.flatMap (Generated.scriptLines
          (Settings.excludingExamples { skipLines := 0 } ["h"]))).length ∧
      c.SharedWithoutTests { skipLines := 0 } ["f"] ["h"] ∧
      (Generated.ofCatalogue (Settings.excludingTests { skipLines := 0 } ["f"]) c).tests.map (·.name) =
        ["test-wbt_g.R"] := by
  obtain ⟨⟨-, tests⟩, same, examples⟩ := exclusions_have_their_own_effect { skipLines := 0 }
    (Text.unlines sampledLines) ["f"] ["h"]
  have facts : (Catalogue.read (Settings.excludingExamples { skipLines := 0 } ["f"])
      (Text.unlines sampledLines)).toOption.map (fun c =>
        decide ((c.sections.flatMap (Generated.scriptLines
              (Settings.excludingExamples { skipLines := 0 } ["f"]))).length + 6 =
            (c.sections.flatMap (Generated.scriptLines
              (Settings.excludingExamples { skipLines := 0 } ["h"]))).length ∧
          (Generated.ofCatalogue (Settings.excludingTests { skipLines := 0 } ["f"]) c).tests.map
            (·.name) = ["test-wbt_g.R"])) = some true := by
    rw [Catalogue.read_unlines _ (by decide +kernel)]
    decide +kernel
  cases read : Catalogue.read (Settings.excludingExamples { skipLines := 0 } ["f"])
      (Text.unlines sampledLines) with
  | error e =>
      rw [read] at facts
      cases facts
  | ok c =>
      rw [read] at facts
      obtain ⟨shorter, names⟩ := of_decide_eq_true (Option.some.inj facts)
      exact ⟨c, rfl, same.symm.trans read, examples c, shorter, tests c, names⟩

end ToolWrappers
