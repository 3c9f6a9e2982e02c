import ToolWrappers.Proofs.Correspondence
import ToolWrappers.Proofs.DocstringEnds

/-! Which definitions are seen. Any blank may follow the keyword of a definition that can be read, but only
one behind which a space follows begins a tool and stops a docstring; all others count as text. -/

namespace ToolWrappers

namespace Docstring

variable {lines : List (List Char)} {start last k : Nat}

instance (P : List Char → Prop) [DecidablePred P] (lines : List (List Char)) (i : Nat) :
    Decidable (At P lines i) :=
  decidable_of_iff (∃ line ∈ lines[i]?, P (Text.trim line)) Iff.rfl

theorem at_iff {P : List Char → Prop} {line : List Char} (here : lines[k]? = some line) :
    At P lines k ↔ P (Text.trim line) := by
  constructor
  · rintro ⟨other, there, holds⟩
    obtain rfl := Option.some.inj (there.symm.trans here)
    exact holds
  · intro holds
    exact ⟨line, here, holds⟩

/-- A docstring that begins at `start` has not come to an end before line `stop`. -/
def OpenUntil (lines : List (List Char)) (start stop : Nat) : Prop :=
  ∀ i, start ≤ i → i < stop → ¬At DocLine.Ends lines i ∧ ¬At DocLine.Defines lines i

/-- The docstring that begins at `start` takes in line `k`. -/
def TakesIn (lines : List (List Char)) (start k : Nat) : Prop :=
  ∃ d, scan? (lines.drop start) = some d ∧ start ≤ k ∧ k < start + d.length

theorem not_at_defines_of_ends (ends : At DocLine.Ends lines k) : ¬At DocLine.Defines lines k := by
  obtain ⟨line, here, closes⟩ := ends
  rw [at_iff here]
  exact closes.not_defines

theorem endsAt_iff_openUntil : EndsAt lines start last ↔
    start ≤ last ∧ At DocLine.Ends lines last ∧ OpenUntil lines start last := by
  constructor
  · rintro ⟨closes, undefined⟩
    refine ⟨closes.start_le, closes.here, fun i from_start below => ⟨closes.earlier i from_start below, ?_⟩⟩
    intro defines
    obtain ⟨first, at_most, found⟩ := exists_firstFrom from_start defines
    have := undefined first found
    omega
  · rintro ⟨from_start, ends, opened⟩
    refine ⟨⟨from_start, ends, fun j later below => (opened j later below).1⟩, fun i found => ?_⟩
    rcases Nat.lt_trichotomy last i with above | rfl | below
    · exact above
    · exact absurd found.here (not_at_defines_of_ends ends)
    · exact absurd found.here (opened i found.start_le below).2

theorem takesIn_iff : TakesIn lines start k ↔ start ≤ k ∧ ∃ last, k ≤ last ∧ EndsAt lines start last := by
  constructor
  · rintro ⟨d, scanned, from_start, within⟩
    exact ⟨from_start, _, by omega, endsAt_of_scan? scanned⟩
  · rintro ⟨from_start, last, within, ends⟩
    obtain ⟨before, line, after, cut, rfl, closes, opened⟩ := endsAt_iff.mp ends
    refine ⟨_, by rw [cut, scan?_append_ends opened closes], from_start, ?_⟩
    exact Nat.lt_succ_of_le within

/-- A line that ends nothing is taken in if the docstring is open before it, the line is no definition,
and the docstring comes to an end behind it. -/
theorem takesIn_iff_of_not_ends (more : ¬At DocLine.Ends lines k) (from_start : start ≤ k) :
    TakesIn lines start k ↔
      ¬At DocLine.Defines lines k ∧ OpenUntil lines start k ∧ ∃ last, EndsAt lines (k + 1) last := by
  simp only [takesIn_iff, endsAt_iff_openUntil]
  constructor
  · rintro ⟨-, last, within, -, ends, opened⟩
    have below : k < last := Nat.lt_of_le_of_ne within fun same => more (same ▸ ends)
    exact ⟨(opened k from_start below).2, fun i later earlier => opened i later (by omega),
      last, below, ends, fun i later => opened i (by omega)⟩
  · rintro ⟨silent, opened, last, below, ends, still⟩
    refine ⟨from_start, last, Nat.le_of_succ_le below, by omega, ends, fun i later earlier => ?_⟩
    rcases Nat.lt_trichotomy i k with before | rfl | behind
    · exact opened i later before
    · exact ⟨more, silent⟩
    · exact still i behind earlier

end Docstring

/-- The line is the keyword, a blank and more, and it can be read as this definition. -/
structure ReadsBehind (gap : Char) (d : Definition) (line : List Char) : Prop where
  blank : Text.isBlank gap = true
  spelled : ∃ rest, line = "def".toList ++ gap :: rest
  read : Definition.read? line = some d

namespace ReadsBehind

variable {gap : Char} {d : Definition} {line : List Char}

theorem defines_iff (h : ReadsBehind gap d line) : DocLine.Defines line ↔ gap = ' ' := by
  obtain ⟨rest, rfl⟩ := h.spelled
  change "def".toList ++ [' '] <+: "def".toList ++ gap :: rest ↔ gap = ' '
  simp [eq_comm]

theorem not_ends (h : ReadsBehind gap d line) : ¬DocLine.Ends line := by
  intro ends
  obtain ⟨rest, rfl⟩ := h.spelled
  obtain ⟨after, same⟩ := ends.delimited
  cases same

end ReadsBehind

variable {settings : Settings}

theorem mem_definitionLines_iff {skip number n : Nat} {text : List Char} {lines : List (List Char)} :
    (text, n) ∈ definitionLines skip number lines ↔ DocLine.isDefinition text = true ∧
      ∃ k, skip ≤ k ∧ n = number + k ∧ ∃ line, lines[k]? = some line ∧ Text.trim line = text := by
  rw [definitionLines, List.mem_filter, List.mem_iff_getElem?]
  simp only [List.getElem?_drop, List.getElem?_zipIdx, List.getElem?_map, Option.map_eq_some_iff,
    Prod.mk.injEq]
  constructor
  · rintro ⟨⟨j, _, ⟨line, here, rfl⟩, rfl, rfl⟩, defines⟩
    exact ⟨defines, skip + j, Nat.le_add_right skip j, rfl, line, here, rfl⟩
  · rintro ⟨defines, k, within, rfl, line, here, rfl⟩
    obtain ⟨j, rfl⟩ := Nat.exists_eq_add_of_le within
    exact ⟨⟨j, _, ⟨line, here, rfl⟩, rfl, rfl⟩, defines⟩

theorem Settings.not_isDefinition_of_not_keyword
    (plain : ∀ entry ∈ settings.toolboxes, ¬"def".toList <+: entry.header.toList) :
    ∀ entry ∈ settings.toolboxes, DocLine.isDefinition entry.header.toList = false := by
  intro entry member
  apply Bool.eq_false_iff.mpr
  intro defines
  obtain ⟨rest, shape⟩ := (DocLine.isDefinition_iff _).mp defines
  exact plain entry member ⟨' ' :: rest, shape.symm⟩

/-- A line gives a tool if it is a definition and not passed over, and the tool is what the line reads as. -/
theorem Catalogue.exists_tool_iff {text : String} {c : Catalogue}
    (plain : ∀ entry ∈ settings.toolboxes, ¬"def".toList <+: entry.header.toList)
    (h : Catalogue.read settings text = .ok c) {read? : Option Definition} {k : Nat} :
    (∃ t ∈ c.tools, t.line = k + 1 ∧ some t.definition = read?) ↔ settings.skipLines ≤ k ∧
      Docstring.At (fun line => DocLine.Defines line ∧ Definition.read? line = read?)
        (Text.lines text.toList) k := by
  obtain ⟨items, reads, filed⟩ := Catalogue.exists_tools_perm h
  have same := reads.definitions (Settings.not_isDefinition_of_not_keyword plain)
  constructor
  · rintro ⟨t, member, number, rfl⟩
    have listed : (some t.definition, t.line) ∈
        (items.filterMap Item.tool?).map fun t => (some t.definition, t.line) :=
      List.mem_map_of_mem (filed.mem_iff.mp member)
    rw [same] at listed
    obtain ⟨⟨line, n⟩, member, told⟩ := List.mem_map.mp listed
    obtain ⟨read, rfl⟩ := Prod.mk.inj told
    obtain ⟨keyword, j, within, count, raw, here, rfl⟩ := mem_definitionLines_iff.mp member
    obtain rfl : j = k := by omega
    exact ⟨within, raw, here, DocLine.defines_iff.mpr keyword, read⟩
  · rintro ⟨within, raw, here, defines, rfl⟩
    have listed : (Definition.read? (Text.trim raw), k + 1) ∈
        (definitionLines settings.skipLines 1 (Text.lines text.toList)).map fun l =>
          (Definition.read? l.1, l.2) :=
      List.mem_map_of_mem (mem_definitionLines_iff.mpr
        ⟨DocLine.defines_iff.mp defines, k, within, Nat.add_comm k 1, raw, here, rfl⟩)
    rw [← same] at listed
    obtain ⟨t, member, told⟩ := List.mem_map.mp listed
    obtain ⟨read, number⟩ := Prod.mk.inj told
    exact ⟨t, filed.mem_iff.mpr member, number, read⟩

/-- A definition behind the keyword and a space begins a tool, and no docstring takes its line in. Behind
any other blank it begins none, and every docstring that is open there and ends later takes it in. -/
theorem definitions_seen_behind_space {text : String} {gap : Char} {d : Definition} {k : Nat}
    (plain : ∀ entry ∈ settings.toolboxes, ¬"def".toList <+: entry.header.toList)
    (classified : settings.skipLines ≤ k)
    (here : Docstring.At (ReadsBehind gap d) (Text.lines text.toList) k) :
    (∀ c, Catalogue.read settings text = .ok c →
      (gap = ' ' → ∃ t ∈ c.tools, t.line = k + 1 ∧ t.definition = d) ∧
        ((∃ t ∈ c.tools, t.line = k + 1) → gap = ' ')) ∧
      ∀ start ≤ k, (Docstring.TakesIn (Text.lines text.toList) start k ↔
        gap ≠ ' ' ∧ Docstring.OpenUntil (Text.lines text.toList) start k ∧
          ∃ last, Docstring.EndsAt (Text.lines text.toList) (k + 1) last) := by
  obtain ⟨line, at_line, shape⟩ := here
  have defines : Docstring.At DocLine.Defines (Text.lines text.toList) k ↔ gap = ' ' :=
    (Docstring.at_iff at_line).trans shape.defines_iff
  have more : ¬Docstring.At DocLine.Ends (Text.lines text.toList) k :=
    mt (Docstring.at_iff at_line).mp shape.not_ends
  refine ⟨fun c read => ⟨?_, ?_⟩, fun start from_start => ?_⟩
  · intro space
    obtain ⟨t, member, number, same⟩ := (Catalogue.exists_tool_iff plain read).mpr
      ⟨classified, line, at_line, shape.defines_iff.mpr space, shape.read⟩
    exact ⟨t, member, number, Option.some.inj same⟩
  · rintro ⟨t, member, number⟩
    obtain ⟨-, other, there, keyword, -⟩ :=
      (Catalogue.exists_tool_iff plain read).mp ⟨t, member, number, rfl⟩
    exact defines.mp ⟨other, there, keyword⟩
  · rw [Docstring.takesIn_iff_of_not_ends more from_start, defines]

/-- One definition stands behind a tab and in the docstring of another one, the last one behind a blank
that does not break. -/
def tabbedLines : List String :=
  ["# Data Tools #", "def f(self, i):", "\"\"\"Reads.", "def\tg(self, i):", "\"\"\"",
    "  def\u00a0h(x=1):", "\"\"\"Writes.\"\"\""]

theorem lines_tabbedLines :
    Text.lines (Text.unlines tabbedLines).toList = tabbedLines.map String.toList :=
  Text.lines_unlines (by decide +kernel)

theorem exists_read_tabbedLines :
    ∃ c, Catalogue.read { skipLines := 0 } (Text.unlines tabbedLines) = .ok c ∧
      c.tools.map (·.line) = [2] := by
  have lines : (Catalogue.read { skipLines := 0 } (Text.unlines tabbedLines)).toOption.map
      (fun c => c.tools.map (·.line)) = some [2] := by
    rw [Catalogue.read_eq_ofLines, lines_tabbedLines]
    decide +kernel
  cases read : Catalogue.read { skipLines := 0 } (Text.unlines tabbedLines) with
  | error e =>
      rw [read] at lines
      cases lines
  | ok c =>
      rw [read] at lines
      exact ⟨c, rfl, Option.some.inj lines⟩

theorem readsBehind_tab_in_tabbedLines :
    Docstring.At (ReadsBehind '\t' ⟨"g", "g", [⟨"input", none⟩]⟩)
      (Text.lines (Text.unlines tabbedLines).toList) 3 := by
  rw [lines_tabbedLines]
  exact ⟨_, rfl, by decide, ⟨"g(self, i):".toList, by decide +kernel⟩, by decide +kernel⟩

theorem standardToolboxes_not_keyword :
    ∀ entry ∈ standardToolboxes, ¬"def".toList <+: entry.header.toList := by decide +kernel

theorem definitions_seen_in_tabbedLines :
    ∃ c, Catalogue.read { skipLines := 0 } (Text.unlines tabbedLines) = .ok c ∧
      (∃ t ∈ c.tools, t.line = 2 ∧ t.definition = ⟨"f", "f", [⟨"input", none⟩]⟩) ∧
      (∀ t ∈ c.tools, t.line ≠ 4) ∧
      Docstring.TakesIn (Text.lines (Text.unlines tabbedLines).toList) 2 3 := by
  obtain ⟨c, read, -⟩ := exists_read_tabbedLines
  have spaced : Docstring.At (ReadsBehind ' ' ⟨"f", "f", [⟨"input", none⟩]⟩)
      (Text.lines (Text.unlines tabbedLines).toList) 1 := by
    rw [lines_tabbedLines]
    exact ⟨_, rfl, by decide, ⟨"f(self, i):".toList, by decide +kernel⟩, by decide +kernel⟩
  obtain ⟨seen, -⟩ := @definitions_seen_behind_space { skipLines := 0 } _ _ _ _
    standardToolboxes_not_keyword (Nat.zero_le 1) spaced
  obtain ⟨tabbed, taken⟩ := @definitions_seen_behind_space { skipLines := 0 } _ _ _ _
    standardToolboxes_not_keyword (Nat.zero_le 3) readsBehind_tab_in_tabbedLines
  refine ⟨c, read, (seen c read).1 rfl, fun t member number => ?_, (taken 2 (by decide)).mpr ?_⟩
  · exact absurd ((tabbed c read).2 ⟨t, member, number⟩) (by decide)
  · rw [lines_tabbedLines]
    refine ⟨by decide, fun i from_start below => ?_, 4, Docstring.endsAt_iff_openUntil.mpr
      ⟨Nat.le_refl 4, ?_, fun i from_start below => by omega⟩⟩
    · obtain rfl : i = 2 := by omega
      decide +kernel
    · decide +kernel

/-- A definition that can be read begins no tool, and a docstring takes it in. -/
theorem tabbed_definition_ignored :
    (¬∀ (settings : Settings) (text : String) (c : Catalogue) (gap : Char) (d : Definition) (k : Nat),
      (∀ entry ∈ settings.toolboxes, ¬"def".toList <+: entry.header.toList) → settings.skipLines ≤ k →
        Docstring.At (ReadsBehind gap d) (Text.lines text.toList) k →
          Catalogue.read settings text = .ok c → ∃ t ∈ c.tools, t.line = k + 1) ∧
    ¬∀ (settings : Settings) (text : String) (c : Catalogue) (gap : Char) (d : Definition) (k : Nat),
      (∀ entry ∈ settings.toolboxes, ¬"def".toList <+: entry.header.toList) → settings.skipLines ≤ k →
        Docstring.At (ReadsBehind gap d) (Text.lines text.toList) k →
          Catalogue.read settings text = .ok c →
            ∀ start ≤ k, ¬Docstring.TakesIn (Text.lines text.toList) start k := by
  obtain ⟨c, read, lines⟩ := exists_read_tabbedLines
  constructor
  · intro seen
    obtain ⟨t, member, number⟩ := seen _ _ c _ _ 3 standardToolboxes_not_keyword (Nat.zero_le 3)
      readsBehind_tab_in_tabbedLines read
    have listed : t.line ∈ c.tools.map (·.line) := List.mem_map_of_mem member
    rw [lines, number] at listed
    exact absurd listed (by decide)
  · intro spared
    refine spared _ _ c _ _ 3 standardToolboxes_not_keyword (Nat.zero_le 3)
      readsBehind_tab_in_tabbedLines read 2 (by decide) ?_
    rw [lines_tabbedLines]
    exact ⟨⟨⟨some "Reads.", []⟩, 3⟩, by decide +kernel, by decide, by decide⟩

end ToolWrappers
