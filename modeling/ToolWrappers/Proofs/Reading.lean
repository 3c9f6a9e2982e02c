import ToolWrappers.Catalogue.Item

/-! A successful reading of a text as a derivation, one rule for each part that a line can play, and
what a reading says about the definitions and the headers of the text. -/

namespace ToolWrappers

/-- What the definition line of a tool says of it. -/
def Tool.definition (t : Tool) : Definition := ⟨t.name, t.command, t.params⟩

namespace Item

/-- A reading without a fault. The two numbers are those of `readFrom`: how many lines are still
passed over, and the number of the first line. -/
inductive Reads (settings : Settings) : Nat → Nat → List (List Char) → List Item → Prop
  | done {skip number : Nat} : Reads settings skip number [] []
  | skipped {skip number : Nat} {line : List Char} {rest : List (List Char)} {items : List Item} :
      Reads settings skip (number + 1) rest items →
      Reads settings (skip + 1) number (line :: rest) items
  | toolbox {number : Nat} {line : List Char} {rest : List (List Char)} {items : List Item}
      {entry : Toolbox} :
      settings.toolbox? (.ofList (Text.trim line)) = some entry →
      Reads settings 0 (number + 1) rest items →
      Reads settings 0 number (line :: rest) (.toolbox (.ofList (Text.trim line)) entry :: items)
  | banner {number : Nat} {line : List Char} {rest : List (List Char)} {items : List Item} :
      settings.toolbox? (.ofList (Text.trim line)) = none →
      Banner.isBanner (Text.trim line) = true →
      Reads settings 0 (number + 1) rest items →
      Reads settings 0 number (line :: rest) (.banner (.ofList (Text.trim line)) number :: items)
  | tool {number : Nat} {line : List Char} {rest : List (List Char)} {items : List Item}
      {found : Tool} {length : Nat} :
      settings.toolbox? (.ofList (Text.trim line)) = none →
      Banner.isBanner (Text.trim line) = false →
      DocLine.isDefinition (Text.trim line) = true →
      readTool number (Text.trim line) rest = .ok (found, length) →
      Reads settings length (number + 1) rest items →
      Reads settings 0 number (line :: rest) (.tool found :: items)
  | other {number : Nat} {line : List Char} {rest : List (List Char)} {items : List Item} :
      settings.toolbox? (.ofList (Text.trim line)) = none →
      Banner.isBanner (Text.trim line) = false →
      DocLine.isDefinition (Text.trim line) = false →
      Reads settings 0 (number + 1) rest items →
      Reads settings 0 number (line :: rest) items

theorem reads_of_readFrom {settings : Settings} {skip number : Nat} {lines : List (List Char)}
    {items : List Item} (h : readFrom settings skip number lines = (items, none)) :
    Reads settings skip number lines items := by
  fun_induction readFrom settings skip number lines generalizing items with
  | case1 =>
      cases h
      exact .done
  | case2 skip number line rest ih => exact .skipped (ih h)
  | case3 number raw rest line entry mapped later fault tail =>
      rename_i ih
      cases h
      exact .toolbox mapped (ih tail)
  | case4 number raw rest line unmapped shaped later fault tail =>
      rename_i ih
      cases h
      exact .banner unmapped shaped (ih tail)
  | case5 => cases h
  | case6 number raw rest line unmapped plain defines found length read later fault tail =>
      rename_i ih
      cases h
      exact .tool unmapped (Bool.eq_false_iff.mpr plain) defines read (ih tail)
  | case7 number raw rest line unmapped plain silent =>
      rename_i ih
      exact .other unmapped (Bool.eq_false_iff.mpr plain) (Bool.eq_false_iff.mpr silent) (ih h)

theorem readTool_eq_ok {number length : Nat} {line : List Char} {rest : List (List Char)}
    {found : Tool} (h : readTool number line rest = .ok (found, length)) :
    ∃ d doc, Definition.read? line = some d ∧ Docstring.scan? rest = some ⟨doc, length⟩ ∧
      found = ⟨d.name, d.command, number, d.params, doc⟩ := by
  unfold readTool at h
  split at h
  · cases h
  · rename_i d read
    split at h
    · cases h
    · rename_i s scanned
      cases h
      exact ⟨d, s.doc, read, scanned, rfl⟩

end Item

namespace DocLine

theorem isDefinition_iff (line : List Char) :
    isDefinition line = true ↔ ∃ rest, line = "def ".toList ++ rest := by
  simp only [isDefinition, Text.startsWith, Option.isSome_iff_exists, Text.stripPrefix?_eq_some_iff]

/-- A banner begins with a number sign. -/
theorem isDefinition_of_isBanner {line : List Char} (h : Banner.isBanner line = true) :
    isDefinition line = false := by
  cases defines : isDefinition line with
  | false => rfl
  | true =>
      obtain ⟨rest, rfl⟩ := (isDefinition_iff line).mp defines
      cases h

/-- The earlier parts of a docstring line begin with a quotation mark, a definition does not. -/
theorem ofLine_of_isDefinition {line : List Char} (h : isDefinition line = true) :
    ofLine line = .definition := by
  obtain ⟨rest, rfl⟩ := (isDefinition_iff line).mp h
  have plain : Text.stripPrefix? delimiter ("def ".toList ++ rest) = none := rfl
  have other : "def ".toList ++ rest ≠ delimiter := by
    intro same
    cases same
  unfold ofLine
  rw [if_neg other, plain]
  exact if_pos h

theorem isDefinition_of_ofLine_ne {line : List Char} (h : ofLine line ≠ .definition) :
    isDefinition line = false :=
  Bool.eq_false_iff.mpr fun defines => h (ofLine_of_isDefinition defines)

end DocLine

namespace Docstring

/-- The first line of a docstring is no definition; the docstring ends there or goes on. -/
theorem scan?_cons_eq_some {line : List Char} {rest : List (List Char)} {d : Docstring}
    (h : scan? (line :: rest) = some d) :
    DocLine.isDefinition (Text.trim line) = false ∧
      (d.length = 1 ∨ ∃ inner, scan? rest = some inner ∧ d.length = inner.length + 1) := by
  rw [scan?] at h
  have silent (part : DocLine) (at_line : DocLine.ofLine (Text.trim line) = part)
      (other : part ≠ .definition) : DocLine.isDefinition (Text.trim line) = false :=
    DocLine.isDefinition_of_ofLine_ne (at_line ▸ other)
  split at h
  case h_1 part =>
      cases h
      exact ⟨silent _ part nofun, .inl rfl⟩
  case h_2 part =>
      cases h
      exact ⟨silent _ part nofun, .inl rfl⟩
  case h_3 part =>
      obtain ⟨inner, scanned, rfl⟩ := Option.map_eq_some_iff.mp h
      exact ⟨silent _ part nofun, .inr ⟨inner, scanned, rfl⟩⟩
  case h_4 => cases h
  case h_5 part =>
      obtain ⟨inner, scanned, rfl⟩ := Option.map_eq_some_iff.mp h
      exact ⟨silent _ part nofun, .inr ⟨inner, scanned, rfl⟩⟩
  case h_6 part =>
      obtain ⟨inner, scanned, rfl⟩ := Option.map_eq_some_iff.mp h
      exact ⟨silent _ part nofun, .inr ⟨inner, scanned, rfl⟩⟩

/-- A docstring never takes in a definition. -/
theorem isDefinition_of_mem_take {lines : List (List Char)} {d : Docstring}
    (h : scan? lines = some d) {line : List Char} (member : line ∈ lines.take d.length) :
    DocLine.isDefinition (Text.trim line) = false := by
  induction lines generalizing d with
  | nil => cases h
  | cons first rest ih =>
      obtain ⟨silent, ends | ⟨inner, scanned, goes⟩⟩ := scan?_cons_eq_some h
      · rw [ends, List.take_succ_cons, List.take_zero, List.mem_singleton] at member
        exact member ▸ silent
      · rw [goes, List.take_succ_cons] at member
        rcases List.mem_cons.mp member with rfl | later
        · exact silent
        · exact ih scanned later

end Docstring

end ToolWrappers
