import ToolWrappers.Proofs.LineBreaks
import ToolWrappers.Proofs.Names
import ToolWrappers.Proofs.Reading

/-! The parameter lines of a docstring: which lines they are, and what each becomes in the
documentation. -/

namespace ToolWrappers

namespace DocLine

/-- The text that a line adds to the documented parameters. -/
def param? : DocLine → Option String
  | .param text => some text
  | .close | .oneLine _ | .opening _ | .definition | .other => none

/-- Whether a docstring ends with this line. -/
def isClosing : DocLine → Bool
  | .close | .oneLine _ => true
  | .opening _ | .definition | .param _ | .other => false

def spellPercent (text : List Char) : List Char :=
  text.flatMap fun c => if c = '%' then " percent".toList else [c]

/-- The line with the short input name spelled out. -/
def spellInput (line : List Char) : List Char :=
  match Text.stripPrefix? "i --".toList line with
  | some rest => "input --".toList ++ rest
  | none => line

theorem paramText_eq (line : List Char) :
    paramText line = spellPercent (Text.replaceAll "-- ".toList [] (spellInput line)) := rfl

theorem percent_not_mem_spellPercent (text : List Char) : '%' ∉ spellPercent text := by
  intro member
  obtain ⟨c, _, here⟩ := List.mem_flatMap.mp member
  split at here
  · exact absurd here (by decide)
  · rename_i other
    exact other (List.mem_singleton.mp here).symm

theorem spellPercent_append (first second : List Char) :
    spellPercent (first ++ second) = spellPercent first ++ spellPercent second :=
  List.flatMap_append

theorem spellPercent_cons (c : Char) (text : List Char) :
    spellPercent (c :: text) = (if c = '%' then " percent".toList else [c]) ++ spellPercent text :=
  rfl

theorem spellPercent_of_not_mem {text : List Char} (clean : '%' ∉ text) :
    spellPercent text = text := by
  induction text with
  | nil => rfl
  | cons c text ih =>
      rw [spellPercent_cons, if_neg (List.ne_of_not_mem_cons clean).symm,
        ih (List.not_mem_of_not_mem_cons clean)]
      rfl

/-- Spelling a percent sign brings in no hyphen. -/
theorem count_hyphen_spellPercent (text : List Char) :
    (spellPercent text).count '-' = text.count '-' := by
  induction text with
  | nil => rfl
  | cons c text ih =>
      have first : (if c = '%' then " percent".toList else [c]).count '-' = [c].count '-' := by
        split
        · rename_i same
          rw [same]
          rfl
        · rfl
      rw [spellPercent_cons, List.count_append, first, ih, ← List.count_append,
        List.singleton_append]

theorem eq_paramText_of_param? {line : List Char} {text : String}
    (h : (ofLine line).param? = some text) : text = .ofList (paramText line) := by
  unfold ofLine at h
  split at h
  · cases h
  · split at h
    · split at h <;> cases h
    · split at h
      · cases h
      · split at h
        · cases h
          rfl
        · cases h

/-- A line that is no delimiter and no definition documents a parameter if it holds the marker,
unless it is about the callback. -/
theorem param?_ofLine {line : List Char} (plain : line.head? ≠ some '"')
    (silent : isDefinition line = false) :
    (ofLine line).param? =
      if Text.contains "--".toList line && !Text.startsWith "callback".toList line then
        some (.ofList (paramText line))
      else none := by
  have other : line ≠ delimiter := by
    rintro rfl
    exact plain rfl
  have outside : Text.stripPrefix? delimiter line = none := by
    cases opened : Text.stripPrefix? delimiter line with
    | none => rfl
    | some rest =>
        rw [Text.stripPrefix?_eq_some_iff.mp opened] at plain
        exact absurd rfl plain
  simp only [ofLine, if_neg other, outside, silent, Bool.false_eq_true, if_false]
  split <;> rfl

end DocLine

namespace Docstring

/-- The lines of a docstring at the head of these lines, trimmed, up to the closing one. -/
def openLines (lines : List (List Char)) : List (List Char) :=
  (lines.map Text.trim).takeWhile fun line => !(DocLine.ofLine line).isClosing

theorem openLines_cons_of_closing {line : List Char} (rest : List (List Char))
    (closing : (DocLine.ofLine (Text.trim line)).isClosing = true) : openLines (line :: rest) = [] := by
  simp [openLines, closing]

theorem openLines_cons_of_open {line : List Char} (rest : List (List Char))
    (more : (DocLine.ofLine (Text.trim line)).isClosing = false) :
    openLines (line :: rest) = Text.trim line :: openLines rest := by
  simp [openLines, more]

/-- The documented parameters are what the lines of the docstring add, in order, and none of these
lines is a definition. -/
theorem openLines_of_scan? {lines : List (List Char)} {d : Docstring} (h : scan? lines = some d) :
    d.doc.params = (openLines lines).filterMap (fun line => (DocLine.ofLine line).param?) ∧
      ∀ line ∈ openLines lines, DocLine.isDefinition line = false := by
  induction lines generalizing d with
  | nil => cases h
  | cons line rest ih =>
      rw [scan?] at h
      cases part : DocLine.ofLine (Text.trim line) with
      | close | oneLine summary =>
          simp only [part] at h
          cases h
          rw [openLines_cons_of_closing rest (by rw [part]; rfl)]
          exact ⟨rfl, List.forall_mem_nil _⟩
      | definition =>
          simp only [part] at h
          cases h
      | opening summary | param text | other =>
          simp only [part] at h
          obtain ⟨inner, scanned, rfl⟩ := Option.map_eq_some_iff.mp h
          obtain ⟨later, plain⟩ := ih scanned
          have silent : DocLine.isDefinition (Text.trim line) = false :=
            DocLine.isDefinition_of_ofLine_ne (by simp [part])
          rw [openLines_cons_of_open rest (by rw [part]; rfl)]
          exact ⟨by simp [addSummary, addParam, part, DocLine.param?, later],
            List.forall_mem_cons.mpr ⟨silent, plain⟩⟩

end Docstring

end ToolWrappers
