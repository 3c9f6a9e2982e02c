import ToolWrappers.Proofs.Filing
import ToolWrappers.Proofs.Names

/-! What a catalogue keeps of a docstring is cut out of single lines of its text, so none of it holds
a line feed. -/

namespace ToolWrappers

structure Documentation.SingleLine (doc : Documentation) : Prop where
  summary : ∀ summary ∈ doc.summary, '\n' ∉ summary.toList
  params : ∀ param ∈ doc.params, '\n' ∉ param.toList

theorem Documentation.SingleLine.empty : Documentation.SingleLine {} where
  summary := nofun
  params := nofun

namespace DocLine

/-- The text that a line adds to the documentation. -/
def text? : DocLine → Option String
  | .oneLine text | .opening text | .param text => some text
  | .close | .definition | .other => none

theorem newline_not_mem_paramText {line : List Char} (clean : '\n' ∉ line) :
    '\n' ∉ paramText line := by
  intro member
  obtain ⟨c, inside, here⟩ := List.mem_flatMap.mp member
  have before := (Text.sublist_replaceAll_nil _ _).subset inside
  split at here
  · exact absurd here (by decide)
  · rw [← List.mem_singleton.mp here] at before
    split at before
    · rename_i rest short
      rcases List.mem_append.mp before with spelled | kept
      · exact absurd spelled (by decide)
      · exact clean ((Text.sublist_of_stripPrefix? short).subset kept)
    · exact clean before

theorem newline_not_mem_of_text? {line : List Char} {text : String} (clean : '\n' ∉ line)
    (h : (ofLine line).text? = some text) : '\n' ∉ text.toList := by
  have cut {s : List Char} (part : s.Sublist line) : '\n' ∉ (String.ofList s).toList := by
    rw [String.toList_ofList]
    exact fun member => clean (part.subset member)
  unfold ofLine at h
  split at h
  · cases h
  · split at h
    · rename_i rest opened
      have after := Text.sublist_of_stripPrefix? opened
      split at h
      · rename_i summary closed
        cases h
        exact cut (((Text.trimEnd_sublist summary).trans (Text.sublist_of_stripSuffix? closed)).trans after)
      · cases h
        exact cut ((Text.trimEnd_sublist rest).trans after)
    · split at h
      · cases h
      · split at h
        · cases h
          rw [String.toList_ofList]
          exact newline_not_mem_paramText clean
        · cases h

end DocLine

theorem Docstring.singleLine_of_scan? {lines : List (List Char)} {d : Docstring}
    (clean : ∀ line ∈ lines, '\n' ∉ line) (h : scan? lines = some d) : d.doc.SingleLine := by
  induction lines generalizing d with
  | nil => cases h
  | cons line rest ih =>
      have trimmed : '\n' ∉ Text.trim line := fun member =>
        clean line List.mem_cons_self ((Text.trim_sublist line).subset member)
      have later {inner : Docstring} (scanned : scan? rest = some inner) : inner.doc.SingleLine :=
        ih (fun other member => clean other (List.mem_cons_of_mem line member)) scanned
      have here {text : String} (added : (DocLine.ofLine (Text.trim line)).text? = some text) :
          '\n' ∉ text.toList := DocLine.newline_not_mem_of_text? trimmed added
      rw [scan?] at h
      split at h
      case h_1 =>
          cases h
          exact .empty
      case h_2 summary part =>
          cases h
          constructor
          · intro text written
            cases written
            exact here (by rw [part]; rfl)
          · intro param member
            cases member
      case h_3 summary part =>
          obtain ⟨inner, scanned, rfl⟩ := Option.map_eq_some_iff.mp h
          refine ⟨?_, (later scanned).params⟩
          intro text written
          cases written
          cases found : inner.doc.summary with
          | none => exact here (by rw [part]; rfl)
          | some earlier => exact (later scanned).summary earlier found
      case h_4 => cases h
      case h_5 text part =>
          obtain ⟨inner, scanned, rfl⟩ := Option.map_eq_some_iff.mp h
          refine ⟨(later scanned).summary, ?_⟩
          intro param member
          rcases List.mem_cons.mp member with rfl | member
          · exact here (by rw [part]; rfl)
          · exact (later scanned).params param member
      case h_6 =>
          obtain ⟨inner, scanned, rfl⟩ := Option.map_eq_some_iff.mp h
          have plain := later scanned
          exact ⟨plain.summary, plain.params⟩

/-- A tool whose texts all stay on one line. -/
structure Tool.SingleLine (t : Tool) : Prop where
  name : Text.isName t.name.toList = true
  doc : t.doc.SingleLine

theorem Catalogue.singleLine_of_mem_tools {settings : Settings} {text : String} {c : Catalogue}
    (h : Catalogue.read settings text = .ok c) {t : Tool} (member : t ∈ c.tools) : t.SingleLine := by
  obtain ⟨before, line, rest, number, length, split, read⟩ := exists_readTool h member
  obtain ⟨d, doc, parsed, scanned, rfl⟩ := Item.readTool_eq_ok read
  have clean : ∀ other ∈ rest, '\n' ∉ other := by
    intro other inside
    apply Text.newline_not_mem_of_mem_lines
    rw [split]
    exact List.mem_append_right before (List.mem_cons_of_mem line inside)
  exact ⟨(Definition.wellNamed_of_read? parsed).name, Docstring.singleLine_of_scan? clean scanned⟩

end ToolWrappers
