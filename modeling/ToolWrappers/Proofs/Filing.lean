import Mathlib.Data.List.Induction
import ToolWrappers.Catalogue.Basic
import ToolWrappers.Proofs.LineBreaks
import ToolWrappers.Proofs.Reading

/-! What the sections say after any run of items. One step of `Filing.add` keeps the relation
`Filing.Reflects`, so every run from the empty filing ends in it. -/

namespace ToolWrappers

namespace Item

def tool? : Item → Option Tool
  | .tool t => some t
  | .toolbox .. | .banner .. => none

/-- The entry of the table that a mapped header stands for. -/
def entry? : Item → Option Toolbox
  | .toolbox _ entry => some entry
  | .banner .. | .tool _ => none

/-- Where the next tool goes after this item. -/
def redirect (here : Destination) : Item → Destination
  | .toolbox _ entry => .file entry.fileName
  | .banner header line => .unmapped header line
  | .tool _ => here

def destination (items : List Item) : Destination := items.foldl redirect .nowhere

@[simp] theorem destination_nil : destination [] = .nowhere := rfl

@[simp] theorem destination_concat (items : List Item) (item : Item) :
    destination (items ++ [item]) = item.redirect (destination items) := by
  simp only [destination, List.foldl_append, List.foldl_cons, List.foldl_nil]

/-- Tools go to a file only under a mapped header for it. -/
theorem mem_entries_of_destination {items : List Item} {fileName : String}
    (h : destination items = .file fileName) :
    fileName ∈ (items.filterMap entry?).map (·.fileName) := by
  induction items using List.reverseRecOn with
  | nil => cases h
  | append_singleton items item ih =>
      rw [destination_concat] at h
      rw [List.filterMap_append, List.map_append]
      cases item with
      | toolbox header entry =>
          cases h
          exact List.mem_append_right _ List.mem_cons_self
      | banner header line => cases h
      | tool t => exact List.mem_append_left _ (ih h)

end Item

theorem eraseDups_concat (names : List String) (name : String) :
    (names ++ [name]).eraseDups =
      if name ∈ names then names.eraseDups else names.eraseDups ++ [name] := by
  rw [List.eraseDups_append]
  by_cases known : name ∈ names <;> simp [List.removeAll, List.eraseDups_cons, known]

theorem nodup_eraseDups (names : List String) : names.eraseDups.Nodup := by
  induction names using List.reverseRecOn with
  | nil => exact List.nodup_nil
  | append_singleton names name ih =>
      rw [eraseDups_concat]
      split
      · exact ih
      · rename_i fresh
        refine List.nodup_append.mpr ⟨ih, List.pairwise_singleton _ name, ?_⟩
        rintro known member _ here rfl
        exact fresh (List.mem_eraseDups.mp (List.mem_singleton.mp here ▸ member))

namespace Filing

/-! ### What one operation does to the sections -/

theorem any_fileName (sections : List Section) (fileName : String) :
    (sections.any fun s => s.fileName = fileName) = true ↔
      fileName ∈ sections.map (·.fileName) := by
  simp only [List.any_eq_true, decide_eq_true_eq, List.mem_map]

theorem openSection_of_mem {f : Filing} {entry : Toolbox} (header : String)
    (known : entry.fileName ∈ f.sections.map (·.fileName)) :
    (f.openSection header entry).sections = f.sections :=
  if_pos ((any_fileName f.sections entry.fileName).mpr known)

theorem openSection_of_not_mem {f : Filing} {entry : Toolbox} (header : String)
    (fresh : entry.fileName ∉ f.sections.map (·.fileName)) :
    (f.openSection header entry).sections =
      f.sections ++ [⟨header, entry.fileName, entry.examples, []⟩] :=
  if_neg fun found => fresh ((any_fileName f.sections entry.fileName).mp found)

theorem tools_openSection (f : Filing) (header : String) (entry : Toolbox) :
    (f.openSection header entry).sections.flatMap (·.tools) = f.sections.flatMap (·.tools) := by
  by_cases known : entry.fileName ∈ f.sections.map (·.fileName)
  · rw [openSection_of_mem header known]
  · rw [openSection_of_not_mem header known, List.flatMap_append, List.flatMap_singleton,
      List.append_nil]

theorem names_addTool (f : Filing) (fileName : String) (t : Tool) :
    (f.addTool fileName t).sections.map (·.fileName) = f.sections.map (·.fileName) := by
  simp only [addTool, List.map_map]
  refine List.map_congr_left fun s _ => ?_
  rw [Function.comp_apply]
  split <;> rfl

theorem mem_addTool {f : Filing} {fileName : String} {t : Tool} {s : Section}
    (h : s ∈ (f.addTool fileName t).sections) :
    s ∈ f.sections ∨ ∃ old ∈ f.sections, old.fileName = fileName ∧
      s = { old with tools := old.tools ++ [t] } := by
  obtain ⟨old, member, rfl⟩ := List.mem_map.mp h
  split
  · rename_i same
    exact .inr ⟨old, member, same, rfl⟩
  · exact .inl member

/-- A tool is filed once: exactly one section has the name. -/
theorem tools_addTool {f : Filing} {fileName : String} (t : Tool)
    (distinct : (f.sections.map (·.fileName)).Nodup)
    (known : fileName ∈ f.sections.map (·.fileName)) :
    ((f.addTool fileName t).sections.flatMap (·.tools)).Perm
      (f.sections.flatMap (·.tools) ++ [t]) := by
  unfold addTool
  dsimp only
  generalize f.sections = sections at distinct known ⊢
  induction sections with
  | nil => cases known
  | cons s rest ih =>
      obtain ⟨apart, distinct⟩ := List.nodup_cons.mp distinct
      simp only [List.map_cons, List.flatMap_cons]
      by_cases same : s.fileName = fileName
      · have untouched : rest.map (fun s : Section =>
            if s.fileName = fileName then { s with tools := s.tools ++ [t] } else s) =
            rest.map id := by
          refine List.map_congr_left fun other member => if_neg fun clash => apart ?_
          exact List.mem_map.mpr ⟨other, member, clash.trans same.symm⟩
        rw [if_pos same, untouched, List.map_id, List.append_assoc, List.append_assoc]
        exact List.perm_append_comm.append_left s.tools
      · have later : fileName ∈ rest.map (·.fileName) :=
          (List.mem_cons.mp known).resolve_left fun here => same here.symm
        rw [if_neg same, List.append_assoc]
        exact (ih distinct later).append_left s.tools

variable {f g : Filing} {items : List Item}

/-! ### What one item can do -/

theorem add_tool_eq_ok {t : Tool} (h : f.add (.tool t) = .ok g) :
    ∃ fileName, f.destination = .file fileName ∧ f.addTool fileName t = g := by
  cases target : f.destination with
  | file fileName =>
      simp only [add, target] at h
      exact ⟨fileName, rfl, Except.ok.inj h⟩
  | nowhere | unmapped header line =>
      simp only [add, target] at h
      cases h

theorem add_tool_eq_error {t : Tool} {e : CatalogueError} (h : f.add (.tool t) = .error e) :
    f.destination = .nowhere ∧ e = .noToolbox t.line t.name ∨
      ∃ header line, f.destination = .unmapped header line ∧
        e = .unmappedToolbox t.line t.name header line := by
  cases target : f.destination with
  | file fileName =>
      simp only [add, target] at h
      cases h
  | nowhere =>
      simp only [add, target] at h
      cases h
      exact .inl ⟨rfl, rfl⟩
  | unmapped header line =>
      simp only [add, target] at h
      cases h
      exact .inr ⟨header, line, rfl, rfl⟩

/-- What the sections and the destination say about the items filed so far. -/
structure Reflects (items : List Item) (f : Filing) : Prop where
  destination : f.destination = Item.destination items
  names : f.sections.map (·.fileName) = ((items.filterMap Item.entry?).map (·.fileName)).eraseDups
  opened : ∀ s ∈ f.sections, ∃ entry ∈ items.filterMap Item.entry?,
    s.fileName = entry.fileName ∧ s.examples = entry.examples
  filed : (f.sections.flatMap (·.tools)).Perm (items.filterMap Item.tool?)
  ordered : ∀ s ∈ f.sections, s.tools.Sublist (items.filterMap Item.tool?)
  placed : ∀ s ∈ f.sections, ∀ t ∈ s.tools, ∃ before after,
    items = before ++ .tool t :: after ∧ Item.destination before = .file s.fileName

namespace Reflects

theorem start : Reflects [] {} where
  destination := rfl
  names := rfl
  opened := nofun
  filed := .refl []
  ordered := nofun
  placed := nofun

theorem nodup (h : Reflects items f) : (f.sections.map (·.fileName)).Nodup :=
  h.names ▸ nodup_eraseDups _

theorem placed_concat (h : Reflects items f) (item : Item) {s : Section} (member : s ∈ f.sections)
    {t : Tool} (here : t ∈ s.tools) :
    ∃ before after, items ++ [item] = before ++ .tool t :: after ∧
      Item.destination before = .file s.fileName := by
  obtain ⟨before, after, split, target⟩ := h.placed s member t here
  exact ⟨before, after ++ [item], by rw [split, List.append_assoc, List.cons_append], target⟩

theorem opened_concat (h : Reflects items f) (entry : Toolbox) {s : Section}
    (member : s ∈ f.sections) :
    ∃ e ∈ items.filterMap Item.entry? ++ [entry],
      s.fileName = e.fileName ∧ s.examples = e.examples := by
  obtain ⟨e, known, agree⟩ := h.opened s member
  exact ⟨e, List.mem_append_left _ known, agree⟩

theorem openSection (h : Reflects items f) (header : String) (entry : Toolbox) :
    Reflects (items ++ [Item.toolbox header entry]) (f.openSection header entry) := by
  have entries : (items ++ [Item.toolbox header entry]).filterMap Item.entry? =
      items.filterMap Item.entry? ++ [entry] := List.filterMap_append
  have tools : (items ++ [Item.toolbox header entry]).filterMap Item.tool? =
      items.filterMap Item.tool? := List.filterMap_append.trans (List.append_nil _)
  have seen : entry.fileName ∈ (items.filterMap Item.entry?).map (·.fileName) ↔
      entry.fileName ∈ f.sections.map (·.fileName) := by
    rw [h.names, List.mem_eraseDups]
  have target : (f.openSection header entry).destination =
      Item.destination (items ++ [Item.toolbox header entry]) := by
    rw [Item.destination_concat]
    rfl
  have filed : ((f.openSection header entry).sections.flatMap (·.tools)).Perm
      ((items ++ [Item.toolbox header entry]).filterMap Item.tool?) := by
    rw [tools_openSection, tools]
    exact h.filed
  by_cases known : entry.fileName ∈ f.sections.map (·.fileName)
  · have same := openSection_of_mem header known
    refine ⟨target, ?_, ?_, filed, ?_, ?_⟩
    · rw [same, entries, List.map_append, List.map_singleton, eraseDups_concat,
        if_pos (seen.mpr known), h.names]
    · rw [same, entries]
      exact fun s member => h.opened_concat entry member
    · rw [same, tools]
      exact h.ordered
    · rw [same]
      exact fun s member t here => h.placed_concat _ member here
  · have longer := openSection_of_not_mem header known
    refine ⟨target, ?_, ?_, filed, ?_, ?_⟩
    · rw [longer, entries, List.map_append, List.map_append, List.map_singleton,
        List.map_singleton, eraseDups_concat, if_neg (mt seen.mp known), h.names]
    · rw [longer, entries]
      intro s member
      rcases List.mem_append.mp member with old | new
      · exact h.opened_concat entry old
      · cases List.mem_singleton.mp new
        exact ⟨entry, List.mem_append_right _ List.mem_cons_self, rfl, rfl⟩
    · rw [longer, tools]
      intro s member
      rcases List.mem_append.mp member with old | new
      · exact h.ordered s old
      · cases List.mem_singleton.mp new
        exact List.nil_sublist _
    · rw [longer]
      intro s member t here
      rcases List.mem_append.mp member with old | new
      · exact h.placed_concat _ old here
      · cases List.mem_singleton.mp new
        cases here

theorem banner (h : Reflects items f) (header : String) (line : Nat) :
    Reflects (items ++ [Item.banner header line])
      { f with destination := .unmapped header line } := by
  have entries : (items ++ [Item.banner header line]).filterMap Item.entry? =
      items.filterMap Item.entry? := List.filterMap_append.trans (List.append_nil _)
  have tools : (items ++ [Item.banner header line]).filterMap Item.tool? =
      items.filterMap Item.tool? := List.filterMap_append.trans (List.append_nil _)
  refine ⟨?_, ?_, ?_, ?_, ?_, fun s member t here => h.placed_concat _ member here⟩
  · rw [Item.destination_concat]
    rfl
  · rw [entries]
    exact h.names
  · rw [entries]
    exact h.opened
  · rw [tools]
    exact h.filed
  · rw [tools]
    exact h.ordered

theorem addTool (h : Reflects items f) {fileName : String} (target : f.destination = .file fileName)
    (t : Tool) : Reflects (items ++ [Item.tool t]) (f.addTool fileName t) := by
  have entries : (items ++ [Item.tool t]).filterMap Item.entry? =
      items.filterMap Item.entry? := List.filterMap_append.trans (List.append_nil _)
  have tools : (items ++ [Item.tool t]).filterMap Item.tool? =
      items.filterMap Item.tool? ++ [t] := List.filterMap_append
  have here : Item.destination items = .file fileName := h.destination ▸ target
  have known : fileName ∈ f.sections.map (·.fileName) := by
    rw [h.names, List.mem_eraseDups]
    exact Item.mem_entries_of_destination here
  refine ⟨?_, ?_, ?_, ?_, ?_, ?_⟩
  · rw [Item.destination_concat]
    exact h.destination
  · rw [names_addTool, entries]
    exact h.names
  · rw [entries]
    intro s member
    rcases mem_addTool member with old | ⟨old, before, _, rfl⟩
    · exact h.opened s old
    · exact h.opened old before
  · rw [tools]
    exact (tools_addTool t h.nodup known).trans (h.filed.append_right [t])
  · rw [tools]
    intro s member
    rcases mem_addTool member with old | ⟨old, before, _, rfl⟩
    · exact (h.ordered s old).trans (List.sublist_append_left _ _)
    · exact (h.ordered old before).append (List.Sublist.refl [t])
  · intro s member u inside
    rcases mem_addTool member with old | ⟨old, before, same, rfl⟩
    · exact h.placed_concat _ old inside
    · rcases List.mem_append.mp inside with earlier | new
      · exact h.placed_concat _ before earlier
      · cases List.mem_singleton.mp new
        exact ⟨items, [], rfl, same ▸ here⟩

theorem add (h : Reflects items f) {item : Item} (step : f.add item = .ok g) :
    Reflects (items ++ [item]) g := by
  cases item with
  | toolbox header entry =>
      cases step
      exact h.openSection header entry
  | banner header line =>
      cases step
      exact h.banner header line
  | tool t =>
      obtain ⟨fileName, target, rfl⟩ := add_tool_eq_ok step
      exact h.addTool target t

end Reflects

/-- Every run of items from the empty filing ends in sections that reflect them. -/
theorem reflects_of_run (run : items.foldlM add {} = .ok f) : Reflects items f := by
  induction items using List.reverseRecOn generalizing f with
  | nil =>
      cases run
      exact .start
  | append_singleton items item ih =>
      rw [List.foldlM_append] at run
      cases first : items.foldlM add {} with
      | error e =>
          rw [first] at run
          cases run
      | ok before =>
          rw [first] at run
          change before.add item >>= pure = .ok f at run
          rw [bind_pure] at run
          exact (ih first).add run

end Filing

/-- Every tool among the items was read from one of the lines, which has its number, and those after
it. -/
theorem Item.Reads.exists_readTool_at {settings : Settings} {skip number : Nat}
    {lines : List (List Char)} {items : List Item}
    (h : Item.Reads settings skip number lines items) {t : Tool}
    (member : t ∈ items.filterMap Item.tool?) :
    ∃ before line rest length, lines = before ++ line :: rest ∧
      Item.readTool (number + before.length) (Text.trim line) rest = .ok (t, length) := by
  have under {first : List Char} {lines : List (List Char)} {number : Nat}
      (found : ∃ before line rest length, lines = before ++ line :: rest ∧
        Item.readTool (number + 1 + before.length) (Text.trim line) rest = .ok (t, length)) :
      ∃ before line rest length, first :: lines = before ++ line :: rest ∧
        Item.readTool (number + before.length) (Text.trim line) rest = .ok (t, length) := by
    obtain ⟨before, line, rest, length, rfl, read⟩ := found
    refine ⟨first :: before, line, rest, length, rfl, ?_⟩
    rwa [List.length_cons, Nat.add_comm before.length, ← Nat.add_assoc]
  induction h with
  | done => cases member
  | skipped _ ih | toolbox _ _ ih | banner _ _ _ ih | other _ _ _ _ ih => exact under (ih member)
  | tool _ _ _ read _ ih =>
      rcases List.mem_cons.mp member with rfl | member
      · exact ⟨[], _, _, _, rfl, read⟩
      · exact under (ih member)

def Catalogue.ofLines (settings : Settings) (lines : List (List Char)) :
    Except CatalogueError Catalogue := do
  let (items, fault) := Item.readFrom settings settings.skipLines 1 lines
  let filing ← items.foldlM Filing.add {}
  match fault with
  | some e => throw e
  | none => return ⟨filing.sections⟩

theorem Catalogue.read_eq_ofLines (settings : Settings) (text : String) :
    read settings text = ofLines settings (Text.lines text.toList) := rfl

theorem Catalogue.read_unlines (settings : Settings) {lines : List String}
    (single : ∀ line ∈ lines, Text.IsLine line) :
    read settings (Text.unlines lines) = ofLines settings (lines.map String.toList) := by
  rw [read_eq_ofLines, Text.lines_unlines single]

/-- An accepted text has a reading, and the sections of its catalogue reflect the items. -/
theorem Catalogue.exists_reads {settings : Settings} {text : String} {c : Catalogue}
    (h : read settings text = .ok c) :
    ∃ items f, Item.Reads settings settings.skipLines 1 (Text.lines text.toList) items ∧
      Filing.Reflects items f ∧ f.sections = c.sections := by
  unfold read at h
  cases reading : Item.readFrom settings settings.skipLines 1 (Text.lines text.toList) with
  | mk items fault =>
      rw [reading] at h
      dsimp only at h
      cases run : items.foldlM Filing.add {} with
      | error e =>
          rw [run] at h
          cases h
      | ok f =>
          rw [run] at h
          cases fault with
          | some e => cases h
          | none =>
              cases h
              exact ⟨items, f, Item.reads_of_readFrom reading, Filing.reflects_of_run run, rfl⟩

/-- The tools of an accepted catalogue are those among the items of its text. -/
theorem Catalogue.exists_tools_perm {settings : Settings} {text : String} {c : Catalogue}
    (h : read settings text = .ok c) :
    ∃ items, Item.Reads settings settings.skipLines 1 (Text.lines text.toList) items ∧
      c.tools.Perm (items.filterMap Item.tool?) := by
  obtain ⟨items, f, reads, reflects, same⟩ := exists_reads h
  refine ⟨items, reads, ?_⟩
  unfold tools
  rw [← same]
  exact reflects.filed

/-- Every tool was read from the line with its number and the lines after it. -/
theorem Catalogue.exists_readTool_at {settings : Settings} {text : String} {c : Catalogue}
    (h : read settings text = .ok c) {t : Tool} (member : t ∈ c.tools) :
    ∃ before line rest length, Text.lines text.toList = before ++ line :: rest ∧
      Item.readTool (1 + before.length) (Text.trim line) rest = .ok (t, length) := by
  obtain ⟨items, reads, filed⟩ := exists_tools_perm h
  exact reads.exists_readTool_at (filed.mem_iff.mp member)

theorem Catalogue.exists_readTool {settings : Settings} {text : String} {c : Catalogue}
    (h : read settings text = .ok c) {t : Tool} (member : t ∈ c.tools) :
    ∃ before line rest number length, Text.lines text.toList = before ++ line :: rest ∧
      Item.readTool number (Text.trim line) rest = .ok (t, length) := by
  obtain ⟨before, line, rest, length, split, found⟩ := exists_readTool_at h member
  exact ⟨before, line, rest, _, length, split, found⟩

end ToolWrappers
