import Mathlib.Data.List.Perm.Basic
import Mathlib.Logic.Relation
import ToolWrappers.Usage.Fixup

/-! Changes to the rules of a fixup table that a tool does not notice. Fixups do not commute, but a tool
is mended by the rules that name it alone, and any change that leaves these in their order is one that
keeps its examples. -/

namespace ToolWrappers

namespace Fixup

/-- Fixups one after the other, from the left. -/
def applyEach : List Fixup → String → String
  | [], text => text
  | fixup :: rest, text => applyEach rest (fixup.apply text)

theorem applyEach_eq_foldl (fixups : List Fixup) (text : String) :
    applyEach fixups text = fixups.foldl (fun text fixup => fixup.apply text) text := by
  induction fixups generalizing text with
  | nil => rfl
  | cons fixup rest ih => exact ih (fixup.apply text)

theorem applyEach_append (first second : List Fixup) (text : String) :
    applyEach (first ++ second) text = applyEach second (applyEach first text) := by
  simp only [applyEach_eq_foldl, List.foldl_append]

end Fixup

namespace FixupRule

/-- Rules one after the other, from the left: a rule that names the tool mends the text, any other one is
passed over. -/
def applyEach (tool : String) : List FixupRule → String → String
  | [], text => text
  | rule :: rest, text =>
      applyEach tool rest (if tool ∈ rule.tools then Fixup.applyEach rule.fixups text else text)

/-- The rules name a common tool. -/
def Meets (first second : FixupRule) : Prop := ∃ tool ∈ first.tools, tool ∈ second.tools

instance (first second : FixupRule) : Decidable (first.Meets second) :=
  inferInstanceAs (Decidable (∃ tool ∈ first.tools, tool ∈ second.tools))

/-- One change to a list of rules that does not concern the tool. In a new order each rule carries the
number that it had in the old one. -/
inductive Revises (tool : String) : List FixupRule → List FixupRule → Prop
  | reorder {rules : List FixupRule} {numbered : List (FixupRule × Nat)} :
      numbered.Perm rules.zipIdx →
      numbered.Pairwise (fun first second => first.1.Meets second.1 → first.2 < second.2) →
      Revises tool rules (numbered.map (·.1))
  | insert (before after : List FixupRule) {rule : FixupRule} : tool ∉ rule.tools →
      Revises tool (before ++ after) (before ++ rule :: after)
  | rename (before after : List FixupRule) {tools others : List String} (fixups : List Fixup) :
      (∀ name, name ∈ others ↔ name ∈ tools) →
      Revises tool (before ++ ⟨tools, fixups⟩ :: after) (before ++ ⟨others, fixups⟩ :: after)
  | split (before after : List FixupRule) (tools : List String) (first second : List Fixup) :
      Revises tool (before ++ ⟨tools, first ++ second⟩ :: after)
        (before ++ ⟨tools, first⟩ :: ⟨tools, second⟩ :: after)

/-- The fixups of the rules that name the tool. -/
def fixupsOf (tool : String) (rules : List FixupRule) : List Fixup :=
  (rules.filter fun r => r.tools.contains tool).flatMap (·.fixups)

variable {tool : String} {rule : FixupRule} {rules rules' : List FixupRule}

theorem fixupsOf_append (tool : String) (first second : List FixupRule) :
    fixupsOf tool (first ++ second) = fixupsOf tool first ++ fixupsOf tool second := by
  rw [fixupsOf, List.filter_append, List.flatMap_append]
  rfl

theorem fixupsOf_cons_of_mem (named : tool ∈ rule.tools) :
    fixupsOf tool (rule :: rules) = rule.fixups ++ fixupsOf tool rules := by
  have kept : rule.tools.contains tool = true := List.contains_iff_mem.mpr named
  simp only [fixupsOf, List.filter_cons, kept, if_true, List.flatMap_cons]

theorem fixupsOf_cons_of_not_mem (other : tool ∉ rule.tools) :
    fixupsOf tool (rule :: rules) = fixupsOf tool rules := by
  have dropped : rule.tools.contains tool = false :=
    Bool.eq_false_iff.mpr fun named => other (List.contains_iff_mem.mp named)
  simp only [fixupsOf, List.filter_cons, dropped, Bool.false_eq_true, if_false]

theorem applyEach_eq (tool : String) (rules : List FixupRule) (text : String) :
    applyEach tool rules text = Fixup.applyEach (fixupsOf tool rules) text := by
  induction rules generalizing text with
  | nil => rfl
  | cons rule rest ih =>
      rw [applyEach]
      by_cases named : tool ∈ rule.tools
      · rw [if_pos named, ih, fixupsOf_cons_of_mem named, Fixup.applyEach_append]
      · rw [if_neg named, ih, fixupsOf_cons_of_not_mem named]

/-- Numbered items in a new order, of which those with a property stand as before. -/
theorem filter_reordered {α : Type} {keep : α → Bool} {items : List α} {numbered : List (α × Nat)}
    (same : numbered.Perm items.zipIdx)
    (ordered : numbered.Pairwise fun first second =>
      keep first.1 = true → keep second.1 = true → first.2 < second.2) :
    (numbered.map (·.1)).filter keep = items.filter keep := by
  have increasing : items.zipIdx.Pairwise fun first second => first.2 < second.2 := by
    rw [← List.pairwise_map (f := Prod.snd) (R := (· < ·)), List.zipIdx_map_snd]
    exact List.pairwise_lt_range'
  have kept : numbered.filter (keep ∘ Prod.fst) = items.zipIdx.filter (keep ∘ Prod.fst) :=
    (same.filter _).eq_of_pairwise (fun _ _ _ _ below above => absurd above (Nat.lt_asymm below))
      (List.pairwise_filter.mpr ordered) (increasing.filter _)
  rw [List.filter_map, kept, ← List.filter_map, List.zipIdx_map_fst]

/-- A tool keeps its fixups in a change that does not concern it. -/
theorem Revises.fixupsOf_eq (h : Revises tool rules rules') :
    fixupsOf tool rules' = fixupsOf tool rules := by
  cases h with
  | reorder same ordered =>
      refine congrArg (List.flatMap (·.fixups)) (filter_reordered same (ordered.imp ?_))
      intro first second below named also
      exact below ⟨tool, List.contains_iff_mem.mp named, List.contains_iff_mem.mp also⟩
  | insert before after other =>
      rw [fixupsOf_append, fixupsOf_cons_of_not_mem other, fixupsOf_append]
  | @rename before after tools others fixups alike =>
      rw [fixupsOf_append, fixupsOf_append]
      by_cases named : tool ∈ tools
      · rw [fixupsOf_cons_of_mem ((alike tool).mpr named), fixupsOf_cons_of_mem named]
      · rw [fixupsOf_cons_of_not_mem (mt (alike tool).mp named), fixupsOf_cons_of_not_mem named]
  | split before after tools first second =>
      rw [fixupsOf_append, fixupsOf_append]
      by_cases named : tool ∈ tools
      · rw [fixupsOf_cons_of_mem named, fixupsOf_cons_of_mem named, fixupsOf_cons_of_mem named,
          List.append_assoc]
      · rw [fixupsOf_cons_of_not_mem named, fixupsOf_cons_of_not_mem named,
          fixupsOf_cons_of_not_mem named]

/-- Changes in any number, made or taken back. -/
theorem fixupsOf_of_eqvGen (h : Relation.EqvGen (Revises tool) rules rules') :
    fixupsOf tool rules' = fixupsOf tool rules := by
  induction h with
  | rel _ _ step => exact step.fixupsOf_eq
  | refl => rfl
  | symm _ _ _ ih => exact ih.symm
  | trans _ _ _ _ _ first second => exact second.trans first

end FixupRule

theorem FixupTable.apply_eq (table : FixupTable) (tool text : String) :
    table.apply tool text =
      Fixup.applyEach (FixupRule.fixupsOf tool table.rules) (Fixup.applyEach table.always text) := by
  rw [← Fixup.applyEach_append, Fixup.applyEach_eq_foldl]
  rfl

/-- A tool's examples do not change when rules are put into another order in which those that name a
common tool stand as before, when rules for other tools come or go, when a rule names its tools in
another way, or when it is split in two; and they are mended by the fixups for every tool, one by one, and
then by each rule that names the tool. -/
theorem rules_ordered_within_tool (table : FixupTable) (tool text : String) :
    (∀ rules, Relation.EqvGen (FixupRule.Revises tool) table.rules rules →
      ({ table with rules := rules } : FixupTable).apply tool text = table.apply tool text) ∧
    table.apply tool text =
      FixupRule.applyEach tool table.rules (Fixup.applyEach table.always text) := by
  constructor
  · intro rules revised
    rw [FixupTable.apply_eq, FixupTable.apply_eq, FixupRule.fixupsOf_of_eqvGen revised]
  · rw [FixupTable.apply_eq, FixupRule.applyEach_eq]

/-- Two rules for `slope`, and one that shares a tool with the second of them. -/
def terrainTable : FixupTable where
  always := [.replace "-i=" "--input="]
  rules :=
    [⟨["slope"], [.replace "input" "dem"]⟩,
      ⟨["aspect", "hillshade"], [.append " --zfactor=1.0"]⟩,
      ⟨["hillshade", "slope"], [.append " --units=input", .replaceFirst "dem" "DEM"]⟩]

/-- The first two rules have changed places, the last one is split and names its tools in another way,
and there is a rule for another tool. -/
def revisedRules : List FixupRule :=
  [⟨["aspect", "hillshade"], [.append " --zfactor=1.0"]⟩,
    ⟨["slope"], [.replace "input" "dem"]⟩,
    ⟨["fill"], [.set ""]⟩,
    ⟨["slope", "hillshade", "slope"], [.append " --units=input"]⟩,
    ⟨["slope", "hillshade", "slope"], [.replaceFirst "dem" "DEM"]⟩]

theorem rules_ordered_within_slope :
    ({ terrainTable with rules := revisedRules } : FixupTable).apply "slope" "-i=a.tif" =
      "--DEM=a.tif --units=input" := by
  have swapped : FixupRule.Revises "slope" terrainTable.rules _ :=
    @FixupRule.Revises.reorder "slope" terrainTable.rules
      [terrainTable.rules.zipIdx[1], terrainTable.rules.zipIdx[0], terrainTable.rules.zipIdx[2]]
      (by decide) (by decide)
  have filled : FixupRule.Revises "slope" _ _ :=
    @FixupRule.Revises.insert "slope" (revisedRules.take 2) (terrainTable.rules.drop 2)
      ⟨["fill"], [.set ""]⟩ (by decide)
  have renamed : FixupRule.Revises "slope" _ _ :=
    @FixupRule.Revises.rename "slope" (revisedRules.take 3) [] ["hillshade", "slope"]
      ["slope", "hillshade", "slope"] [.append " --units=input", .replaceFirst "dem" "DEM"]
      (by simp)
  have parted : FixupRule.Revises "slope" _ _ :=
    .split (revisedRules.take 3) [] ["slope", "hillshade", "slope"] [.append " --units=input"]
      [.replaceFirst "dem" "DEM"]
  have revised : Relation.EqvGen (FixupRule.Revises "slope") terrainTable.rules revisedRules :=
    (Relation.EqvGen.rel _ _ swapped).trans _ _ _ <| (Relation.EqvGen.rel _ _ filled).trans _ _ _ <|
      (Relation.EqvGen.rel _ _ renamed).trans _ _ _ <| .rel _ _ parted
  rw [(rules_ordered_within_tool terrainTable "slope" "-i=a.tif").1 revisedRules revised]
  decide +kernel

end ToolWrappers
