import Mathlib.Data.List.Forall2
import ToolWrappers.Definition.Basic

/-! How the parameters of a definition become the formals of its wrapper, said by relations: one for
the order and one for the formals that stand for one parameter. Each of them has one outcome for every
list. -/

namespace ToolWrappers.WrittenParam

/-- The order of the parameters after a leading receiver: it is dropped, and only then an output before
an optional input changes places with it. -/
inductive Arranged : List WrittenParam → List WrittenParam → Prop
  | swapped (rest : List WrittenParam) :
      Arranged (⟨"self", none⟩ :: ⟨"output", none⟩ :: ⟨"i", some "None"⟩ :: rest)
        (⟨"i", some "None"⟩ :: ⟨"output", none⟩ :: rest)
  | dropped {rest : List WrittenParam}
      (plain : ¬[⟨"output", none⟩, ⟨"i", some "None"⟩] <+: rest) :
      Arranged (⟨"self", none⟩ :: rest) rest
  | kept {written : List WrittenParam} (other : written.head? ≠ some ⟨"self", none⟩) :
      Arranged written written

/-- The formals that stand for one parameter. -/
inductive Becomes : WrittenParam → List Param → Prop
  | input : Becomes ⟨"i", none⟩ [⟨"input", none⟩]
  | optionalInput : Becomes ⟨"i", some "None"⟩ [⟨"input", none⟩]
  | callback : Becomes ⟨"callback", some "None"⟩
      [⟨"wd", some .null⟩, ⟨"verbose_mode", some (.bool false)⟩,
        ⟨"compress_rasters", some (.bool false)⟩]
  | positional {name : String} (other : name ≠ "i") : Becomes ⟨name, none⟩ [⟨name, none⟩]
  | true (name : String) : Becomes ⟨name, some "True"⟩ [⟨name, some (.bool true)⟩]
  | false (name : String) : Becomes ⟨name, some "False"⟩ [⟨name, some (.bool false)⟩]
  | null {name : String} (other : name ≠ "i") (ordinary : name ≠ "callback") :
      Becomes ⟨name, some "None"⟩ [⟨name, some .null⟩]
  | literal (name : String) {text : String} (verbatim : text ∉ ["True", "False", "None"]) :
      Becomes ⟨name, some text⟩ [⟨name, some (.literal text)⟩]

/-- The formals that stand for the parameters of a definition. -/
def Rewritten (written : List WrittenParam) (params : List Param) : Prop :=
  ∃ arranged blocks, Arranged written arranged ∧ List.Forall₂ Becomes arranged blocks ∧
    params = blocks.flatten

theorem putInputFirst_of_other {params : List WrittenParam}
    (plain : ¬[⟨"output", none⟩, ⟨"i", some "None"⟩] <+: params) : putInputFirst params = params := by
  unfold putInputFirst
  split
  · rename_i first second rest
    refine if_neg ?_
    rintro ⟨rfl, rfl⟩
    exact plain (List.prefix_append [bareOutput, optionalInput] rest)
  · rfl

theorem arranged_dropReceiver (written : List WrittenParam) :
    Arranged written (dropReceiver written) := by
  cases written with
  | nil => exact .kept nofun
  | cons first rest =>
      rw [dropReceiver]
      split
      · rename_i leads
        subst leads
        by_cases swaps : [⟨"output", none⟩, ⟨"i", some "None"⟩] <+: rest
        · obtain ⟨rest, rfl⟩ := swaps
          exact .swapped rest
        · rw [putInputFirst_of_other swaps]
          exact .dropped swaps
      · rename_i other
        exact .kept fun leads => other (Option.some.inj leads)

theorem Arranged.eq_dropReceiver {written arranged : List WrittenParam}
    (h : Arranged written arranged) : arranged = dropReceiver written := by
  cases h with
  | swapped rest => rfl
  | dropped plain => exact (putInputFirst_of_other plain).symm
  | kept other =>
      cases written with
      | nil => rfl
      | cons first rest => exact (if_neg fun leads => other (congrArg some leads)).symm

theorem becomes_rename (p : WrittenParam) : Becomes p p.rename := by
  obtain ⟨name, default?⟩ := p
  cases default? with
  | none =>
      by_cases short : name = "i"
      · subst short
        exact .input
      · have alone : rename ⟨name, none⟩ = [⟨name, none⟩] := by
          simp [rename, isShortInput, isCallback, short]
        rw [alone]
        exact .positional short
  | some text =>
      by_cases nothing : text = "None"
      · subst nothing
        by_cases short : name = "i"
        · subst short
          exact .optionalInput
        · by_cases callback : name = "callback"
          · subst callback
            exact .callback
          · have alone : rename ⟨name, some "None"⟩ = [⟨name, some .null⟩] := by
              simp [rename, isShortInput, isCallback, Default.ofPython, short, callback]
            rw [alone]
            exact .null short callback
      · have alone : rename ⟨name, some text⟩ = [⟨name, some (.ofPython text)⟩] := by
          simp [rename, isShortInput, isCallback, nothing]
        rw [alone, Default.ofPython]
        split
        · rename_i same
          rw [same]
          exact .true name
        · split
          · rename_i same
            rw [same]
            exact .false name
          · rename_i notTrue notFalse
            exact .literal name (by simp [notTrue, notFalse, nothing])

theorem Becomes.eq_rename {p : WrittenParam} {block : List Param} (h : Becomes p block) :
    block = p.rename := by
  cases h with
  | input => rfl
  | optionalInput => rfl
  | callback => rfl
  | positional other => simp [rename, isShortInput, isCallback, other]
  | true name => simp [rename, isShortInput, isCallback, Default.ofPython]
  | false name => simp [rename, isShortInput, isCallback, Default.ofPython]
  | null other ordinary =>
      simp [rename, isShortInput, isCallback, Default.ofPython, other, ordinary]
  | literal name verbatim =>
      simp only [List.mem_cons, List.not_mem_nil, or_false, not_or] at verbatim
      simp [rename, isShortInput, isCallback, Default.ofPython, verbatim]

theorem eq_map_rename_of_becomes {params : List WrittenParam} {blocks : List (List Param)}
    (h : List.Forall₂ Becomes params blocks) : blocks = params.map rename := by
  induction h with
  | nil => rfl
  | cons first _ ih => rw [first.eq_rename, ih, List.map_cons]

/-- Every list of parameters is rewritten, and in one way only. -/
theorem rewritten_iff {written : List WrittenParam} {params : List Param} :
    Rewritten written params ↔ params = formals written := by
  constructor
  · rintro ⟨arranged, blocks, order, renamed, rfl⟩
    rw [eq_map_rename_of_becomes renamed, order.eq_dropReceiver, formals, List.flatMap_def]
  · rintro rfl
    refine ⟨dropReceiver written, (dropReceiver written).map rename, arranged_dropReceiver written,
      ?_, List.flatMap_def⟩
    exact List.forall₂_map_right_iff.mpr (List.forall₂_same.mpr fun p _ => becomes_rename p)

end ToolWrappers.WrittenParam
