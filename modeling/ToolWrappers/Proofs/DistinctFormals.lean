import Mathlib.Data.List.Nodup
import ToolWrappers.Proofs.DocumentedNames

/-! Whether the formals of a wrapper all have different names. A parameter that is renamed or expanded
brings in names that nobody wrote, and no other name can come to stand among the formals twice. -/

namespace ToolWrappers

namespace WrittenParam

/-- The names that the formals of a parameter have in place of its own. -/
def namesBroughtIn (p : WrittenParam) : List String :=
  if p.isShortInput then ["input"]
  else if p.isCallback then implicitOptions.map (·.name)
  else []

def keepsName (p : WrittenParam) : Bool := p.namesBroughtIn.isEmpty

variable {p q : WrittenParam} {params written : List WrittenParam} {name : String}

theorem names_rename (p : WrittenParam) :
    p.rename.map (·.name) = if p.keepsName then [p.name] else p.namesBroughtIn := by
  unfold rename keepsName namesBroughtIn
  cases p.isShortInput with
  | true => rfl
  | false =>
      cases p.isCallback with
      | true => rfl
      | false => rfl

/-- Only two names are given up, each for names that are fixed. -/
theorem name_of_mem_namesBroughtIn (brought : name ∈ p.namesBroughtIn) :
    p.name = "i" ∧ name = "input" ∨ p.name = "callback" ∧ name ∈ implicitOptions.map (·.name) := by
  unfold namesBroughtIn at brought
  split at brought
  · rename_i short
    rw [isShortInput, Bool.and_eq_true, decide_eq_true_eq] at short
    exact .inl ⟨short.1, List.mem_singleton.mp brought⟩
  · split at brought
    · rename_i callback
      rw [isCallback, Bool.and_eq_true, decide_eq_true_eq] at callback
      exact .inr ⟨callback.1, brought⟩
    · cases brought

theorem nodup_namesBroughtIn (p : WrittenParam) : p.namesBroughtIn.Nodup := by
  unfold namesBroughtIn
  split
  · exact List.nodup_singleton _
  · split
    · decide
    · exact List.nodup_nil

theorem namesBroughtIn_disjoint (other : p.name ≠ q.name) :
    List.Disjoint p.namesBroughtIn q.namesBroughtIn := by
  intro name one two
  have apart : "input" ∉ implicitOptions.map (·.name) := by decide
  rcases name_of_mem_namesBroughtIn one with ⟨here, rfl⟩ | ⟨here, option⟩
  · rcases name_of_mem_namesBroughtIn two with ⟨there, -⟩ | ⟨-, option⟩
    · exact other (here.trans there.symm)
    · exact apart option
  · rcases name_of_mem_namesBroughtIn two with ⟨-, rfl⟩ | ⟨there, -⟩
    · exact apart option
    · exact other (here.trans there.symm)

/-- Whoever has a name that can be brought in keeps it, and is not the receiver. -/
theorem keepsName_of_brought (brought : q.name ∈ p.namesBroughtIn) :
    q.keepsName = true ∧ q.name ≠ "self" := by
  have fixed : q.name ∈ "input" :: implicitOptions.map (·.name) := by
    rcases name_of_mem_namesBroughtIn brought with ⟨-, same⟩ | ⟨-, option⟩
    · rw [same]
      exact List.mem_cons_self
    · exact List.mem_cons_of_mem _ option
  have plain : ∀ name ∈ "input" :: implicitOptions.map (·.name),
      name ≠ "i" ∧ name ≠ "callback" ∧ name ≠ "self" := by decide
  obtain ⟨long, ordinary, inside⟩ := plain q.name fixed
  refine ⟨?_, inside⟩
  simp [keepsName, namesBroughtIn, isShortInput, isCallback, long, ordinary]

/-- The names of the formals are those that are kept and those that are brought in. -/
theorem names_formals_perm (params : List WrittenParam) :
    ((params.flatMap rename).map (·.name)).Perm
      ((params.filter keepsName).map (·.name) ++ params.flatMap namesBroughtIn) := by
  induction params with
  | nil => exact .nil
  | cons p params ih =>
      rw [List.flatMap_cons, List.map_append, names_rename, List.flatMap_cons]
      by_cases kept : p.keepsName = true
      · have nothing : p.namesBroughtIn = [] := List.isEmpty_iff.mp kept
        rw [if_pos kept, List.filter_cons_of_pos kept, List.map_cons, nothing, List.nil_append]
        exact ih.cons p.name
      · rw [if_neg kept, List.filter_cons_of_neg kept]
        exact (ih.append_left p.namesBroughtIn).trans (List.perm_append_comm_assoc ..)

theorem nodup_dropReceiver (distinct : (written.map (·.name)).Nodup) :
    ((dropReceiver written).map (·.name)).Nodup := by
  cases written with
  | nil => exact distinct
  | cons first rest =>
      rw [dropReceiver]
      split
      · exact ((putInputFirst_perm rest).map _).nodup_iff.mpr (List.nodup_cons.mp distinct).2
      · exact distinct

theorem nodup_flatMap_namesBroughtIn (distinct : (params.map (·.name)).Nodup) :
    (params.flatMap namesBroughtIn).Nodup := by
  rw [List.nodup_flatMap]
  refine ⟨fun p _ => nodup_namesBroughtIn p, ?_⟩
  exact (List.pairwise_map.mp distinct).imp namesBroughtIn_disjoint

theorem exists_brought_iff : (∃ p ∈ dropReceiver written, name ∈ p.namesBroughtIn) ↔
    ∃ p ∈ written, name ∈ p.namesBroughtIn := by
  constructor
  · rintro ⟨p, member, brought⟩
    exact ⟨p, mem_of_mem_dropReceiver member, brought⟩
  · rintro ⟨p, member, brought⟩
    have inside : p.name ≠ "self" := by
      rcases name_of_mem_namesBroughtIn brought with ⟨same, -⟩ | ⟨same, -⟩
      · rw [same]
        decide
      · rw [same]
        decide
    exact ⟨p, mem_dropReceiver member inside, brought⟩

/-- A name that is brought in is kept by somebody exactly if it is written. -/
theorem mem_kept_iff (brought : name ∈ p.namesBroughtIn) :
    name ∈ ((dropReceiver written).filter keepsName).map (·.name) ↔
      name ∈ written.map (·.name) := by
  constructor
  · intro member
    obtain ⟨q, kept, same⟩ := List.mem_map.mp member
    exact List.mem_map.mpr ⟨q, mem_of_mem_dropReceiver (List.mem_filter.mp kept).1, same⟩
  · intro member
    obtain ⟨q, inside, rfl⟩ := List.mem_map.mp member
    obtain ⟨kept, noReceiver⟩ := keepsName_of_brought brought
    exact List.mem_map.mpr ⟨q, List.mem_filter.mpr ⟨mem_dropReceiver inside noReceiver, kept⟩, rfl⟩

/-- Of different names only one that is both written and brought in comes to stand twice. -/
theorem repeated_formals_iff (distinct : (written.map (·.name)).Nodup) (name : String) :
    1 < ((formals written).map (·.name)).count name ↔
      name ∈ written.map (·.name) ∧ ∃ p ∈ written, name ∈ p.namesBroughtIn := by
  have arranged := nodup_dropReceiver distinct
  have keptOnce : (((dropReceiver written).filter keepsName).map (·.name)).Nodup :=
    arranged.sublist (List.filter_sublist.map _)
  have broughtOnce := nodup_flatMap_namesBroughtIn arranged
  have whole : ((formals written).map (·.name)).count name =
      (((dropReceiver written).filter keepsName).map (·.name)).count name +
        ((dropReceiver written).flatMap namesBroughtIn).count name := by
    rw [formals, (names_formals_perm _).count_eq, List.count_append]
  rw [whole, ← exists_brought_iff, ← List.mem_flatMap]
  have keptAtMost := List.nodup_iff_count_le_one.mp keptOnce name
  have broughtAtMost := List.nodup_iff_count_le_one.mp broughtOnce name
  constructor
  · intro twice
    have brought : name ∈ (dropReceiver written).flatMap namesBroughtIn :=
      List.count_pos_iff.mp (by omega)
    have kept : name ∈ ((dropReceiver written).filter keepsName).map (·.name) :=
      List.count_pos_iff.mp (by omega)
    obtain ⟨p, -, here⟩ := List.mem_flatMap.mp brought
    exact ⟨(mem_kept_iff here).mp kept, brought⟩
  · rintro ⟨member, brought⟩
    obtain ⟨p, -, here⟩ := List.mem_flatMap.mp brought
    have kept := List.count_pos_iff.mpr ((mem_kept_iff here).mpr member)
    have there := List.count_pos_iff.mpr brought
    omega

end WrittenParam

/-- How often the names of the formals occur, if the written names all differ. -/
structure Definition.NamesFormals (written : List WrittenParam) (d : Definition) : Prop where
  params : d.params = WrittenParam.formals written
  repeated : ∀ name, 1 < (d.params.map (·.name)).count name ↔
    name ∈ written.map (·.name) ∧ ∃ p ∈ written, name ∈ p.namesBroughtIn
  distinct : (d.params.map (·.name)).Nodup ↔
    ∀ p ∈ written, ∀ name ∈ p.namesBroughtIn, name ∉ written.map (·.name)

/-- The formals of an accepted definition whose written names all differ are different too, unless a
name is written that the short input or the callback brings in; then this name stands twice. -/
theorem formals_repeat_names_brought_in {line : List Char} {d : Definition}
    (h : Definition.read? line = some d) :
    ∃ written, Definition.written? line = some written ∧
      ((written.map (·.name)).Nodup → d.NamesFormals written) := by
  obtain ⟨written, listed, params⟩ := Definition.exists_written h
  refine ⟨written, listed, fun distinct => ?_⟩
  have repeated := WrittenParam.repeated_formals_iff distinct
  rw [← params] at repeated
  refine ⟨params, repeated, ?_⟩
  constructor
  · intro once p member name brought inside
    have twice := (repeated name).mpr ⟨inside, p, member, brought⟩
    exact Nat.not_lt.mpr (List.nodup_iff_count_le_one.mp once name) twice
  · intro apart
    refine List.nodup_iff_count_le_one.mpr fun name => Nat.not_lt.mp fun twice => ?_
    obtain ⟨inside, p, member, brought⟩ := (repeated name).mp twice
    exact apart p member name brought inside

theorem formals_repeat_names_brought_in_of_clump :
    ∃ d, Definition.read? "def clump(self, output, i=None, zero=True, callback=None):".toList = some d ∧
      (d.params.map (·.name)).Nodup ∧
      d.params.map (·.name) =
        ["input", "output", "zero", "wd", "verbose_mode", "compress_rasters"] := by
  have accepted : Definition.read?
      "def clump(self, output, i=None, zero=True, callback=None):".toList = some ⟨"clump", "clump",
        [⟨"input", none⟩, ⟨"output", none⟩, ⟨"zero", some (.bool true)⟩] ++ implicitOptions⟩ := by
    decide +kernel
  obtain ⟨written, listed, compare⟩ := formals_repeat_names_brought_in accepted
  have known : Definition.written?
      "def clump(self, output, i=None, zero=True, callback=None):".toList =
        some [⟨"self", none⟩, ⟨"output", none⟩, ⟨"i", some "None"⟩, ⟨"zero", some "True"⟩,
          ⟨"callback", some "None"⟩] := by decide +kernel
  obtain rfl := Option.some.inj (listed.symm.trans known)
  exact ⟨_, accepted, (compare (by decide)).distinct.mpr (by decide), by decide⟩

/-- The names of a line differ, and those of its formals do not. -/
def Definition.RepeatsFormal (line name : String) : Prop :=
  ∃ d written, read? line.toList = some d ∧ written? line.toList = some written ∧
    (written.map (·.name)).Nodup ∧ 1 < (d.params.map (·.name)).count name

/-- The short input beside an input, and the callback beside an option that every tool has. -/
theorem renamed_formals_repeated :
    Definition.RepeatsFormal "def f(self, i, input, callback=None):" "input" ∧
      Definition.RepeatsFormal "def f(self, i, verbose_mode=False, callback=None):" "verbose_mode" := by
  constructor
  · refine ⟨⟨"f", "f", [⟨"input", none⟩, ⟨"input", none⟩] ++ implicitOptions⟩,
      [⟨"self", none⟩, ⟨"i", none⟩, ⟨"input", none⟩, ⟨"callback", some "None"⟩], ?_, ?_, ?_, ?_⟩
    · decide +kernel
    · decide +kernel
    · decide
    · decide
  · refine ⟨⟨"f", "f", [⟨"input", none⟩, ⟨"verbose_mode", some (.bool false)⟩] ++ implicitOptions⟩,
      [⟨"self", none⟩, ⟨"i", none⟩, ⟨"verbose_mode", some "False"⟩, ⟨"callback", some "None"⟩],
      ?_, ?_, ?_, ?_⟩
    · decide +kernel
    · decide +kernel
    · decide
    · decide

end ToolWrappers
