import ToolWrappers.Definition.Basic
import ToolWrappers.Proofs.LineBreaks

/-! What an accepted definition line yields: every name is made of name characters, and a literal
default holds only characters of the line. -/

namespace ToolWrappers

section

variable {α β : Type} {f : α → Option β} {x : α} {xs : List α} {ys : List β}

theorem mapM_cons_eq_some (h : (x :: xs).mapM f = some ys) :
    ∃ y others, f x = some y ∧ xs.mapM f = some others ∧ y :: others = ys := by
  simp only [List.mapM_cons, Option.bind_eq_bind, Option.bind_eq_some_iff, Option.pure_def,
    Option.some.injEq] at h
  obtain ⟨y, here, others, later, same⟩ := h
  exact ⟨y, others, here, later, same⟩

theorem mem_of_mapM (h : xs.mapM f = some ys) {y : β} (member : y ∈ ys) :
    ∃ x ∈ xs, f x = some y := by
  induction xs generalizing ys with
  | nil =>
      cases h
      cases member
  | cons x xs ih =>
      obtain ⟨first, others, here, later, rfl⟩ := mapM_cons_eq_some h
      rcases List.mem_cons.mp member with rfl | member
      · exact ⟨x, List.mem_cons_self, here⟩
      · obtain ⟨origin, inside, found⟩ := ih later member
        exact ⟨origin, List.mem_cons_of_mem x inside, found⟩

theorem exists_of_mapM (h : xs.mapM f = some ys) (member : x ∈ xs) : ∃ y, f x = some y := by
  induction xs generalizing ys with
  | nil => cases member
  | cons first xs ih =>
      obtain ⟨y, others, here, later, rfl⟩ := mapM_cons_eq_some h
      rcases List.mem_cons.mp member with rfl | inside
      · exact ⟨y, here⟩
      · exact ih later inside

end

theorem Nesting.subset_of_mem_splitFrom {here : Nesting} {list piece : List Char}
    {pieces : List (List Char)} (h : here.splitFrom list = some pieces) (member : piece ∈ pieces) :
    piece ⊆ list := by
  induction list generalizing here piece pieces with
  | nil =>
      rw [splitFrom] at h
      split at h
      · cases h
        rw [List.mem_singleton.mp member]
        exact List.nil_subset _
      · cases h
  | cons c rest ih =>
      rw [splitFrom] at h
      split at h
      · obtain ⟨later, found, rfl⟩ := Option.map_eq_some_iff.mp h
        rcases List.mem_cons.mp member with rfl | member
        · exact List.nil_subset _
        · exact List.subset_cons_of_subset c (ih found member)
      · simp only [Option.bind_eq_bind, Option.bind_eq_some_iff] at h
        obtain ⟨next, _, later, found, joined⟩ := h
        cases later with
        | nil =>
            cases joined
            rw [List.mem_singleton.mp member]
            exact List.cons_subset_cons c (List.nil_subset rest)
        | cons first others =>
            cases joined
            rcases List.mem_cons.mp member with rfl | member
            · exact List.cons_subset_cons c (ih found List.mem_cons_self)
            · exact List.subset_cons_of_subset c (ih found (List.mem_cons_of_mem first member))

namespace Text

theorem isName_iff {s : List Char} : isName s = true ↔ s ≠ [] ∧ ∀ c ∈ s, isNameChar c = true := by
  simp [isName]

theorem not_mem_of_named {s : List Char} (named : ∀ c ∈ s, isNameChar c = true) {x : Char}
    (other : isNameChar x = false) : x ∉ s := by
  intro member
  rw [named x member] at other
  cases other

theorem newline_not_mem_name {s : List Char} (named : ∀ c ∈ s, isNameChar c = true) : '\n' ∉ s :=
  not_mem_of_named named (by decide)

theorem isNameChar_of_isBlank {c : Char} (blank : isBlank c = true) :
    isNameChar c = false := by
  have codes : ∀ code ∈ blankCodes, isNameChar (Char.ofNat code) = false := by
    decide +kernel
  have found := codes c.toNat (List.contains_iff_mem.mp blank)
  rwa [Char.ofNat_toNat] at found

theorem isBlank_of_isName {name : List Char} (named : isName name = true) :
    ∀ c ∈ name, isBlank c = false := by
  intro c member
  cases blank : isBlank c with
  | false => rfl
  | true =>
      have letter := (isName_iff.mp named).2 c member
      rw [isNameChar_of_isBlank blank] at letter
      cases letter

end Text

/-- A token with a meaning of its own is no literal. -/
theorem Default.ofPython_eq_literal {token text : String}
    (h : Default.ofPython token = .literal text) : token = text := by
  unfold Default.ofPython at h
  split at h
  · cases h
  · split at h
    · cases h
    · split at h
      · cases h
      · cases h
        rfl

namespace WrittenParam

theorem isName_of_read? {token : List Char} {p : WrittenParam} (h : read? token = some p) :
    Text.isName p.name.toList = true := by
  unfold read? at h
  simp only [Option.ite_none_right_eq_some, Option.some.injEq] at h
  obtain ⟨named, rfl⟩ := h
  rwa [String.toList_ofList]

/-- The default is cut out of what is written. -/
theorem default_subset_of_read? {token : List Char} {p : WrittenParam} {text : String}
    (h : read? token = some p) (written : p.default? = some text) : text.toList ⊆ token := by
  unfold read? at h
  simp only [Option.ite_none_right_eq_some, Option.some.injEq] at h
  obtain ⟨_, rfl⟩ := h
  cases cut : Text.cut? ['='] token with
  | none =>
      rw [cut] at written
      cases written
  | some sides =>
      rw [cut] at written
      cases written
      rw [String.toList_ofList]
      refine List.Subset.trans (Text.trim_sublist _).subset ?_
      rw [Text.eq_of_cut? cut]
      exact List.subset_append_right _ _

theorem readList?_eq_some {list : List Char} {written : List WrittenParam}
    (h : readList? list = some written) {p : WrittenParam} (member : p ∈ written) :
    ∃ token, token ⊆ list ∧ read? token = some p := by
  unfold readList? at h
  simp only [Option.bind_eq_bind, Option.bind_eq_some_iff] at h
  obtain ⟨pieces, split, reads⟩ := h
  obtain ⟨token, inside, read⟩ := mem_of_mapM reads member
  obtain ⟨piece, there, rfl⟩ := List.mem_map.mp (List.mem_filter.mp inside).1
  have inner := Nesting.subset_of_mem_splitFrom split there
  exact ⟨_, List.Subset.trans (Text.trim_sublist piece).subset inner, read⟩

theorem putInputFirst_perm (params : List WrittenParam) : (putInputFirst params).Perm params := by
  unfold putInputFirst
  split
  · split
    · exact .swap ..
    · exact .refl _
  · exact .refl params

theorem mem_of_mem_dropReceiver {written : List WrittenParam} {p : WrittenParam}
    (h : p ∈ dropReceiver written) : p ∈ written := by
  cases written with
  | nil => cases h
  | cons first rest =>
      rw [dropReceiver] at h
      split at h
      · exact List.mem_cons_of_mem first ((putInputFirst_perm rest).mem_iff.mp h)
      · exact h

theorem isName_of_mem_rename {p : WrittenParam} {q : Param}
    (named : Text.isName p.name.toList = true) (h : q ∈ rename p) :
    Text.isName q.name.toList = true := by
  unfold rename at h
  split at h
  · rw [List.mem_singleton.mp h]
    decide
  · split at h
    · have all : ∀ q ∈ implicitOptions, Text.isName q.name.toList = true := by decide
      exact all q h
    · rw [List.mem_singleton.mp h]
      exact named

/-- Only a default that is written becomes a literal. -/
theorem literal_of_mem_rename {p : WrittenParam} {q : Param} {text : String}
    (h : q ∈ rename p) (literal : q.default? = some (.literal text)) : p.default? = some text := by
  unfold rename at h
  split at h
  · rw [List.mem_singleton.mp h] at literal
    cases literal
  · split at h
    · have none : ∀ q ∈ implicitOptions, q.default? = some .null ∨ q.default? = some (.bool false) := by
        decide
      rcases none q h with other | other <;> rw [other] at literal <;> cases literal
    · rw [List.mem_singleton.mp h] at literal
      obtain ⟨token, written, same⟩ := Option.map_eq_some_iff.mp literal
      rw [written, Default.ofPython_eq_literal same]

end WrittenParam

namespace Definition

/-- All names of a definition are made of name characters. -/
structure WellNamed (d : Definition) : Prop where
  name : Text.isName d.name.toList = true
  command : Text.isName d.command.toList = true
  params : ∀ p ∈ d.params, Text.isName p.name.toList = true

theorem isName_commandOf {name : String} (named : Text.isName name.toList = true) :
    Text.isName (commandOf name).toList = true := by
  unfold commandOf
  split
  · decide
  · split
    · decide
    · split
      · decide
      · exact named

theorem beforeLastClose?_subset {s before : List Char} (h : beforeLastClose? s = some before) :
    before ⊆ s := by
  unfold beforeLastClose? at h
  split at h
  · cases h
  · rename_i c rest found
    cases h
    intro x member
    have there : x ∈ s.reverse.dropWhile (· ≠ ')') := by
      rw [found]
      exact List.mem_cons_of_mem c (List.mem_reverse.mp member)
    exact List.mem_reverse.mp ((List.dropWhile_sublist _).subset there)

theorem read?_eq_some {line : List Char} {d : Definition} (h : read? line = some d) :
    ∃ name list written, Text.isName name = true ∧ list ⊆ line ∧
      WrittenParam.readList? list = some written ∧
      d = ⟨.ofList name, commandOf (.ofList name), WrittenParam.formals written⟩ := by
  unfold read? at h
  simp only [Option.bind_eq_bind, Option.bind_eq_some_iff] at h
  obtain ⟨rest, keyword, ⟨left, right⟩, opened, list, closed, h⟩ := h
  dsimp only at h
  split at h
  · cases h
  · rename_i named
    obtain ⟨written, listed, same⟩ := Option.bind_eq_some_iff.mp h
    cases same
    refine ⟨Text.trim left, list, written, by simpa using named, ?_, listed, rfl⟩
    calc
      list ⊆ right := beforeLastClose?_subset closed
      _ ⊆ Text.trimStart rest := by
          rw [Text.eq_of_cut? opened]
          exact List.subset_append_right _ _
      _ ⊆ rest := (List.dropWhile_sublist _).subset
      _ ⊆ line := (Text.sublist_of_stripPrefix? keyword).subset

theorem wellNamed_of_read? {line : List Char} {d : Definition} (h : read? line = some d) :
    d.WellNamed := by
  obtain ⟨name, list, written, named, _, listed, rfl⟩ := read?_eq_some h
  have whole : Text.isName (String.ofList name).toList = true := by
    rwa [String.toList_ofList]
  refine ⟨whole, isName_commandOf whole, ?_⟩
  intro q member
  obtain ⟨p, kept, renamed⟩ := List.mem_flatMap.mp member
  obtain ⟨token, _, read⟩ :=
    WrittenParam.readList?_eq_some listed (WrittenParam.mem_of_mem_dropReceiver kept)
  exact WrittenParam.isName_of_mem_rename (WrittenParam.isName_of_read? read) renamed

/-- A literal default is cut out of the line. -/
theorem literal_subset_of_read? {line : List Char} {d : Definition} (h : read? line = some d)
    {q : Param} (member : q ∈ d.params) {text : String}
    (literal : q.default? = some (.literal text)) : text.toList ⊆ line := by
  obtain ⟨name, list, written, _, inside, listed, rfl⟩ := read?_eq_some h
  obtain ⟨p, kept, renamed⟩ := List.mem_flatMap.mp member
  obtain ⟨token, cut, read⟩ :=
    WrittenParam.readList?_eq_some listed (WrittenParam.mem_of_mem_dropReceiver kept)
  have default := WrittenParam.literal_of_mem_rename renamed literal
  calc
    text.toList ⊆ token := WrittenParam.default_subset_of_read? read default
    _ ⊆ list := cut
    _ ⊆ line := inside

end Definition

end ToolWrappers
