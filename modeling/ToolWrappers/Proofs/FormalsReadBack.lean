import ToolWrappers.Proofs.PrintedDefinitions

/-! The formals of a wrapper as a list of their own. Cut at its commas it gives the parameters back
exactly if every default is self-contained. A default is cut out of a self-contained piece at its first
equals sign, and so it is self-contained if that sign stands outside of strings and brackets. -/

namespace ToolWrappers

namespace Nesting

variable {here there : Nesting} {s t : List Char} {c : Char}

/-- Strings are opened by quotation marks only. -/
def Quoted : Nesting → Prop
  | .code _ => True
  | .string quote _ _ => isQuote quote = true

theorem Quoted.step (h : here.Quoted) (moved : here.step c = some there) : there.Quoted := by
  cases here with
  | code depth =>
      simp only [Nesting.step] at moved
      split at moved
      · rename_i quotes
        cases moved
        exact quotes
      · split at moved
        · cases moved
          trivial
        · split at moved
          · cases depth with
            | zero => cases moved
            | succ depth =>
                cases moved
                trivial
          · cases moved
            trivial
  | string quote escaped depth =>
      cases escaped with
      | true =>
          cases moved
          exact h
      | false =>
          rw [Nesting.step] at moved
          split at moved
          · cases moved
            exact h
          · split at moved
            · cases moved
              trivial
            · cases moved
              exact h

theorem step_of_advance (moved : here.advance c = some there) : here.step c = some there := by
  unfold advance at moved
  split at moved
  · cases moved
  · exact moved

theorem Quoted.scan (h : here.Quoted) (scanned : here.scan s = some there) : there.Quoted := by
  induction s generalizing here with
  | nil =>
      cases scanned
      exact h
  | cons c s ih =>
      rw [scan_cons] at scanned
      obtain ⟨mid, moved, later⟩ := Option.bind_eq_some_iff.mp scanned
      exact ih (h.step (step_of_advance moved)) later

/-- A blank neither opens nor closes anything. -/
theorem eq_top_of_step_blank (h : here.Quoted) (blank : Text.isBlank c = true)
    (moved : here.step c = some top) : here = top := by
  have plain := not_special_of_isBlank blank
  simp only [specialChars, List.mem_cons, List.not_mem_nil, or_false, not_or] at plain
  cases here with
  | code depth => simpa [step, isQuote, isOpening, isClosing, plain] using moved
  | string quote escaped depth =>
      cases escaped with
      | true => cases moved
      | false =>
          have unquoted : c ≠ quote := by
            rintro rfl
            simp [Quoted, isQuote, plain] at h
          rw [step, if_neg unquoted] at moved
          split at moved
          · cases moved
          · cases moved

theorem eq_top_of_scan_blanks (h : here.Quoted) (blank : ∀ c ∈ s, Text.isBlank c = true)
    (scanned : here.scan s = some top) : here = top := by
  induction s generalizing here with
  | nil => exact Option.some.inj scanned
  | cons c s ih =>
      obtain ⟨first, others⟩ := List.forall_mem_cons.mp blank
      rw [scan_cons] at scanned
      obtain ⟨mid, moved, later⟩ := Option.bind_eq_some_iff.mp scanned
      have stepped := step_of_advance moved
      obtain rfl := ih (h.step stepped) others later
      exact eq_top_of_step_blank h first stepped

/-- What follows a self-contained beginning of a self-contained text is self-contained. -/
theorem SelfContained.of_append (whole : SelfContained (s ++ t)) (front : SelfContained s) :
    SelfContained t := by
  rw [selfContained_iff] at whole front ⊢
  rw [scan, List.foldlM_append, ← scan, front] at whole
  exact whole

theorem SelfContained.trim (text : SelfContained s) : SelfContained (Text.trim s) := by
  obtain ⟨spaced, inner, rfl⟩ := Text.exists_spaced s
  rw [← inner]
  rw [Text.Spaced.chars, List.append_assoc] at text
  have rest := text.of_append (selfContained_of_blank spaced.front_blank)
  rw [selfContained_iff, scan, List.foldlM_append] at rest
  obtain ⟨here, scanned, later⟩ := Option.bind_eq_some_iff.mp rest
  have start : Quoted top := trivial
  obtain rfl := eq_top_of_scan_blanks (start.scan scanned) spaced.back_blank later
  exact selfContained_iff.mpr scanned

end Nesting

namespace Param

/-- A parameter as a definition line can yield it: its name is one, and its default has no blanks
around it. -/
structure Tidy (p : Param) : Prop where
  named : Text.isName p.name.toList = true
  trimmed : ∀ v ∈ p.default?, Text.trim v.toR.toList = v.toR.toList

/-- The default closes what it opens and has no comma at its outermost level. -/
def Balanced (p : Param) : Prop := ∀ v ∈ p.default?, Nesting.SelfContained v.toR.toList

/-- The formals, cut at their commas, are these parameters one by one. -/
def ReadBack (params : List Param) : Prop :=
  WrittenParam.tokens? (formals params).toList = some (params.map fun p => p.toR.toList)

variable {p : Param} {params : List Param}

theorem toList_toR (p : Param) :
    p.toR.toList = p.name.toList ++ p.default?.elim [] fun v => '=' :: v.toR.toList := by
  rw [toR]
  cases p.default? with
  | none => simp
  | some v => simp [String.toList_append]

theorem Tidy.trim_toR (h : p.Tidy) : Text.trim p.toR.toList = p.toR.toList := by
  have solid := Text.isBlank_of_isName h.named
  rw [toList_toR]
  cases given : p.default? with
  | none =>
      rw [Option.elim_none, List.append_nil]
      exact Text.trim_of_forall solid
  | some v =>
      obtain ⟨c, letters, name⟩ := List.exists_cons_of_ne_nil (Text.isName_iff.mp h.named).1
      have first : Text.isBlank c = false := solid c (name ▸ List.mem_cons_self)
      have ending := Text.trimEnd_of_trim (h.trimmed v given)
      rw [Option.elim_some, Text.trim, name, List.cons_append, Text.trimStart_cons first,
        ← List.cons_append, Text.trimEnd_append_cons (by decide), ending]

theorem Tidy.toR_ne_nil (h : p.Tidy) : p.toR.toList ≠ [] := by
  rw [toList_toR]
  exact List.append_ne_nil_of_left_ne_nil (Text.isName_iff.mp h.named).1 _

theorem selfContained_toR_iff (named : Text.isName p.name.toList = true) :
    Nesting.SelfContained p.toR.toList ↔ p.Balanced := by
  have name := Nesting.selfContained_of_isName named
  have equals : Nesting.SelfContained ['='] := by decide
  rw [toList_toR, Balanced]
  cases p.default? with
  | none => simpa using name
  | some v =>
      rw [Option.elim_some, ← List.singleton_append]
      constructor
      · intro whole other given
        cases given
        exact (whole.of_append name).of_append equals
      · intro default
        exact name.append (equals.append (default v rfl))

/-- A space follows each comma between formals. -/
theorem toList_formals (p : Param) (params : List Param) : (formals (p :: params)).toList =
    [','].intercalate (p.toR.toList :: params.map fun q => ' ' :: q.toR.toList) := by
  induction params generalizing p with
  | nil => simp [formals]
  | cons q params ih =>
      have later := ih q
      rw [formals, List.map_cons] at later ⊢
      rw [List.map_cons, String.intercalate_cons_cons, String.toList_append, String.toList_append, later,
        List.map_cons]
      cases params with
      | nil => simp [List.intercalate_cons_cons]
      | cons r params => simp [List.intercalate_cons_cons]

theorem readBack_of_balanced (tidy : ∀ p ∈ params, p.Tidy) (balanced : ∀ p ∈ params, p.Balanced) :
    ReadBack params := by
  cases params with
  | nil => rfl
  | cons p params =>
      have contained : ∀ q ∈ p :: params, Nesting.SelfContained q.toR.toList := fun q member =>
        (selfContained_toR_iff (tidy q member).named).mpr (balanced q member)
      have space : Nesting.SelfContained [' '] := by decide
      have pieces : ∀ piece ∈ p.toR.toList :: params.map (fun q => ' ' :: q.toR.toList),
          Nesting.SelfContained piece := by
        refine List.forall_mem_cons.mpr ⟨contained p List.mem_cons_self, ?_⟩
        refine List.forall_mem_map.mpr fun q member => ?_
        exact space.append (contained q (List.mem_cons_of_mem p member))
      have trimmed : (p.toR.toList :: params.map fun q => ' ' :: q.toR.toList).map Text.trim =
          (p :: params).map fun q => q.toR.toList := by
        rw [List.map_cons, List.map_cons, (tidy p List.mem_cons_self).trim_toR, List.map_map]
        refine congrArg _ (List.map_congr_left fun q member => ?_)
        exact (Text.trim_blanks_append (List.forall_mem_singleton.mpr rfl) q.toR.toList).trans
          (tidy q (List.mem_cons_of_mem p member)).trim_toR
      rw [ReadBack, WrittenParam.tokens?, toList_formals,
        Nesting.split?_intercalate (List.cons_ne_nil _ _) pieces, Option.map_some, trimmed]
      refine congrArg some (List.filter_eq_self.mpr ?_)
      refine List.forall_mem_map.mpr fun q member => ?_
      simp [(tidy q member).toR_ne_nil]

theorem balanced_of_readBack (tidy : ∀ p ∈ params, p.Tidy) (back : ReadBack params) :
    ∀ p ∈ params, p.Balanced := by
  intro p member
  obtain ⟨pieces, split, tokens⟩ := Option.map_eq_some_iff.mp back
  have listed : p.toR.toList ∈ (pieces.map Text.trim).filter (!·.isEmpty) := by
    rw [tokens]
    exact List.mem_map_of_mem member
  obtain ⟨piece, inside, same⟩ := List.mem_map.mp (List.mem_filter.mp listed).1
  have contained := ((Nesting.split?_eq_some_iff.mp split).selfContained piece inside).trim
  rw [same] at contained
  exact (selfContained_toR_iff (tidy p member).named).mp contained

end Param

namespace WrittenParam

/-- The name and the annotation of a piece, up to its first equals sign. -/
def beforeDefault (piece : List Char) : List Char := piece.takeWhile (· ≠ '=')

variable {piece : List Char} {p : WrittenParam}

theorem beforeDefault_append {left : List Char} (absent : '=' ∉ left) (right : List Char) :
    beforeDefault (left ++ '=' :: right) = left := by
  rw [beforeDefault, List.takeWhile_append_of_pos (Text.forall_ne_of_not_mem absent),
    List.takeWhile_cons_of_neg (by decide), List.append_nil]

theorem beforeDefault_of_not_mem (absent : '=' ∉ piece) : beforeDefault piece = piece :=
  List.takeWhile_eq_self_iff.mpr (Text.forall_ne_of_not_mem absent)

/-- A default is what follows the first equals sign. -/
theorem exists_default {text : String} (read : read? piece = some p) (given : p.default? = some text) :
    ∃ left right, piece = left ++ '=' :: right ∧ '=' ∉ left ∧ text.toList = Text.trim right := by
  by_cases defaulted : '=' ∈ piece
  · obtain ⟨left, right, rfl, absent⟩ := List.eq_append_cons_of_mem defaulted
    rw [read?_append_equals absent] at read
    split at read
    · cases read
      cases given
      exact ⟨left, right, rfl, absent, String.toList_ofList⟩
    · cases read
  · rw [read?_of_not_mem defaulted] at read
    split at read
    · cases read
      cases given
    · cases read

theorem selfContained_default {left right : List Char} (absent : '=' ∉ left)
    (whole : Nesting.SelfContained (left ++ '=' :: right))
    (outside : Nesting.SelfContained (beforeDefault (left ++ '=' :: right))) :
    Nesting.SelfContained (Text.trim right) := by
  have equals : Nesting.SelfContained ['='] := by decide
  rw [beforeDefault_append absent] at outside
  have later : Nesting.SelfContained (['='] ++ right) := whole.of_append outside
  exact (later.of_append equals).trim

/-- Without an annotation the equals sign follows a name. -/
theorem selfContained_beforeDefault (contained : Nesting.SelfContained piece)
    (accepted : '=' ∈ piece → ∃ p, read? piece = some p) (bare : ':' ∉ beforeDefault piece) :
    Nesting.SelfContained (beforeDefault piece) := by
  by_cases defaulted : '=' ∈ piece
  · obtain ⟨p, read⟩ := accepted defaulted
    obtain ⟨left, right, rfl, absent⟩ := List.eq_append_cons_of_mem defaulted
    rw [beforeDefault_append absent] at bare ⊢
    rw [read?_append_equals absent] at read
    split at read
    · rename_i named
      rw [nameIn_of_not_mem bare] at named
      obtain ⟨spaced, text, rfl⟩ := Text.exists_spaced left
      rw [← text] at named
      exact (Nesting.selfContained_of_isName named).spaced
    · cases read
  · rwa [beforeDefault_of_not_mem defaulted]

end WrittenParam

/-- What holds of the words that stand for Python's own constants and of a literal holds of every
default. -/
theorem Param.forall_default {P : List Char → Prop} {q : Param}
    (words : P "TRUE".toList ∧ P "FALSE".toList ∧ P "NULL".toList)
    (literal : ∀ text, q.default? = some (.literal text) → P text.toList) :
    ∀ v ∈ q.default?, P v.toR.toList := by
  intro v given
  cases v with
  | bool value =>
      cases value with
      | true => exact words.1
      | false => exact words.2.1
  | null => exact words.2.2
  | literal text => exact literal text given

namespace Definition

/-- The parameter list of a definition line. -/
def list? (line : List Char) : Option (List Char) := do
  let rest := Text.trimStart (← Text.stripPrefix? "def".toList line)
  let (_, right) ← Text.cut? ['('] rest
  beforeLastClose? right

theorem written?_eq_bind (line : List Char) :
    written? line = (list? line).bind WrittenParam.readList? := by
  simp only [written?, list?, Option.bind_eq_bind, Option.bind_assoc]

variable {line : List Char} {d : Definition} {pieces : List (List Char)}

/-- Where the formals of a definition come from: every piece that is not blank is read, and every
formal stands for what one of them is read as. -/
structure ReadFrom (pieces : List (List Char)) (d : Definition) : Prop where
  accepted : ∀ piece ∈ pieces, Text.trim piece ≠ [] → ∃ p, WrittenParam.read? piece = some p
  formal : ∀ q ∈ d.params, ∃ piece ∈ pieces, ∃ p, WrittenParam.read? piece = some p ∧ q ∈ p.rename

theorem exists_pieces (h : read? line = some d) : ∃ list pieces, list? line = some list ∧
    Nesting.Decomposes list pieces ∧ d.ReadFrom pieces := by
  obtain ⟨written, listed, params⟩ := exists_written h
  rw [written?_eq_bind] at listed
  obtain ⟨list, found, listed⟩ := Option.bind_eq_some_iff.mp listed
  rw [WrittenParam.readList?_eq_bind, WrittenParam.tokens?, Option.bind_map] at listed
  obtain ⟨pieces, split, reads⟩ := Option.bind_eq_some_iff.mp listed
  refine ⟨list, pieces, found, Nesting.split?_eq_some_iff.mp split, ?_, ?_⟩
  · intro piece member filled
    have token : Text.trim piece ∈ (pieces.map Text.trim).filter (!·.isEmpty) :=
      List.mem_filter.mpr ⟨List.mem_map_of_mem member, by simp [filled]⟩
    obtain ⟨p, read⟩ := exists_of_mapM reads token
    exact ⟨p, WrittenParam.read?_trim piece ▸ read⟩
  · intro q member
    rw [params] at member
    obtain ⟨p, kept, renamed⟩ := List.mem_flatMap.mp member
    obtain ⟨token, inside, read⟩ := mem_of_mapM reads (WrittenParam.mem_of_mem_dropReceiver kept)
    obtain ⟨piece, there, rfl⟩ := List.mem_map.mp (List.mem_filter.mp inside).1
    exact ⟨piece, there, p, WrittenParam.read?_trim piece ▸ read, renamed⟩

namespace ReadFrom

variable (h : d.ReadFrom pieces)
include h

theorem tidy : ∀ q ∈ d.params, q.Tidy := by
  intro q member
  obtain ⟨piece, -, p, read, renamed⟩ := h.formal q member
  refine ⟨WrittenParam.isName_of_mem_rename (WrittenParam.isName_of_read? read) renamed, ?_⟩
  have words : Text.trim "TRUE".toList = "TRUE".toList ∧ Text.trim "FALSE".toList = "FALSE".toList ∧
      Text.trim "NULL".toList = "NULL".toList := by decide
  refine Param.forall_default (P := fun s => Text.trim s = s) words fun text literal => ?_
  have given := WrittenParam.literal_of_mem_rename renamed literal
  obtain ⟨left, right, -, -, same⟩ := WrittenParam.exists_default read given
  rw [same, Text.trim_trim]

theorem balanced (contained : ∀ piece ∈ pieces, Nesting.SelfContained piece)
    (outside : ∀ piece ∈ pieces, Nesting.SelfContained (WrittenParam.beforeDefault piece)) :
    ∀ q ∈ d.params, q.Balanced := by
  intro q member
  obtain ⟨piece, inside, p, read, renamed⟩ := h.formal q member
  have words : Nesting.SelfContained "TRUE".toList ∧ Nesting.SelfContained "FALSE".toList ∧
      Nesting.SelfContained "NULL".toList := by decide
  refine Param.forall_default words fun text literal => ?_
  have given := WrittenParam.literal_of_mem_rename renamed literal
  obtain ⟨left, right, rfl, absent, same⟩ := WrittenParam.exists_default read given
  rw [same]
  exact WrittenParam.selfContained_default absent (contained _ inside) (outside _ inside)

theorem selfContained_beforeDefault {piece : List Char} (inside : piece ∈ pieces)
    (contained : Nesting.SelfContained piece) (bare : ':' ∉ WrittenParam.beforeDefault piece) :
    Nesting.SelfContained (WrittenParam.beforeDefault piece) := by
  refine WrittenParam.selfContained_beforeDefault contained (fun defaulted => ?_) bare
  refine h.accepted piece inside fun blank => ?_
  obtain ⟨spaced, text, rfl⟩ := Text.exists_spaced piece
  exact Text.Spaced.not_mem_chars (by decide) (by simp [text, blank]) defaulted

end ReadFrom

/-- The formals of a definition, cut at their commas, are its parameters exactly if every default is
self-contained. That is so if the first equals sign of each piece stands outside of strings and brackets,
and in a piece without an annotation it does. -/
structure ReadsBack (pieces : List (List Char)) (d : Definition) : Prop where
  balanced_iff : Param.ReadBack d.params ↔ ∀ q ∈ d.params, q.Balanced
  outside : (∀ piece ∈ pieces, Nesting.SelfContained (WrittenParam.beforeDefault piece)) →
    Param.ReadBack d.params ∧ ∀ q ∈ d.params, q.Balanced
  bare : ∀ piece ∈ pieces, ':' ∉ WrittenParam.beforeDefault piece →
    Nesting.SelfContained (WrittenParam.beforeDefault piece)

end Definition

theorem formals_read_back {line : List Char} {d : Definition} (h : Definition.read? line = some d) :
    ∃ list pieces, Definition.list? line = some list ∧ Nesting.Decomposes list pieces ∧
      d.ReadsBack pieces := by
  obtain ⟨list, pieces, found, decomposes, from_pieces⟩ := Definition.exists_pieces h
  have contained := decomposes.selfContained
  refine ⟨list, pieces, found, decomposes, ?_, ?_, ?_⟩
  · exact ⟨Param.balanced_of_readBack from_pieces.tidy, Param.readBack_of_balanced from_pieces.tidy⟩
  · intro outside
    have balanced := from_pieces.balanced contained outside
    exact ⟨Param.readBack_of_balanced from_pieces.tidy balanced, balanced⟩
  · intro piece inside bare
    exact from_pieces.selfContained_beforeDefault inside (contained piece inside) bare

/-- A parameter whose annotation and default hold whatever opens, closes and separates. -/
def annotatedLine : String := "def f(self, x: t[int, 'a,b'] = \"(=\", y=\x7b1: [2, 3]\x7d, callback=None):"

theorem formals_read_back_of_annotatedLine :
    ∃ d, Definition.read? annotatedLine.toList = some d ∧ Param.ReadBack d.params ∧
      d.params.map (·.toR) = ["x=\"(=\"", "y=\x7b1: [2, 3]\x7d", "wd=NULL", "verbose_mode=FALSE",
        "compress_rasters=FALSE"] := by
  have accepted : Definition.read? annotatedLine.toList = some ⟨"f", "f",
      [⟨"x", some (.literal "\"(=\"")⟩, ⟨"y", some (.literal "\x7b1: [2, 3]\x7d")⟩] ++
        implicitOptions⟩ := by decide +kernel
  obtain ⟨list, pieces, found, decomposes, back⟩ := formals_read_back accepted
  have known : (Definition.list? annotatedLine.toList).bind Nesting.split? = some
      ["self".toList, " x: t[int, 'a,b'] = \"(=\"".toList, " y=\x7b1: [2, 3]\x7d".toList,
        " callback=None".toList] := by decide +kernel
  rw [found, Option.bind_some, Nesting.split?_eq_some_iff.mpr decomposes] at known
  obtain rfl := Option.some.inj known
  exact ⟨_, accepted, (back.outside (by decide +kernel)).1, by decide +kernel⟩

/-- An accepted line gives a parameter a default that is not self-contained, and its formals are cut at
other places. -/
def Definition.CutsIntoDefault (line name text : String) : Prop :=
  ∃ d, read? line.toList = some d ∧ ⟨name, some (.literal text)⟩ ∈ d.params ∧
    ¬ Nesting.SelfContained text.toList ∧ ¬ Param.ReadBack d.params

/-- Annotations with an equals sign inside a bracket, inside a string, and inside a string from whose
middle on the text has a comma outside. -/
theorem annotations_cut_into_defaults :
    Definition.CutsIntoDefault "def f(self, x: Annotated[int, Gt(gt=0)], callback=None):" "x" "0)]" ∧
      Definition.CutsIntoDefault "def f(self, x: 'a=b' = 1):" "x" "b' = 1" ∧
      Definition.CutsIntoDefault "def f(self, x: \"a=1, \\\"\"):" "x" "1, \\\"\"" := by
  refine ⟨?_, ?_, ?_⟩
  · refine ⟨⟨"f", "f", ⟨"x", some (.literal "0)]")⟩ :: implicitOptions⟩, ?_, ?_, ?_, ?_⟩
    · decide +kernel
    · decide
    · decide +kernel
    · unfold Param.ReadBack
      decide +kernel
  · refine ⟨⟨"f", "f", [⟨"x", some (.literal "b' = 1")⟩]⟩, ?_, ?_, ?_, ?_⟩
    · decide +kernel
    · decide
    · decide +kernel
    · unfold Param.ReadBack
      decide +kernel
  · refine ⟨⟨"f", "f", [⟨"x", some (.literal "1, \\\"\"")⟩]⟩, ?_, ?_, ?_, ?_⟩
    · decide +kernel
    · decide
    · decide +kernel
    · unfold Param.ReadBack
      decide +kernel

end ToolWrappers
