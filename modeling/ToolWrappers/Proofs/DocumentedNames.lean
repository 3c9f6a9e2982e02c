import ToolWrappers.Proofs.DocumentationText
import ToolWrappers.Proofs.ParameterLines

/-! What the documentation of a wrapper calls its parameters. Formals are renamed by what a definition
says and documentation by what a docstring line looks like, so the two have to be compared. -/

namespace ToolWrappers

namespace Definition

/-- The parameters of a definition line as they are written. -/
def written? (line : List Char) : Option (List WrittenParam) := do
  let rest := Text.trimStart (← Text.stripPrefix? "def".toList line)
  let (_, right) ← Text.cut? ['('] rest
  WrittenParam.readList? (← beforeLastClose? right)

theorem exists_written {line : List Char} {d : Definition} (h : read? line = some d) :
    ∃ written, written? line = some written ∧ d.params = WrittenParam.formals written := by
  unfold read? at h
  simp only [Option.bind_eq_bind, Option.bind_eq_some_iff] at h
  obtain ⟨rest, keyword, ⟨left, right⟩, opened, list, closed, h⟩ := h
  dsimp only at h
  split at h
  · cases h
  · obtain ⟨written, listed, same⟩ := Option.bind_eq_some_iff.mp h
    cases same
    refine ⟨written, ?_, rfl⟩
    simp only [written?, keyword, opened, closed, Option.bind_eq_bind, Option.bind_some, listed]

theorem isName_of_mem_written {line : List Char} {written : List WrittenParam}
    (h : written? line = some written) {p : WrittenParam} (member : p ∈ written) :
    Text.isName p.name.toList = true := by
  unfold written? at h
  simp only [Option.bind_eq_bind, Option.bind_eq_some_iff] at h
  obtain ⟨_, _, _, _, _, _, listed⟩ := h
  obtain ⟨_, _, read⟩ := WrittenParam.readList?_eq_some listed member
  exact WrittenParam.isName_of_read? read

end Definition

namespace WrittenParam

/-- The name of the one formal that a parameter becomes. -/
def formalName (p : WrittenParam) : String := if p.isShortInput then "input" else p.name

theorem exists_rename {p : WrittenParam} (other : p.name ≠ "callback") :
    ∃ q, p.rename = [q] ∧ q.name = p.formalName := by
  have ordinary : p.isCallback = false := by simp [isCallback, other]
  unfold rename formalName
  rw [ordinary]
  cases p.isShortInput with
  | true => exact ⟨_, rfl, rfl⟩
  | false => exact ⟨_, rfl, rfl⟩

theorem mem_dropReceiver {written : List WrittenParam} {p : WrittenParam} (member : p ∈ written)
    (other : p.name ≠ "self") : p ∈ dropReceiver written := by
  cases written with
  | nil => cases member
  | cons first rest =>
      rw [dropReceiver]
      split
      · rename_i same
        rcases List.mem_cons.mp member with rfl | later
        · exact absurd (congrArg WrittenParam.name same) other
        · exact (putInputFirst_perm rest).mem_iff.mpr later
      · exact member

end WrittenParam

namespace DocLine

/-- A docstring line about a parameter. -/
def about (name blanks text : List Char) : List Char := name ++ blanks ++ ("-- ".toList ++ text)

/-- The name that the documentation shows: the short input name is spelled out before one space. -/
def shownName (name blanks : List Char) : List Char :=
  if name = ['i'] ∧ blanks = [' '] then "input".toList else name

/-- What the documentation keeps of a text: a marker may stand in it once more. -/
def keptText (text : List Char) : List Char := spellPercent (Text.replaceAll "-- ".toList [] text)

section

variable {name blanks text : List Char}

theorem not_mem_of_isName {c : Char} (named : Text.isName name = true)
    (other : Text.isNameChar c = false) : c ∉ name :=
  Text.not_mem_of_named (Text.isName_iff.mp named).2 other

theorem not_mem_of_blank {c : Char} (blank : ∀ b ∈ blanks, Text.isBlank b = true)
    (other : Text.isBlank c = false) : c ∉ blanks := by
  intro member
  rw [blank c member] at other
  cases other

/-- A name ends before the first blank. -/
theorem takeWhile_append_blanks (named : Text.isName name = true) (filled : blanks ≠ [])
    (blank : ∀ b ∈ blanks, Text.isBlank b = true) (rest : List Char) :
    (name ++ blanks ++ rest).takeWhile Text.isNameChar = name := by
  obtain ⟨b, blanks, rfl⟩ := List.exists_cons_of_ne_nil filled
  have stop := Text.isNameChar_of_isBlank (blank b List.mem_cons_self)
  rw [List.append_assoc, List.takeWhile_append_of_pos (Text.isName_iff.mp named).2,
    List.cons_append, List.takeWhile_cons_of_neg (Bool.eq_false_iff.mp stop), List.append_nil]

theorem eq_of_append_blanks {name' blanks' rest rest' : List Char}
    (named : Text.isName name = true) (named' : Text.isName name' = true)
    (filled : blanks ≠ []) (filled' : blanks' ≠ [])
    (blank : ∀ b ∈ blanks, Text.isBlank b = true) (blank' : ∀ b ∈ blanks', Text.isBlank b = true)
    (same : name ++ blanks ++ rest = name' ++ blanks' ++ rest') :
    name = name' ∧ blanks ++ rest = blanks' ++ rest' := by
  have names : name = name' := by
    rw [← takeWhile_append_blanks named filled blank rest, same,
      takeWhile_append_blanks named' filled' blank']
  subst names
  rw [List.append_assoc, List.append_assoc] at same
  exact ⟨rfl, List.append_cancel_left same⟩

/-- The short name counts only if the marker follows it after one space. -/
theorem stripPrefix?_about (named : Text.isName name = true) (filled : blanks ≠ [])
    (blank : ∀ b ∈ blanks, Text.isBlank b = true) :
    Text.stripPrefix? "i --".toList (about name blanks text) =
      if name = ['i'] ∧ blanks = [' '] then some (' ' :: text) else none := by
  split
  · rename_i short
    obtain ⟨rfl, rfl⟩ := short
    rfl
  · rename_i long
    cases found : Text.stripPrefix? "i --".toList (about name blanks text) with
    | none => rfl
    | some rest =>
        have whole : name ++ blanks ++ ("-- ".toList ++ text) =
            ['i'] ++ [' '] ++ ("--".toList ++ rest) := by
          rw [← about, Text.stripPrefix?_eq_some_iff.mp found]
          rfl
        obtain ⟨letter, later⟩ := eq_of_append_blanks named (by decide) filled (by decide) blank
          (List.forall_mem_singleton.mpr rfl) whole
        -- Up to the first hyphen there are only the blanks.
        have dash : '-' ∉ blanks := not_mem_of_blank blank (by decide)
        have here : Text.cut? ['-'] (blanks ++ ("-- ".toList ++ text)) =
            some (blanks, "- ".toList ++ text) := Text.cut?_append_of_not_mem dash _
        have there : Text.cut? ['-'] ([' '] ++ ("--".toList ++ rest)) =
            some ([' '], '-' :: rest) := Text.cut?_append_of_not_mem (by decide) _
        rw [later, there] at here
        exact absurd ⟨letter, (Prod.mk.inj (Option.some.inj here)).1.symm⟩ long

theorem isName_shownName (named : Text.isName name = true) (blanks : List Char) :
    Text.isName (shownName name blanks) = true := by
  unfold shownName
  split
  · decide
  · exact named

theorem spellInput_about (named : Text.isName name = true) (filled : blanks ≠ [])
    (blank : ∀ b ∈ blanks, Text.isBlank b = true) :
    spellInput (about name blanks text) = about (shownName name blanks) blanks text := by
  rw [spellInput, stripPrefix?_about named filled blank, shownName]
  by_cases short : name = ['i'] ∧ blanks = [' ']
  · obtain ⟨rfl, rfl⟩ := short
    rfl
  · simp only [if_neg short]

/-- The marker is removed, and so is every other one in the text. -/
theorem paramText_about (named : Text.isName name = true) (filled : blanks ≠ [])
    (blank : ∀ b ∈ blanks, Text.isBlank b = true) :
    paramText (about name blanks text) = shownName name blanks ++ blanks ++ keptText text := by
  have shown := isName_shownName named blanks
  have clean (c : Char) (noName : Text.isNameChar c = false) (noBlank : Text.isBlank c = false) :
      c ∉ shownName name blanks ++ blanks := by
    rw [List.mem_append, not_or]
    exact ⟨not_mem_of_isName shown noName, not_mem_of_blank blank noBlank⟩
  have first : Text.cut? "-- ".toList (about (shownName name blanks) blanks text) =
      some (shownName name blanks ++ blanks, text) :=
    Text.cut?_append_of_not_mem (clean '-' (by decide) (by decide)) text
  rw [paramText_eq, spellInput_about named filled blank, Text.replaceAll_of_cut? (by decide) first,
    List.append_nil, spellPercent_append, spellPercent_of_not_mem (clean '%' (by decide) (by decide)),
    keptText]

/-- What a line about a parameter adds to the documentation. -/
theorem param?_about (named : Text.isName name = true) (filled : blanks ≠ [])
    (blank : ∀ b ∈ blanks, Text.isBlank b = true)
    (silent : isDefinition (about name blanks text) = false) :
    (ofLine (about name blanks text)).param? =
      if Text.startsWith "callback".toList name then none
      else some (.ofList (shownName name blanks ++ blanks ++ keptText text)) := by
  have marked : Text.contains "--".toList (about name blanks text) = true :=
    Text.contains_iff.mpr ⟨name ++ blanks, ' ' :: text, by simp [about]⟩
  have lead : Text.startsWith "callback".toList (about name blanks text) =
      Text.startsWith "callback".toList name := by
    obtain ⟨b, blanks, rfl⟩ := List.exists_cons_of_ne_nil filled
    have letters : "callback".toList.all (!Text.isBlank ·) = true := by decide
    have other : b ∉ "callback".toList := by
      intro member
      have letter := List.all_eq_true.mp letters b member
      rw [blank b List.mem_cons_self] at letter
      cases letter
    rw [about, List.append_assoc, List.cons_append, Text.startsWith_append_cons other]
  have plain : (about name blanks text).head? ≠ some '"' := by
    have quote : '"' ∉ name := not_mem_of_isName named (by decide)
    obtain ⟨first, name, rfl⟩ := List.exists_cons_of_ne_nil (Text.isName_iff.mp named).1
    intro same
    cases same
    exact quote List.mem_cons_self
  rw [param?_ofLine plain silent, marked, lead, paramText_about named filled blank]
  cases Text.startsWith "callback".toList name <;> rfl

end

end DocLine

/-- The documentation of a parameter follows its formal: the line is not taken for one about the
callback, the short name is spelled out exactly if the parameter is renamed, and the text holds no
marker of its own. -/
structure WrittenParam.InStep (p : WrittenParam) (blanks text : List Char) : Prop where
  told : Text.startsWith "callback".toList p.name.toList = false
  spelled : p.name = "i" → (blanks = [' '] ↔ p.isShortInput = true)
  whole : Text.contains "-- ".toList text = false

namespace DocLine

variable {p : WrittenParam} {blanks text : List Char}

theorem shownName_eq_formalName_iff :
    shownName p.name.toList blanks = p.formalName.toList ↔
      (p.name = "i" → (blanks = [' '] ↔ p.isShortInput = true)) := by
  by_cases short : p.name = "i"
  · unfold shownName WrittenParam.formalName
    cases renamed : p.isShortInput with
    | true => by_cases space : blanks = [' '] <;> simp [short, space]
    | false => by_cases space : blanks = [' '] <;> simp [short, space]
  · have letters : p.name.toList ≠ ['i'] := fun same => short (String.toList_inj.mp same)
    have kept : p.isShortInput = false := by simp [WrittenParam.isShortInput, short]
    simp [shownName, WrittenParam.formalName, short, letters, kept]

theorem count_hyphen_keptText (h : Text.contains "-- ".toList text = true) :
    (keptText text).count '-' < (spellPercent text).count '-' := by
  obtain ⟨⟨before, after⟩, found⟩ := Option.isSome_iff_exists.mp h
  have fewer := (Text.sublist_replaceAll_nil "-- ".toList after).count_le '-'
  rw [keptText, count_hyphen_spellPercent, count_hyphen_spellPercent,
    Text.replaceAll_of_cut? (by decide) found, Text.eq_of_cut? found]
  simp only [List.append_nil, List.count_append]
  have marker : "-- ".toList.count '-' = 2 := by decide
  omega

end DocLine

namespace Tool

/-- The parameters of the definition that a tool was read from, as they are written there. -/
def writtenParams? (lines : List (List Char)) (t : Tool) : Option (List WrittenParam) :=
  lines[t.line - 1]?.bind fun line => Definition.written? (Text.trim line)

/-- The lines of the docstring that a tool was read from. -/
def docstringLines (lines : List (List Char)) (t : Tool) : List (List Char) :=
  Docstring.openLines (lines.drop t.line)

end Tool

/-- What a tool has from its definition and from its docstring. -/
theorem Catalogue.exists_sources {settings : Settings} {text : String} {c : Catalogue}
    (h : read settings text = .ok c) {t : Tool} (member : t ∈ c.tools) :
    (∃ written, t.writtenParams? (Text.lines text.toList) = some written ∧
        t.params = WrittenParam.formals written ∧
        ∀ p ∈ written, Text.isName p.name.toList = true) ∧
      t.doc.params = (t.docstringLines (Text.lines text.toList)).filterMap
        (fun line => (DocLine.ofLine line).param?) ∧
      ∀ line ∈ t.docstringLines (Text.lines text.toList), DocLine.isDefinition line = false := by
  obtain ⟨before, line, rest, length, split, found⟩ := exists_readTool_at h member
  obtain ⟨d, doc, accepted, scanned, rfl⟩ := Item.readTool_eq_ok found
  obtain ⟨written, listed, params⟩ := Definition.exists_written accepted
  have definition : (Text.lines text.toList)[1 + before.length - 1]? = some line := by
    rw [split, Nat.add_sub_cancel_left, List.getElem?_append_right (Nat.le_refl _), Nat.sub_self,
      List.getElem?_cons_zero]
  have after : (Text.lines text.toList).drop (1 + before.length) = rest := by
    rw [split, Nat.add_comm, ← List.drop_drop, List.drop_left, List.drop_one, List.tail_cons]
  refine ⟨⟨written, ?_, params, fun p => Definition.isName_of_mem_written listed⟩, ?_⟩
  · rw [Tool.writtenParams?, definition]
    exact listed
  · rw [Tool.docstringLines, after]
    exact Docstring.openLines_of_scan? scanned

namespace Roxygen

/-- What a line says about a parameter. -/
def paramOf? (line : String) : Option String :=
  (Text.stripPrefix? "#' @param ".toList line.toList).map .ofList

def entries (t : Tool) (sample : Option String) : List String := (lines t sample).filterMap paramOf?

theorem paramOf?_mark_param (entry : String) : paramOf? (mark ("@param " ++ entry)) = some entry := by
  have shape : (mark ("@param " ++ entry)).toList = "#' @param ".toList ++ entry.toList := by
    simp [mark, String.toList_append]
  rw [paramOf?, shape, Text.stripPrefix?_append, Option.map_some, String.ofList_toList]

theorem paramOf?_mark {text : String} (plain : text.toList.head? ≠ some '@') :
    paramOf? (mark text) = none := by
  rw [paramOf?, mark, String.toList_append]
  cases shape : text.toList with
  | nil => rfl
  | cons c rest =>
      have other : ¬ '@' = c := by
        rintro rfl
        exact plain (by rw [shape]; rfl)
      change Option.map _ (if '@' = c then _ else none) = none
      rw [if_neg other, Option.map_none]

/-- What a block says about parameters comes from the docstring or is about the implicit options,
as long as the summary does not look like an entry. -/
theorem entries_none {t : Tool} (h : t.SingleLine)
    (plain : ∀ summary ∈ t.doc.summary, summary.toList.head? ≠ some '@') :
    entries t none = t.doc.params ++ implicitParams := by
  have title : paramOf? (mark t.title) = none := by
    refine paramOf?_mark fun first => ?_
    exact h.not_mem_title (x := '@') (by decide) (by decide) (by decide) (by decide)
      (List.mem_of_head? first)
  have last : [emptyLine, mark "@return Returns the tool text outputs.", mark "@export"].filterMap
      paramOf? = [] := by decide +kernel
  have params : ((t.doc.params ++ implicitParams).map fun p => mark ("@param " ++ p)).filterMap
      paramOf? = t.doc.params ++ implicitParams := by
    rw [List.filterMap_map]
    exact (List.filterMap_congr fun entry _ => paramOf?_mark_param entry).trans List.filterMap_some
  rw [entries, lines]
  simp only [List.filterMap_append, params, last, List.filterMap_cons_none title, List.append_nil]
  cases written : t.doc.summary with
  | none => rfl
  | some summary =>
      dsimp only
      rw [List.filterMap_cons_none (paramOf?_mark (plain summary written))]
      rfl

theorem mem_entries_of_mem_params {t : Tool} {entry : String} (h : entry ∈ t.doc.params)
    (sample : Option String) : entry ∈ entries t sample := by
  have listed : mark ("@param " ++ entry) ∈
      (t.doc.params ++ implicitParams).map fun p => mark ("@param " ++ p) :=
    List.mem_map_of_mem (List.mem_append_left _ h)
  refine List.mem_filterMap.mpr ⟨_, ?_, paramOf?_mark_param entry⟩
  simp only [lines, List.mem_append]
  exact .inl (.inl (.inr listed))

/-- The last entries are about the implicit options. -/
theorem name_implicitParams :
    implicitParams.map (fun entry => entry.toList.takeWhile Text.isNameChar) =
      implicitOptions.map (·.name.toList) := by
  decide +kernel

end Roxygen

/-- An entry of the documentation that gives a formal its text. -/
def WrittenParam.DocumentedAs (p : WrittenParam) (text : List Char) (entry : String) : Prop :=
  ∃ blanks, blanks ≠ [] ∧ (∀ b ∈ blanks, Text.isBlank b = true) ∧
    entry.toList = p.formalName.toList ++ blanks ++ DocLine.spellPercent text

/-- The test for an entry: what stands between the name and the text is blank. -/
def WrittenParam.isDocumentedAs (p : WrittenParam) (text : List Char) (entry : String) : Bool :=
  ((Text.stripPrefix? p.formalName.toList entry.toList).bind
    (Text.stripSuffix? (DocLine.spellPercent text))).any fun blanks =>
      !blanks.isEmpty && blanks.all Text.isBlank

theorem WrittenParam.isDocumentedAs_iff {p : WrittenParam} {text : List Char} {entry : String} :
    p.isDocumentedAs text entry = true ↔ p.DocumentedAs text entry := by
  simp only [isDocumentedAs, DocumentedAs, Option.any_eq_true, Option.bind_eq_some_iff,
    Text.stripPrefix?_eq_some_iff, Text.stripSuffix?_eq_some_iff, Bool.and_eq_true,
    Bool.not_eq_true', List.isEmpty_eq_false_iff, List.all_eq_true]
  constructor
  · rintro ⟨blanks, ⟨rest, whole, rfl⟩, filled, blank⟩
    exact ⟨blanks, filled, blank, by rw [whole, List.append_assoc]⟩
  · rintro ⟨blanks, filled, blank, whole⟩
    exact ⟨blanks, ⟨_, by rw [whole, List.append_assoc], rfl⟩, filled, blank⟩

instance (p : WrittenParam) (text : List Char) (entry : String) :
    Decidable (p.DocumentedAs text entry) :=
  decidable_of_iff _ WrittenParam.isDocumentedAs_iff

/-- What a docstring line about a parameter comes to: the documentation names the formal and gives
the text if the two are in step, and not by this line otherwise. -/
structure Tool.Documents (t : Tool) (p : WrittenParam) (blanks text : List Char) : Prop where
  formal : ∃ q ∈ t.params, p.rename = [q] ∧ q.name = p.formalName
  shown : p.InStep blanks text → ∀ sample, ∃ entry ∈ Roxygen.entries t sample,
    p.DocumentedAs text entry
  astray : ¬ p.InStep blanks text →
    ∀ entry ∈ (DocLine.ofLine (DocLine.about p.name.toList blanks text)).param?,
      ¬ p.DocumentedAs text entry

namespace WrittenParam

variable {p : WrittenParam} {blanks text : List Char}

theorem isName_formalName (named : Text.isName p.name.toList = true) :
    Text.isName p.formalName.toList = true := by
  unfold formalName
  split
  · decide
  · exact named

/-- A line in step adds the formal, its blanks and the text. -/
theorem InStep.param?_about (h : p.InStep blanks text) (named : Text.isName p.name.toList = true)
    (filled : blanks ≠ []) (blank : ∀ b ∈ blanks, Text.isBlank b = true)
    (silent : DocLine.isDefinition (DocLine.about p.name.toList blanks text) = false) :
    (DocLine.ofLine (DocLine.about p.name.toList blanks text)).param? =
      some (.ofList (p.formalName.toList ++ blanks ++ DocLine.spellPercent text)) := by
  rw [DocLine.param?_about named filled blank silent, h.told, if_neg Bool.false_ne_true,
    DocLine.shownName_eq_formalName_iff.mpr h.spelled, DocLine.keptText,
    Text.replaceAll_of_not_contains h.whole]

/-- A line gives the formal its text only if it is in step. -/
theorem inStep_of_documentedAs (named : Text.isName p.name.toList = true) (filled : blanks ≠ [])
    (blank : ∀ b ∈ blanks, Text.isBlank b = true)
    (silent : DocLine.isDefinition (DocLine.about p.name.toList blanks text) = false)
    {entry : String}
    (added : (DocLine.ofLine (DocLine.about p.name.toList blanks text)).param? = some entry)
    (documented : p.DocumentedAs text entry) : p.InStep blanks text := by
  rw [DocLine.param?_about named filled blank silent] at added
  obtain ⟨spaces, filled', blank', shape⟩ := documented
  cases told : Text.startsWith "callback".toList p.name.toList with
  | true =>
      rw [told] at added
      cases added
  | false =>
      rw [told, if_neg Bool.false_ne_true] at added
      cases added
      rw [String.toList_ofList] at shape
      obtain ⟨names, rest⟩ := DocLine.eq_of_append_blanks (DocLine.isName_shownName named blanks)
        (isName_formalName named) filled filled' blank blank' shape
      refine ⟨told, DocLine.shownName_eq_formalName_iff.mp names, ?_⟩
      -- A marker in the text would leave fewer hyphens than the whole text has.
      cases marked : Text.contains "-- ".toList text with
      | false => rfl
      | true =>
          have fewer := DocLine.count_hyphen_keptText marked
          have counts := congrArg (List.count '-') rest
          rw [List.count_append, List.count_append,
            List.count_eq_zero.mpr (DocLine.not_mem_of_blank blank (by decide)),
            List.count_eq_zero.mpr (DocLine.not_mem_of_blank blank' (by decide))] at counts
          omega

end WrittenParam

/-- Every parameter but the receiver and the callback becomes one formal, and every docstring line
about it gives this formal its text if it is in step with the definition, and only then. -/
theorem documentation_names_formals {settings : Settings} {text : String} {c : Catalogue}
    (h : Catalogue.read settings text = .ok c) {t : Tool} (member : t ∈ c.tools) :
    ∃ written, t.writtenParams? (Text.lines text.toList) = some written ∧
      t.params = WrittenParam.formals written ∧
      ∀ p ∈ written, p.name ≠ "self" → p.name ≠ "callback" →
        ∀ blanks told, blanks ≠ [] → (∀ b ∈ blanks, Text.isBlank b = true) →
          DocLine.about p.name.toList blanks told ∈ t.docstringLines (Text.lines text.toList) →
          t.Documents p blanks told := by
  obtain ⟨⟨written, listed, params, named⟩, captured, plain⟩ := Catalogue.exists_sources h member
  refine ⟨written, listed, params, ?_⟩
  intro p inside noReceiver noCallback blanks told filled blank line
  have silent := plain _ line
  constructor
  case formal =>
    obtain ⟨q, renamed, same⟩ := WrittenParam.exists_rename noCallback
    refine ⟨q, ?_, renamed, same⟩
    rw [params, WrittenParam.formals]
    refine List.mem_flatMap.mpr ⟨p, WrittenParam.mem_dropReceiver inside noReceiver, ?_⟩
    rw [renamed]
    exact List.mem_singleton_self q
  case shown =>
    intro inStep sample
    have added := inStep.param?_about (named p inside) filled blank silent
    refine ⟨_, Roxygen.mem_entries_of_mem_params ?_ sample, blanks, filled, blank,
      String.toList_ofList⟩
    rw [captured]
    exact List.mem_filterMap.mpr ⟨_, line, added⟩
  case astray =>
    intro out entry added documented
    exact out (WrittenParam.inStep_of_documentedAs (named p inside) filled blank silent added documented)

/-- A tool whose documentation names its formals. -/
def halfLines : List String :=
  ["# Data Tools #", "def f(self, i, callback=None):", "\"\"\"Reads.", "i -- Half (50%).", "\"\"\""]

def halfTool : Tool where
  name := "f"
  command := "f"
  line := 2
  params := ⟨"input", none⟩ :: implicitOptions
  doc := { summary := some "Reads.", params := ["input Half (50 percent)."] }

theorem single_halfLines : ∀ line ∈ halfLines, Text.IsLine line := by decide +kernel

theorem read_halfLines : Catalogue.read { skipLines := 0 } (Text.unlines halfLines) =
    .ok ⟨[⟨"# Data Tools #", "data_tools.R", false, [halfTool]⟩]⟩ := by
  rw [Catalogue.read_unlines _ single_halfLines]
  decide +kernel

theorem documentation_names_formals_of_halfTool :
    ∃ c, Catalogue.read { skipLines := 0 } (Text.unlines halfLines) = .ok c ∧ c.tools = [halfTool] ∧
      halfTool.Documents ⟨"i", none⟩ [' '] "Half (50%).".toList ∧
      ∃ entry ∈ Roxygen.entries halfTool none,
        WrittenParam.DocumentedAs ⟨"i", none⟩ "Half (50%).".toList entry := by
  obtain ⟨written, listed, -, documents⟩ :=
    documentation_names_formals read_halfLines (t := halfTool) (List.mem_singleton_self _)
  rw [Text.lines_unlines single_halfLines] at listed documents
  have known : halfTool.writtenParams? (halfLines.map String.toList) =
      some [⟨"self", none⟩, ⟨"i", none⟩, ⟨"callback", some "None"⟩] := by decide +kernel
  obtain rfl := Option.some.inj (listed.symm.trans known)
  have documented := documents ⟨"i", none⟩ (by decide) (by decide) (by decide) [' ']
    "Half (50%).".toList (by decide) (List.all_eq_true.mp (by decide)) (by decide +kernel)
  refine ⟨_, read_halfLines, rfl, documented, documented.shown ⟨?_, ?_, ?_⟩ none⟩
  · decide
  · decide
  · decide +kernel

/-- A docstring line is about a parameter whose formal gets this text from no line of the
documentation. -/
structure Tool.LeavesOut (lines : List (List Char)) (t : Tool) (p : WrittenParam)
    (blanks text : String) : Prop where
  written : ∃ written ∈ t.writtenParams? lines, p ∈ written
  told : DocLine.about p.name.toList blanks.toList text.toList ∈ t.docstringLines lines
  missing : ¬ ∃ entry ∈ Roxygen.entries t none, p.DocumentedAs text.toList entry

theorem Roxygen.not_documentedAs_entries {t : Tool} {p : WrittenParam} {text : List Char}
    (plain : t.SingleLine ∧ ∀ summary ∈ t.doc.summary, summary.toList.head? ≠ some '@')
    (named : Text.isName p.name.toList = true)
    (other : p.formalName.toList ∉ implicitOptions.map (·.name.toList))
    (missing : ∀ entry ∈ t.doc.params, ¬ p.DocumentedAs text entry) :
    ¬ ∃ entry ∈ entries t none, p.DocumentedAs text entry := by
  rintro ⟨entry, member, documented⟩
  rw [entries_none plain.1 plain.2] at member
  rcases List.mem_append.mp member with captured | implicit
  · exact missing entry captured documented
  · obtain ⟨blanks, filled, blank, shape⟩ := documented
    apply other
    rw [← name_implicitParams]
    refine List.mem_map.mpr ⟨entry, implicit, ?_⟩
    rw [shape, DocLine.takeWhile_append_blanks (WrittenParam.isName_formalName named) filled blank]

/-- Tools whose documentation does not name their formals, or not with the whole text. -/
def astrayLines : List String :=
  ["# Data Tools #", "def f(self, zone, i=3, callback_x=1, callback=None):", "\"\"\"Reads.",
    "zone -- From 1 -- 9.", "i -- Count.", "callback_x -- Position.", "\"\"\"",
    "def g(self, i):", "\"\"\"Reads.", "i  -- Raster.", "\"\"\""]

def astrayTool : Tool where
  name := "f"
  command := "f"
  line := 2
  params := [⟨"zone", none⟩, ⟨"i", some (.literal "3")⟩, ⟨"callback_x", some (.literal "1")⟩] ++
    implicitOptions
  doc := { summary := some "Reads.", params := ["zone From 1 9.", "input Count."] }

def widelySpacedTool : Tool where
  name := "g"
  command := "g"
  line := 8
  params := [⟨"input", none⟩]
  doc := { summary := some "Reads.", params := ["i  Raster."] }

theorem documentation_astray :
    Catalogue.read { skipLines := 0 } (Text.unlines astrayLines) =
        .ok ⟨[⟨"# Data Tools #", "data_tools.R", false, [astrayTool, widelySpacedTool]⟩]⟩ ∧
      astrayTool.LeavesOut (astrayLines.map String.toList) ⟨"zone", none⟩ " " "From 1 -- 9." ∧
      astrayTool.LeavesOut (astrayLines.map String.toList) ⟨"i", some "3"⟩ " " "Count." ∧
      astrayTool.LeavesOut (astrayLines.map String.toList) ⟨"callback_x", some "1"⟩ " " "Position." ∧
      widelySpacedTool.LeavesOut (astrayLines.map String.toList) ⟨"i", none⟩ "  " "Raster." := by
  have accepted : Catalogue.read { skipLines := 0 } (Text.unlines astrayLines) =
      .ok ⟨[⟨"# Data Tools #", "data_tools.R", false, [astrayTool, widelySpacedTool]⟩]⟩ := by
    rw [Catalogue.read_unlines _ (by decide +kernel)]
    decide +kernel
  have written : astrayTool.writtenParams? (astrayLines.map String.toList) =
      some [⟨"self", none⟩, ⟨"zone", none⟩, ⟨"i", some "3"⟩, ⟨"callback_x", some "1"⟩,
        ⟨"callback", some "None"⟩] := by decide +kernel
  have told : astrayTool.docstringLines (astrayLines.map String.toList) =
      ["\"\"\"Reads.".toList, "zone -- From 1 -- 9.".toList, "i -- Count.".toList,
        "callback_x -- Position.".toList] := by decide +kernel
  have plain : astrayTool.SingleLine ∧
      ∀ summary ∈ astrayTool.doc.summary, summary.toList.head? ≠ some '@' := by
    refine ⟨Catalogue.singleLine_of_mem_tools accepted List.mem_cons_self, ?_⟩
    decide
  refine ⟨accepted, ⟨⟨_, written, by decide⟩, ?_, ?_⟩, ⟨⟨_, written, by decide⟩, ?_, ?_⟩,
    ⟨⟨_, written, by decide⟩, ?_, ?_⟩, ⟨?_, ?_, ?_⟩⟩
  · rw [told]
    decide
  · exact Roxygen.not_documentedAs_entries plain (by decide) (by decide) (by decide +kernel)
  · rw [told]
    decide
  · exact Roxygen.not_documentedAs_entries plain (by decide) (by decide) (by decide +kernel)
  · rw [told]
    decide
  · exact Roxygen.not_documentedAs_entries plain (by decide) (by decide) (by decide +kernel)
  · exact ⟨[⟨"self", none⟩, ⟨"i", none⟩], by decide +kernel, by decide⟩
  · decide +kernel
  · refine Roxygen.not_documentedAs_entries
      ⟨Catalogue.singleLine_of_mem_tools accepted (List.mem_cons_of_mem _ List.mem_cons_self), ?_⟩
      (by decide) (by decide) (by decide +kernel)
    decide

end ToolWrappers
