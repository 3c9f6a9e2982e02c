import Mathlib.Data.List.TakeWhile
import ToolWrappers.Proofs.DocumentedNames
import ToolWrappers.Proofs.Rewriting
import ToolWrappers.Proofs.TopLevelCommas
import ToolWrappers.Proofs.Trimming

/-! A definition line that is printed from a name and records is read back. Blanks may stand around
everything that is printed, annotations and defaults are texts with commas, brackets and strings of their
own, and the formals are those of a reference rewrite of the records. -/

namespace ToolWrappers

namespace Text

theorem Spaced.not_mem_chars {s : Spaced} {c : Char} (filled : isBlank c = false)
    (text : c ∉ s.text) : c ∉ s.chars := by
  simp [Spaced.chars, text, DocLine.not_mem_of_blank s.front_blank filled,
    DocLine.not_mem_of_blank s.back_blank filled]

theorem Spaced.trimStart_chars_append (s : Spaced) (named : isName s.text = true)
    (rest : List Char) : trimStart (s.chars ++ rest) = s.text ++ s.back ++ rest := by
  obtain ⟨c, text, shape⟩ := List.exists_cons_of_ne_nil (isName_iff.mp named).1
  have solid : isBlank c = false := by
    apply isBlank_of_isName named c
    rw [shape]
    exact List.mem_cons_self
  rw [Spaced.chars, List.append_assoc, List.append_assoc, trimStart_append s.front_blank,
    List.append_assoc, shape]
  exact trimStart_cons solid _

theorem forall_ne_of_not_mem {c : Char} {s : List Char} (absent : c ∉ s) :
    ∀ x ∈ s, decide (x ≠ c) = true :=
  fun _ member => decide_eq_true (ne_of_mem_of_not_mem member absent)

theorem cut?_of_not_mem {c : Char} {s : List Char} (absent : c ∉ s) : cut? [c] s = none := by
  cases cut : cut? [c] s with
  | none => rfl
  | some sides =>
      have shape := eq_of_cut? cut
      rw [shape] at absent
      exact absurd (by simp) absent

end Text

namespace Nesting

/-- The characters that open, close or separate. -/
def specialChars : List Char := ['\'', '"', '(', '[', '\x7b', ')', ']', '\x7d', ',']

theorem advance_top {c : Char} (plain : c ∉ specialChars) : top.advance c = some top := by
  simp only [specialChars, List.mem_cons, List.not_mem_nil, or_false, not_or] at plain
  simp [advance, step, top, isQuote, isOpening, isClosing, plain]

variable {s t : List Char}

theorem SelfContained.append (one : SelfContained s) (other : SelfContained t) :
    SelfContained (s ++ t) := by
  rw [selfContained_iff] at one other ⊢
  rw [scan, List.foldlM_append, ← scan, one]
  exact other

theorem selfContained_of_plain (plain : ∀ c ∈ s, c ∉ specialChars) : SelfContained s := by
  rw [selfContained_iff]
  induction s with
  | nil => rfl
  | cons c s ih =>
      obtain ⟨here, later⟩ := List.forall_mem_cons.mp plain
      rw [scan_cons, advance_top here]
      exact ih later

theorem not_special_of_isBlank {c : Char} (blank : Text.isBlank c = true) : c ∉ specialChars := by
  have special : specialChars.all (fun x => !Text.isBlank x) = true := by decide
  intro inside
  have filled : Text.isBlank c = false := by simpa using List.all_eq_true.mp special c inside
  rw [filled] at blank
  cases blank

theorem selfContained_of_blank (blank : ∀ c ∈ s, Text.isBlank c = true) : SelfContained s :=
  selfContained_of_plain fun c member => not_special_of_isBlank (blank c member)

theorem selfContained_of_isName (named : Text.isName s = true) : SelfContained s := by
  have special : specialChars.all (fun x => !Text.isNameChar x) = true := by decide +kernel
  refine selfContained_of_plain fun c member inside => ?_
  have unnamed : Text.isNameChar c = false := by simpa using List.all_eq_true.mp special c inside
  exact DocLine.not_mem_of_isName named unnamed member

/-- Blanks around a text do not separate it. -/
theorem SelfContained.spaced {s : Text.Spaced} (text : SelfContained s.text) :
    SelfContained s.chars :=
  ((selfContained_of_blank s.front_blank).append text).append (selfContained_of_blank s.back_blank)

end Nesting

namespace WrittenParam

/-- The name that is written before a default. -/
def nameIn (left : List Char) : List Char := Text.trim (left.takeWhile (· ≠ ':'))

variable {token left front back : List Char}

theorem read?_of_not_mem (absent : '=' ∉ token) :
    read? token = if Text.isName (nameIn token) then some ⟨.ofList (nameIn token), none⟩ else none := by
  rw [read?, Text.cut?_of_not_mem absent]
  rfl

theorem read?_append_equals (absent : '=' ∉ left) (right : List Char) :
    read? (left ++ '=' :: right) =
      if Text.isName (nameIn left) then
        some ⟨.ofList (nameIn left), some (.ofList (Text.trim right))⟩
      else none := by
  have cut : Text.cut? ['='] (left ++ '=' :: right) = some (left, right) :=
    Text.cut?_append_of_not_mem absent right
  rw [read?, cut]
  rfl

theorem nameIn_of_not_mem (absent : ':' ∉ left) : nameIn left = Text.trim left := by
  rw [nameIn, List.takeWhile_eq_self_iff.mpr (Text.forall_ne_of_not_mem absent)]

theorem nameIn_append_colon (absent : ':' ∉ left) (rest : List Char) :
    nameIn (left ++ ':' :: rest) = Text.trim left := by
  rw [nameIn, List.takeWhile_append_of_pos (Text.forall_ne_of_not_mem absent),
    List.takeWhile_cons_of_neg (by decide), List.append_nil]

theorem nameIn_append (before : ∀ c ∈ front, Text.isBlank c = true)
    (after : ∀ c ∈ back, Text.isBlank c = true) (s : List Char) :
    nameIn (front ++ s ++ back) = nameIn s := by
  have front_clear : ':' ∉ front := DocLine.not_mem_of_blank before (by decide)
  have back_clear : ':' ∉ back := DocLine.not_mem_of_blank after (by decide)
  by_cases annotated : ':' ∈ s
  · obtain ⟨lead, rest, rfl, absent⟩ := List.eq_append_cons_of_mem annotated
    have shape : front ++ (lead ++ ':' :: rest) ++ back = (front ++ lead) ++ ':' :: (rest ++ back) := by
      simp
    rw [shape, nameIn_append_colon (by simp [front_clear, absent]), nameIn_append_colon absent]
    exact Text.trim_blanks_append before lead
  · rw [nameIn_of_not_mem (by simp [front_clear, annotated, back_clear]),
      nameIn_of_not_mem annotated, Text.trim_append before after]

/-- Blanks around a parameter are not part of it. -/
theorem read?_append (before : ∀ c ∈ front, Text.isBlank c = true)
    (after : ∀ c ∈ back, Text.isBlank c = true) (s : List Char) :
    read? (front ++ s ++ back) = read? s := by
  have front_clear : '=' ∉ front := DocLine.not_mem_of_blank before (by decide)
  have back_clear : '=' ∉ back := DocLine.not_mem_of_blank after (by decide)
  by_cases defaulted : '=' ∈ s
  · obtain ⟨lead, rest, rfl, absent⟩ := List.eq_append_cons_of_mem defaulted
    have shape : front ++ (lead ++ '=' :: rest) ++ back = (front ++ lead) ++ '=' :: (rest ++ back) := by
      simp
    have name : nameIn (front ++ lead) = nameIn lead := by
      have whole := nameIn_append before (List.forall_mem_nil _) lead
      rwa [List.append_nil] at whole
    rw [shape, read?_append_equals (by simp [front_clear, absent]), read?_append_equals absent, name,
      Text.trim_append_blanks after]
  · rw [read?_of_not_mem (by simp [front_clear, defaulted, back_clear]), read?_of_not_mem defaulted,
      nameIn_append before after]

theorem read?_trim (token : List Char) : read? (Text.trim token) = read? token := by
  obtain ⟨s, text, chars⟩ := Text.exists_spaced token
  rw [← text, ← chars, Text.Spaced.chars, read?_append s.front_blank s.back_blank]

end WrittenParam

/-- A parameter as it is printed: a name, and after it an annotation and a default if there are any. -/
structure PrintedParam where
  name : Text.Spaced
  annotation? : Option Text.Spaced
  default? : Option Text.Spaced
  named : Text.isName name.text = true
  annotation_contained : ∀ a ∈ annotation?, Nesting.SelfContained a.text
  annotation_plain : ∀ a ∈ annotation?, '=' ∉ a.text
  default_contained : ∀ d ∈ default?, Nesting.SelfContained d.text
  default_trimmed : ∀ d ∈ default?, Text.trim d.text = d.text

namespace PrintedParam

variable (r : PrintedParam)

/-- What is printed before the default. -/
def left : List Char := r.name.chars ++ r.annotation?.elim [] fun a => ':' :: a.chars

def chars : List Char := r.left ++ r.default?.elim [] fun d => '=' :: d.chars

def written : WrittenParam := ⟨.ofList r.name.text, r.default?.map fun d => .ofList d.text⟩

theorem not_mem_name {c : Char} (unnamed : Text.isNameChar c = false)
    (filled : Text.isBlank c = false) : c ∉ r.name.chars :=
  Text.Spaced.not_mem_chars filled (DocLine.not_mem_of_isName r.named unnamed)

theorem equals_not_mem_left : '=' ∉ r.left := by
  have name : '=' ∉ r.name.chars := r.not_mem_name (by decide) (by decide)
  rw [left]
  cases annotated : r.annotation? with
  | none => simpa using name
  | some a =>
      have annotation : '=' ∉ a.chars :=
        Text.Spaced.not_mem_chars (by decide) (r.annotation_plain a annotated)
      simp [name, annotation]

theorem nameIn_left : WrittenParam.nameIn r.left = r.name.text := by
  have name : ':' ∉ r.name.chars := r.not_mem_name (by decide) (by decide)
  have trimmed : Text.trim r.name.chars = r.name.text := by
    rw [r.name.trim_chars, Text.trim_of_forall (Text.isBlank_of_isName r.named)]
  rw [left]
  cases r.annotation? with
  | none => rw [Option.elim_none, List.append_nil, WrittenParam.nameIn_of_not_mem name, trimmed]
  | some a => rw [Option.elim_some, WrittenParam.nameIn_append_colon name, trimmed]

theorem read?_chars : WrittenParam.read? r.chars = some r.written := by
  rw [chars, written]
  cases defaulted : r.default? with
  | none =>
      rw [Option.elim_none, List.append_nil, WrittenParam.read?_of_not_mem r.equals_not_mem_left,
        r.nameIn_left, if_pos r.named, Option.map_none]
  | some d =>
      rw [Option.elim_some, WrittenParam.read?_append_equals r.equals_not_mem_left, r.nameIn_left,
        if_pos r.named, d.trim_chars, r.default_trimmed d defaulted, Option.map_some]

theorem selfContained_chars : Nesting.SelfContained r.chars := by
  have name : Nesting.SelfContained r.name.chars :=
    (Nesting.selfContained_of_isName r.named).spaced
  have mark {c : Char} (plain : c ∉ Nesting.specialChars) : Nesting.SelfContained [c] :=
    Nesting.selfContained_of_plain (List.forall_mem_singleton.mpr plain)
  have annotation : Nesting.SelfContained (r.annotation?.elim [] fun a => ':' :: a.chars) := by
    cases annotated : r.annotation? with
    | none => exact Nesting.selfContained_of_plain nofun
    | some a => exact (mark (by decide)).append (r.annotation_contained a annotated).spaced
  have default : Nesting.SelfContained (r.default?.elim [] fun d => '=' :: d.chars) := by
    cases defaulted : r.default? with
    | none => exact Nesting.selfContained_of_plain nofun
    | some d => exact (mark (by decide)).append (r.default_contained d defaulted).spaced
  exact (name.append annotation).append default

end PrintedParam

/-- A definition line as it is printed. -/
structure PrintedDefinition where
  name : Text.Spaced
  params : List PrintedParam
  suffix : List Char
  named : Text.isName name.text = true
  suffix_open : ')' ∉ suffix

namespace PrintedDefinition

def list (p : PrintedDefinition) : List Char := [','].intercalate (p.params.map PrintedParam.chars)

def line (p : PrintedDefinition) : List Char :=
  "def".toList ++ (p.name.chars ++ '(' :: (p.list ++ ')' :: p.suffix))

/-- The parameters that are printed, without their annotations. -/
def written (p : PrintedDefinition) : List WrittenParam := p.params.map PrintedParam.written

theorem tokens?_list (p : PrintedDefinition) :
    WrittenParam.tokens? p.list = some (p.params.map fun r => Text.trim r.chars) := by
  have filled (r : PrintedParam) : Text.trim r.chars ≠ [] := by
    intro empty
    have read := WrittenParam.read?_trim r.chars
    rw [empty, r.read?_chars] at read
    cases read
  rw [WrittenParam.tokens?, list]
  cases p.params with
  -- The list of no parameters has one piece, and that is blank.
  | nil => rfl
  | cons first others =>
      rw [Nesting.split?_intercalate (by simp)
        (List.forall_mem_map.mpr fun r _ => r.selfContained_chars), Option.map_some, List.map_map]
      refine congrArg some (List.filter_eq_self.mpr ?_)
      refine List.forall_mem_map.mpr fun r _ => ?_
      simp [filled r]

theorem readList?_list (p : PrintedDefinition) : WrittenParam.readList? p.list = some p.written := by
  rw [WrittenParam.readList?_eq_bind, tokens?_list, Option.bind_some, written]
  induction p.params with
  | nil => rfl
  | cons first others ih =>
      rw [List.map_cons, List.mapM_cons, WrittenParam.read?_trim, first.read?_chars, ih]
      rfl

end PrintedDefinition

namespace Definition

theorem beforeLastClose?_append {suffix : List Char} (absent : ')' ∉ suffix) (list : List Char) :
    beforeLastClose? (list ++ ')' :: suffix) = some list := by
  have turned : ')' ∉ suffix.reverse := fun member => absent (List.mem_reverse.mp member)
  rw [beforeLastClose?, List.reverse_append, List.reverse_cons, List.append_assoc,
    List.dropWhile_append_of_pos (Text.forall_ne_of_not_mem turned), List.singleton_append,
    List.dropWhile_cons_of_neg (by decide)]
  simp

theorem read?_line (p : PrintedDefinition) :
    read? p.line = some ⟨.ofList p.name.text, commandOf (.ofList p.name.text),
      WrittenParam.formals p.written⟩ := by
  have start := p.name.trimStart_chars_append p.named ('(' :: (p.list ++ ')' :: p.suffix))
  have unopened : '(' ∉ p.name.text ++ p.name.back := by
    have text : '(' ∉ p.name.text := DocLine.not_mem_of_isName p.named (by decide)
    have back : '(' ∉ p.name.back := DocLine.not_mem_of_blank p.name.back_blank (by decide)
    simp [text, back]
  have opened : Text.cut? ['('] (p.name.text ++ p.name.back ++ '(' :: (p.list ++ ')' :: p.suffix)) =
      some (p.name.text ++ p.name.back, p.list ++ ')' :: p.suffix) :=
    Text.cut?_append_of_not_mem unopened _
  have name : Text.trim (p.name.text ++ p.name.back) = p.name.text := by
    rw [Text.trim_append_blanks p.name.back_blank,
      Text.trim_of_forall (Text.isBlank_of_isName p.named)]
  rw [read?, PrintedDefinition.line, Text.stripPrefix?_append]
  simp only [Option.bind_eq_bind, Option.bind_some, start, opened, name, p.named,
    beforeLastClose?_append p.suffix_open, p.readList?_list]
  rfl

/-- The tools that are named by keywords, as they are written. -/
def keywordTools : List String := ["And", "Not", "Or"]

theorem commandOf_of_mem {name : String} (keyword : name ∈ keywordTools) :
    commandOf name = name.toLower := by
  have all : ∀ name ∈ keywordTools, commandOf name = name.toLower := by decide +kernel
  exact all name keyword

theorem commandOf_of_not_mem {name : String} (other : name ∉ keywordTools) :
    commandOf name = name := by
  simp only [keywordTools, List.mem_cons, List.not_mem_nil, or_false, not_or] at other
  simp [commandOf, other]

end Definition

/-- What a printed definition is read as. -/
structure PrintedDefinition.ReadAs (p : PrintedDefinition) (d : Definition) : Prop where
  name : d.name = .ofList p.name.text
  keyword : d.name ∈ Definition.keywordTools → d.command = d.name.toLower
  other : d.name ∉ Definition.keywordTools → d.command = d.name
  params : ∀ params, WrittenParam.Rewritten p.written params ↔ params = d.params

/-- Whatever the annotations and the defaults hold and wherever blanks stand, a printed definition is
accepted, and it is read as its name and the one rewrite of its parameters. -/
theorem printed_definitions_are_read_back (p : PrintedDefinition) :
    ∃ d, Definition.read? p.line = some d ∧ p.ReadAs d := by
  refine ⟨_, Definition.read?_line p, ?_⟩
  exact {
    name := rfl
    keyword := Definition.commandOf_of_mem
    other := Definition.commandOf_of_not_mem
    params := fun _ => WrittenParam.rewritten_iff }

/-- A text with one space on each side. -/
def Text.Spaced.loose (text : String) : Text.Spaced :=
  ⟨[' '], text.toList, [' '], List.all_eq_true.mp rfl, List.all_eq_true.mp rfl⟩

/-- A definition whose annotation and defaults hold whatever opens, closes and separates. -/
def printedNot : PrintedDefinition where
  name := .loose "Not"
  params := [
    { name := .flush "self", annotation? := none, default? := none, named := by decide,
      annotation_contained := nofun, annotation_plain := nofun,
      default_contained := nofun, default_trimmed := nofun },
    { name := .loose "output", annotation? := some (.loose "Callable[[str, int], None]"),
      default? := none, named := by decide,
      annotation_contained := by decide +kernel, annotation_plain := by decide +kernel,
      default_contained := nofun, default_trimmed := nofun },
    { name := .loose "i", annotation? := none, default? := some (.flush "None"), named := by decide,
      annotation_contained := nofun, annotation_plain := nofun,
      default_contained := by decide +kernel, default_trimmed := by decide +kernel },
    { name := .flush "names", annotation? := some (.flush "str"),
      default? := some (.loose "f(x=', (', y=[2, 3])"), named := by decide,
      annotation_contained := by decide +kernel, annotation_plain := by decide +kernel,
      default_contained := by decide +kernel, default_trimmed := by decide +kernel },
    { name := .flush "callback", annotation? := none, default? := some (.flush "None"),
      named := by decide, annotation_contained := nofun, annotation_plain := nofun,
      default_contained := by decide +kernel, default_trimmed := by decide +kernel }]
  suffix := " -> None:".toList
  named := by decide
  suffix_open := by decide

theorem printed_definitions_are_read_back_of_printedNot :
    String.ofList printedNot.line = "def Not (self, output : Callable[[str, int], None] , i =None," ++
        "names:str= f(x=', (', y=[2, 3]) ,callback=None) -> None:" ∧
      ∃ d, Definition.read? printedNot.line = some d ∧ d.name = "Not" ∧ d.command = "not" ∧
        Param.formals d.params = "input, output, names=f(x=', (', y=[2, 3]), " ++
          "wd=NULL, verbose_mode=FALSE, compress_rasters=FALSE" := by
  obtain ⟨d, read, readAs⟩ := printed_definitions_are_read_back printedNot
  have name : d.name = "Not" := readAs.name
  have keyword : d.name ∈ Definition.keywordTools := by
    rw [name]
    decide
  have params := (readAs.params _).mp (WrittenParam.rewritten_iff.mpr rfl)
  refine ⟨by decide +kernel, d, read, name, ?_, ?_⟩
  · rw [readAs.keyword keyword, name]
    decide +kernel
  · rw [← params]
    decide +kernel

end ToolWrappers
