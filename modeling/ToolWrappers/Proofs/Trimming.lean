import ToolWrappers.Proofs.LineByLine
import ToolWrappers.Script.Generated

/-! A catalogue is read by its trimmed lines. Blanks at the ends of a line and the kind of its line end
change nothing, not even the text that an error quotes. -/

namespace ToolWrappers

namespace Text

variable {front back : List Char}

theorem trimStart_append (blank : ∀ c ∈ front, isBlank c = true) (s : List Char) :
    trimStart (front ++ s) = trimStart s :=
  List.dropWhile_append_of_pos blank

theorem trimEnd_append (blank : ∀ c ∈ back, isBlank c = true) (s : List Char) :
    trimEnd (s ++ back) = trimEnd s := by
  have turned : ∀ c ∈ back.reverse, isBlank c = true := fun c member =>
    blank c (List.mem_reverse.mp member)
  rw [trimEnd, List.reverse_append, List.dropWhile_append_of_pos turned, ← trimEnd]

theorem trimStart_of_blank (blank : ∀ c ∈ front, isBlank c = true) : trimStart front = [] := by
  rw [← List.append_nil front, trimStart_append blank, trimStart_nil]

/-- Blanks around a text are not part of what is left. -/
theorem trim_append (before : ∀ c ∈ front, isBlank c = true) (after : ∀ c ∈ back, isBlank c = true)
    (s : List Char) : trim (front ++ s ++ back) = trim s := by
  rw [List.append_assoc, trim, trimStart_append before, trim]
  cases left : trimStart s with
  | nil =>
      have nothing : trimStart (s ++ back) = [] := by
        rw [trimStart] at left ⊢
        rw [List.dropWhile_append, left]
        exact trimStart_of_blank after
      rw [nothing]
  | cons c rest =>
      have kept : trimStart (s ++ back) = c :: rest ++ back := by
        rw [trimStart] at left ⊢
        rw [List.dropWhile_append, left]
        rfl
      rw [kept, trimEnd_append after]

theorem trim_append_blanks (after : ∀ c ∈ back, isBlank c = true) (s : List Char) :
    trim (s ++ back) = trim s :=
  trim_append (List.forall_mem_nil _) after s

theorem trim_blanks_append (before : ∀ c ∈ front, isBlank c = true) (s : List Char) :
    trim (front ++ s) = trim s := by
  rw [trim, trimStart_append before, ← trim]

theorem trimStart_cons {c : Char} (filled : isBlank c = false) (s : List Char) :
    trimStart (c :: s) = c :: s :=
  List.dropWhile_cons_of_neg (Bool.eq_false_iff.mp filled)

theorem trim_of_forall {s : List Char} (filled : ∀ c ∈ s, isBlank c = false) : trim s = s := by
  have kept (t : List Char) (inside : t ⊆ s) : trimStart t = t := by
    cases t with
    | nil => rfl
    | cons c t => exact trimStart_cons (filled c (inside List.mem_cons_self)) t
  have turned : s.reverse.dropWhile isBlank = s.reverse :=
    kept s.reverse fun c member => List.mem_reverse.mp member
  rw [trim, kept s (List.Subset.refl s), trimEnd, turned, List.reverse_reverse]

theorem trim_dropReturn (line : List Char) : trim (dropReturn line) = trim line := by
  unfold dropReturn
  split
  · rename_i ends
    obtain ⟨start, rfl⟩ := List.getLast?_eq_some_iff.mp ends
    rw [List.dropLast_concat]
    exact (trim_append_blanks (List.forall_mem_singleton.mpr rfl) start).symm
  · rfl

/-- A text with blanks around it. -/
structure Spaced where
  front : List Char
  text : List Char
  back : List Char
  front_blank : ∀ c ∈ front, isBlank c = true
  back_blank : ∀ c ∈ back, isBlank c = true

/-- A text without blanks around it. -/
def Spaced.flush (text : String) : Spaced :=
  ⟨[], text.toList, [], List.forall_mem_nil _, List.forall_mem_nil _⟩

def Spaced.chars (s : Spaced) : List Char := s.front ++ s.text ++ s.back

theorem Spaced.trim_chars (s : Spaced) : trim s.chars = trim s.text :=
  trim_append s.front_blank s.back_blank s.text

theorem exists_spaced (s : List Char) : ∃ t : Spaced, t.text = trim s ∧ t.chars = s := by
  obtain ⟨front, back, whole, before, after⟩ := exists_eq_append_trim s
  exact ⟨⟨front, trim s, back, before, after⟩, rfl, whole.symm⟩

theorem trim_trim (s : List Char) : trim (trim s) = trim s := by
  obtain ⟨t, text, chars⟩ := exists_spaced s
  rw [← text, ← t.trim_chars, chars, text]

theorem trimEnd_append_cons {c : Char} (filled : isBlank c = false) (s t : List Char) :
    trimEnd (s ++ c :: t) = s ++ c :: trimEnd t := by
  have stop : (c :: s.reverse).dropWhile isBlank = c :: s.reverse := trimStart_cons filled s.reverse
  rw [trimEnd, List.reverse_append, List.reverse_cons, List.append_assoc, List.singleton_append,
    List.dropWhile_append, stop, trimEnd]
  split
  · rename_i nothing
    rw [List.isEmpty_iff.mp nothing]
    simp
  · simp

/-- A text without blanks around it has none at its end. -/
theorem trimEnd_of_trim {s : List Char} (trimmed : trim s = s) : trimEnd s = s := by
  have start : trimStart s = s := by
    have shorter := (trimEnd_sublist (trimStart s)).length_le
    have long : (trimEnd (trimStart s)).length = s.length := congrArg List.length trimmed
    refine (List.dropWhile_sublist isBlank).eq_of_length_le ?_
    rw [← long]
    exact shorter
  rwa [trim, start] at trimmed

/-- A line as it is laid out: a text with blanks around it, and a line feed that may follow a carriage
return. -/
structure LaidLine extends Spaced where
  afterReturn : Bool
  single : '\n' ∉ toSpaced.chars

namespace LaidLine

def lineReturn (l : LaidLine) : List Char := if l.afterReturn then ['\r'] else []

theorem lineReturn_blank (l : LaidLine) : ∀ c ∈ l.lineReturn, isBlank c = true ∧ c ≠ '\n' := by
  unfold lineReturn
  cases l.afterReturn with
  | false => exact List.forall_mem_nil _
  | true => exact List.forall_mem_singleton.mpr (by decide)

def line (l : LaidLine) : List Char := l.chars ++ l.lineReturn

theorem newline_not_mem_line (l : LaidLine) : '\n' ∉ l.line := by
  intro member
  rcases List.mem_append.mp member with inside | ending
  · exact l.single inside
  · exact (l.lineReturn_blank _ ending).2 rfl

theorem trim_line (l : LaidLine) : trim l.line = trim l.text :=
  (trim_append_blanks (fun c member => (l.lineReturn_blank c member).1) l.chars).trans l.trim_chars

end LaidLine

def laidOut (rows : List LaidLine) : List Char := rows.flatMap fun l => l.line ++ ['\n']

/-- Of a layout nothing is left but the trimmed lines. -/
theorem trim_lines_laidOut (rows : List LaidLine) :
    (lines (laidOut rows)).map trim = rows.map fun l => trim l.text := by
  induction rows with
  | nil => rfl
  | cons l rows ih =>
      have first : laidOut (l :: rows) = l.line ++ '\n' :: laidOut rows := by
        rw [laidOut, List.flatMap_cons, List.append_assoc, List.singleton_append, ← laidOut]
      rw [first, lines_feed l.newline_not_mem_line, List.map_cons, List.map_cons, trim_dropReturn,
        l.trim_line, ih]

end Text

section

variable {lines others rest later : List (List Char)} {line other : List Char}

theorem Docstring.scan?_congr (same : lines.map Text.trim = others.map Text.trim) :
    scan? lines = scan? others := by
  induction lines generalizing others with
  | nil => rw [List.map_eq_nil_iff.mp same.symm]
  | cons line rest ih =>
      obtain ⟨other, later, rfl, first, after⟩ := List.map_eq_cons_iff.mp same.symm
      rw [scan?, scan?, first, ih after.symm]

theorem Item.atLine_congr (first : Text.trim line = Text.trim other)
    (after : rest.map Text.trim = later.map Text.trim) (settings : Settings) (number : Nat) :
    atLine settings number line rest = atLine settings number other later := by
  simp only [atLine, readTool, first, Docstring.scan?_congr after]

/-- Lines that are equal once trimmed give the same items and the same fault. -/
theorem Item.readFrom_congr (same : lines.map Text.trim = others.map Text.trim)
    (settings : Settings) (skip number : Nat) :
    readFrom settings skip number lines = readFrom settings skip number others := by
  induction lines generalizing others skip number with
  | nil => rw [List.map_eq_nil_iff.mp same.symm]
  | cons line rest ih =>
      obtain ⟨other, later, rfl, first, after⟩ := List.map_eq_cons_iff.mp same.symm
      cases skip with
      | succ skip => exact ih after.symm skip (number + 1)
      | zero =>
          rw [readFrom_cons, readFrom_cons, atLine_congr first.symm after.symm]
          cases atLine settings number other later with
          | error e => rfl
          | ok here => simp only [ih after.symm here.2 (number + 1)]

end

namespace Catalogue

/-- Two texts come to the same: one catalogue and its files, or one error with its message and its
line. -/
structure ReadAlike (settings : Settings) (text other : String) : Prop where
  outcome : read settings text = read settings other
  message : (read settings text).mapError (fun e => (e.message, e.line)) =
    (read settings other).mapError fun e => (e.message, e.line)
  generated : Generated.ofCatalogue settings <$> read settings text =
    Generated.ofCatalogue settings <$> read settings other

theorem readAlike_of_trimmed {text other : String}
    (same : (Text.lines text.toList).map Text.trim = (Text.lines other.toList).map Text.trim)
    (settings : Settings) : ReadAlike settings text other := by
  have outcome : read settings text = read settings other := by
    rw [read_eq_ofLines, read_eq_ofLines, ofLines, ofLines, Item.readFrom_congr same]
  exact ⟨outcome, by rw [outcome], by rw [outcome]⟩

end Catalogue

/-- Texts whose lines are equal once trimmed come to the same; so do all layouts of the same lines, by
whatever blanks and line ends. -/
theorem layout_never_matters (settings : Settings) :
    (∀ text other : String,
      (Text.lines text.toList).map Text.trim = (Text.lines other.toList).map Text.trim →
        Catalogue.ReadAlike settings text other) ∧
      ∀ rows others : List Text.LaidLine, rows.map (·.text) = others.map (·.text) →
        Catalogue.ReadAlike settings (.ofList (Text.laidOut rows)) (.ofList (Text.laidOut others)) := by
  refine ⟨fun text other same => Catalogue.readAlike_of_trimmed same settings, ?_⟩
  intro rows others same
  have texts := congrArg (List.map Text.trim) same
  rw [List.map_map, List.map_map] at texts
  apply Catalogue.readAlike_of_trimmed
  rw [String.toList_ofList, String.toList_ofList, Text.trim_lines_laidOut, Text.trim_lines_laidOut]
  exact texts

/-- One tool, written without blanks at the ends of lines. -/
def flushLines : List String := ["# Data Tools #", "def f(i):", "\"\"\"Reads.\"\"\""]

/-- The same tool, indented, with blanks at the ends of lines, and with the last line left open. -/
def raggedText : String := "\t# Data Tools # \r\n\u00a0def f(i):\r\r\n  \"\"\"Reads.\"\"\"\u3000"

/-- A definition that is not closed. -/
def openDefinition : Text.LaidLine where
  toSpaced := .flush "def f(i"
  afterReturn := false
  single := by decide

/-- The same line indented, with a tab behind it and a carriage return before its line feed. -/
def indentedDefinition : Text.LaidLine where
  front := [' ', ' ']
  text := "def f(i".toList
  back := ['\t']
  front_blank := List.all_eq_true.mp rfl
  back_blank := List.all_eq_true.mp rfl
  afterReturn := true
  single := by decide

theorem layout_never_matters_in_raggedText :
    (∃ c, Catalogue.read { skipLines := 0 } (Text.unlines flushLines) = .ok c ∧
        c.tools.map (·.name) = ["f"] ∧ Catalogue.read { skipLines := 0 } raggedText = .ok c) ∧
      Catalogue.read { skipLines := 0 } (.ofList (Text.laidOut [indentedDefinition])) =
        .error (.malformedDefinition 1 "def f(i") := by
  obtain ⟨byLines, byLayout⟩ := layout_never_matters { skipLines := 0 }
  have flush : Text.lines (Text.unlines flushLines).toList = flushLines.map String.toList :=
    Text.lines_unlines (by decide +kernel)
  have ragged : (Text.lines raggedText.toList).map Text.trim =
      flushLines.map fun line => Text.trim line.toList := by decide +kernel
  constructor
  · have names : (Catalogue.read { skipLines := 0 } (Text.unlines flushLines)).toOption.map
        (fun c => c.tools.map (·.name)) = some ["f"] := by
      rw [Catalogue.read_unlines _ (by decide +kernel)]
      decide +kernel
    have alike := byLines (Text.unlines flushLines) raggedText (by
      rw [flush, ragged, List.map_map]
      rfl)
    cases read : Catalogue.read { skipLines := 0 } (Text.unlines flushLines) with
    | error e =>
        rw [read] at names
        cases names
    | ok c =>
        rw [read] at names
        exact ⟨c, rfl, Option.some.inj names, alike.outcome.symm.trans read⟩
  · rw [(byLayout [indentedDefinition] [openDefinition] rfl).outcome, Catalogue.read_eq_ofLines]
    decide +kernel

end ToolWrappers
