import ToolWrappers.Proofs.DocstringEnds
import ToolWrappers.Proofs.Trimming

/-! A docstring as the language of the catalogue has it: from one delimiter to the next one in the text,
wherever on its line that stands. Whether its closing line is found depends on how the two delimiters are
laid out. -/

namespace ToolWrappers

namespace Text

variable {pat body after : List Char} {c : Char}

/-- The first occurrence in a text of several pieces lies in the first piece that holds one. -/
theorem exists_piece_of_cut? {pieces : List (List Char)} (filled : pat ≠ []) (other : c ∉ pat)
    (single : ∀ piece ∈ pieces, c ∉ piece)
    (h : cut? pat ([c].intercalate pieces) = some (body, after)) :
    ∃ before piece later, pieces = before ++ piece :: later ∧ body.count c = before.length ∧
      contains pat piece = true ∧ ∀ clean ∈ before, contains pat clean = false := by
  induction pieces generalizing body with
  | nil =>
      rw [List.intercalate_nil, cut?, if_neg filled] at h
      cases h
  | cons piece pieces ih =>
      obtain ⟨single_piece, single⟩ := List.forall_mem_cons.mp single
      -- The body of an occurrence in the first piece does not leave it.
      have inside {front back : List Char} (here : cut? pat piece = some (front, back)) :
          front.count c = 0 ∧ contains pat piece = true := by
        have shape := eq_of_cut? here
        refine ⟨List.count_eq_zero.mpr fun member => single_piece ?_, ?_⟩
        · rw [shape, List.append_assoc]
          exact List.mem_append_left _ member
        · rw [contains, here, Option.isSome_some]
      cases pieces with
      | nil =>
          rw [List.intercalate_singleton] at h
          obtain ⟨count, holds⟩ := inside h
          exact ⟨[], piece, [], rfl, count, holds, List.forall_mem_nil _⟩
      | cons second pieces =>
          rw [List.intercalate_cons_cons, List.append_assoc, List.singleton_append,
            cut?_append_cons other] at h
          cases here : cut? pat piece with
          | some parts =>
              rw [here] at h
              cases h
              obtain ⟨count, holds⟩ := inside here
              exact ⟨[], piece, second :: pieces, rfl, count, holds, List.forall_mem_nil _⟩
          | none =>
              rw [here] at h
              obtain ⟨⟨front, back⟩, found, same⟩ := Option.map_eq_some_iff.mp h
              cases same
              obtain ⟨before, closing, later, cut, count, holds, clean⟩ := ih single found
              refine ⟨piece :: before, closing, later, by rw [cut, List.cons_append], ?_, holds, ?_⟩
              · rw [List.count_append, List.count_eq_zero.mpr single_piece, List.count_cons_self, count,
                  Nat.zero_add, List.length_cons]
              · refine List.forall_mem_cons.mpr ⟨?_, clean⟩
                rw [contains, here, Option.isSome_none]

end Text

namespace DocLine

variable {line front opened : List Char}

theorem trim_delimited (blank : ∀ c ∈ front, Text.isBlank c = true) (opened : List Char) :
    Text.trim (front ++ delimiter ++ opened) = delimiter ++ Text.trimEnd opened := by
  rw [List.append_assoc, Text.trim_blanks_append blank]
  exact Text.trimEnd_append_cons (by decide) ['"', '"'] opened

theorem not_ends_of_not_contains (clean : Text.contains delimiter line = false) :
    ¬ Ends (Text.trim line) := by
  intro ends
  obtain ⟨laid, text, chars⟩ := Text.exists_spaced line
  have inside : delimiter <:+: line := by
    refine ends.delimited.isInfix.trans ⟨laid.front, laid.back, ?_⟩
    rw [← text]
    exact chars
  rw [Text.infix_iff_contains.mp inside] at clean
  cases clean

/-- A line that opens a docstring and does not end it there is the delimiter alone or no end at all. -/
theorem eq_delimiter_of_ends (blank : ∀ c ∈ front, Text.isBlank c = true)
    (clean : Text.contains delimiter opened = false)
    (ends : Ends (Text.trim (front ++ delimiter ++ opened))) :
    Text.trim (front ++ delimiter ++ opened) = delimiter := by
  rw [trim_delimited blank] at ends ⊢
  rcases ends with alone | ⟨text, same⟩
  · exact alone
  · rw [List.append_assoc] at same
    obtain ⟨back, whole, -⟩ := Text.exists_eq_trimEnd_append opened
    have inside : delimiter <:+: opened :=
      ⟨text, back, by rw [← List.append_cancel_left same, ← whole]⟩
    rw [Text.infix_iff_contains.mp inside] at clean
    cases clean

theorem trim_ne_delimiter (blank : ∀ c ∈ front, Text.isBlank c = true)
    (closed : Text.contains delimiter opened = true) :
    Text.trim (front ++ delimiter ++ opened) ≠ delimiter := by
  intro alone
  rw [trim_delimited blank] at alone
  obtain ⟨back, whole, spaces⟩ := Text.exists_eq_trimEnd_append opened
  rw [List.append_right_eq_self.mp alone, List.nil_append] at whole
  have quote := (Text.infix_iff_contains.mpr closed).mem (List.mem_cons_self (a := '"'))
  rw [whole] at quote
  have := spaces '"' quote
  contradiction

end DocLine

namespace Docstring

variable {lines : List (List Char)} {start last : Nat}

/-- The docstring that begins on line `start` and ends on line `last`: it is opened by a delimiter that
only blanks precede, and closed by the next one in the text. -/
def Spans (lines : List (List Char)) (start last : Nat) : Prop :=
  ∃ front opened later body after,
    lines.drop start = (front ++ DocLine.delimiter ++ opened) :: later ∧
      (∀ c ∈ front, Text.isBlank c = true) ∧
      Text.cut? DocLine.delimiter (['\n'].intercalate (opened :: later)) = some (body, after) ∧
      last = start + body.count '\n'

theorem Spans.start_le (spans : Spans lines start last) : start ≤ last := by
  obtain ⟨front, opened, later, body, after, -, -, -, rfl⟩ := spans
  exact Nat.le_add_right start _

/-- The first line begins with the delimiter. -/
theorem Spans.opens (spans : Spans lines start last) :
    ∃ first later, lines.drop start = first :: later ∧ DocLine.delimiter <+: Text.trim first := by
  obtain ⟨front, opened, later, body, after, cut, blank, -, -⟩ := spans
  refine ⟨_, later, cut, ?_⟩
  rw [DocLine.trim_delimited blank]
  exact List.prefix_append DocLine.delimiter _

/-- Where a docstring can seem to end before it does: on its first line only, and there only if this is
a delimiter alone. -/
inductive Layout (lines : List (List Char)) (start last : Nat) : Prop
  | oneLine : last = start → ¬ At (· = DocLine.delimiter) lines start → Layout lines start last
  | severalLines : start < last →
      (At DocLine.Ends lines start → At (· = DocLine.delimiter) lines start) →
      (∀ i, start < i → i < last → ¬ At DocLine.Ends lines i) → Layout lines start last

theorem Spans.layout (spans : Spans lines start last) (single : ∀ line ∈ lines, '\n' ∉ line) :
    Layout lines start last := by
  obtain ⟨front, opened, later, body, after, cut, blank, found, rfl⟩ := spans
  have first : lines[start]? = some (front ++ DocLine.delimiter ++ opened) := by
    rw [← Nat.add_zero start, ← List.getElem?_drop, cut, List.getElem?_cons_zero]
  have pieces : ∀ piece ∈ opened :: later, '\n' ∉ piece := by
    have within : ∀ line ∈ (front ++ DocLine.delimiter ++ opened) :: later, '\n' ∉ line :=
      fun line member => single line (List.mem_of_mem_drop (cut ▸ member))
    obtain ⟨here, rest⟩ := List.forall_mem_cons.mp within
    exact List.forall_mem_cons.mpr ⟨fun member => here (List.mem_append_right _ member), rest⟩
  obtain ⟨before, closing, others, split, count, holds, clean⟩ :=
    Text.exists_piece_of_cut? (by decide) (by decide) pieces found
  rw [count]
  cases before with
  | nil =>
      obtain ⟨rfl, -⟩ := List.cons.inj split
      refine .oneLine rfl ?_
      rintro ⟨line, there, alone⟩
      obtain rfl := Option.some.inj (first.symm.trans there)
      exact DocLine.trim_ne_delimiter blank holds alone
  | cons piece before =>
      rw [List.cons_append] at split
      obtain ⟨rfl, rest⟩ := List.cons.inj split
      obtain ⟨clean_first, clean⟩ := List.forall_mem_cons.mp clean
      rw [List.length_cons]
      refine .severalLines (by omega) ?_ ?_
      · rintro ⟨line, there, ends⟩
        obtain rfl := Option.some.inj (first.symm.trans there)
        exact ⟨_, first, DocLine.eq_delimiter_of_ends blank clean_first ends⟩
      · rintro i above below ⟨line, there, ends⟩
        obtain ⟨j, rfl⟩ := Nat.exists_eq_add_of_lt above
        rw [Nat.add_assoc, ← List.getElem?_drop, cut, List.getElem?_cons_succ, rest,
          List.getElem?_append_left (by omega)] at there
        exact DocLine.not_ends_of_not_contains (clean line (List.mem_of_getElem? there)) ends

/-- Behind more than a delimiter nothing ends a docstring before its last line. -/
theorem Layout.not_ends (layout : Layout lines start last)
    (other : ¬ At (· = DocLine.delimiter) lines start) {i : Nat} (start_le : start ≤ i)
    (below : i < last) : ¬ At DocLine.Ends lines i := by
  intro here
  cases layout with
  | oneLine same => omega
  | severalLines _ first inside =>
      rcases Nat.lt_or_eq_of_le start_le with above | rfl
      · exact inside i above below here
      · exact other (first here)

/-- The lines between the two delimiters of a docstring. -/
theorem Spans.paramsIn_between (spans : Spans lines start last) :
    paramsIn (between lines start last) = paramsIn (between lines (start + 1) last) := by
  obtain ⟨first, later, cut, opened⟩ := spans.opens
  have tail : lines.drop (start + 1) = later := by
    rw [← List.drop_drop, cut, List.drop_one, List.tail_cons]
  rw [between, between, cut, tail]
  cases size : last - start with
  | zero =>
      have none_left : last - (start + 1) = 0 := by omega
      rw [none_left, List.take_zero, List.take_zero]
  | succ more =>
      have left : last - (start + 1) = more := by omega
      rw [left, List.take_succ_cons, List.map_cons, paramsIn_cons, if_neg fun told => told.1 opened]
      rfl

/-- A delimiter alone on the first line is taken for the closing one. -/
theorem locate_of_alone (alone : At (· = DocLine.delimiter) lines start) (tool : String)
    (number : Nat) : locate lines start tool number = .ok ({}, start) := by
  obtain ⟨line, there, alone⟩ := alone
  obtain ⟨inside, rfl⟩ := List.getElem?_eq_some_iff.mp there
  rw [locate, List.drop_eq_getElem_cons inside, scan?_of_ends (.inl alone), alone]
  rfl

/-- What becomes of a docstring that ends on line `last`. -/
structure Closed (lines : List (List Char)) (start last : Nat) (tool : String) (number : Nat) :
    Prop where
  found_iff : (∃ doc, locate lines start tool number = .ok (doc, last)) ↔
    ¬ At (· = DocLine.delimiter) lines start ∧ At DocLine.Ends lines last
  params : ∀ doc, locate lines start tool number = .ok (doc, last) →
    doc.params = paramsIn (between lines (start + 1) last)
  alone : At (· = DocLine.delimiter) lines start →
    start < last ∧ locate lines start tool number = .ok ({}, start)
  past : ¬ At (· = DocLine.delimiter) lines start → ¬ At DocLine.Ends lines last →
    ∀ doc stop, locate lines start tool number = .ok (doc, stop) → last < stop

end Docstring

/-- The closing line of a docstring is found exactly if its first line is no delimiter alone and its
last one has the shape of a closing line. -/
theorem closing_delimiter_found {lines : List (List Char)} {start last : Nat}
    (single : ∀ line ∈ lines, '\n' ∉ line) (spans : Docstring.Spans lines start last)
    (silent : ∀ i, start ≤ i → i ≤ last → ¬ Docstring.At DocLine.Defines lines i)
    (tool : String) (number : Nat) : Docstring.Closed lines start last tool number := by
  have start_le := spans.start_le
  have layout := spans.layout single
  constructor
  case found_iff =>
    constructor
    · rintro ⟨doc, found⟩
      have closes := (Docstring.endsAt_of_locate found).closes
      refine ⟨fun alone => ?_, closes.here⟩
      cases layout with
      | oneLine _ other => exact other alone
      | severalLines below =>
          obtain ⟨line, there, alone⟩ := alone
          exact closes.earlier start (Nat.le_refl start) below ⟨line, there, .inl alone⟩
    · rintro ⟨other, closing⟩
      have ends : Docstring.EndsAt lines start last := by
        refine ⟨⟨start_le, closing, fun j => layout.not_ends other⟩, fun i found => ?_⟩
        refine Nat.lt_of_not_le fun at_most => ?_
        exact silent i found.start_le at_most found.here
      exact ⟨_, Docstring.locate_of_endsAt ends tool number⟩
  case params =>
    intro doc found
    have ends := Docstring.endsAt_of_locate found
    rw [Docstring.locate_of_endsAt ends tool number] at found
    cases found
    exact spans.paramsIn_between
  case alone =>
    intro alone
    refine ⟨?_, Docstring.locate_of_alone alone tool number⟩
    cases layout with
    | oneLine _ other => exact absurd alone other
    | severalLines below => exact below
  case past =>
    intro other unclosed doc stop found
    have closes := (Docstring.endsAt_of_locate found).closes
    refine Nat.lt_of_not_le fun at_most => ?_
    rcases Nat.lt_or_eq_of_le at_most with below | rfl
    · exact layout.not_ends other closes.start_le below closes.here
    · exact unclosed closes.here

/-- A docstring that opens with its summary and closes on a line of its own. -/
def plainLines : List (List Char) :=
  ["  \"\"\"Reads.", "  i -- Input.", "  callback -- Text.", "  \"\"\""].map String.toList

theorem closing_delimiter_found_of_plainLines :
    Docstring.Spans plainLines 0 3 ∧ ∃ doc,
      Docstring.locate plainLines 0 "f" 1 = .ok (doc, 3) ∧ doc.params = ["input Input."] := by
  have spans : Docstring.Spans plainLines 0 3 :=
    ⟨"  ".toList, "Reads.".toList, plainLines.drop 1, _, _, rfl,
      List.all_eq_true.mp rfl, rfl, rfl⟩
  have single : ∀ line ∈ plainLines, '\n' ∉ line := by decide
  have silent : ∀ line ∈ plainLines, ¬ DocLine.Defines (Text.trim line) := by decide +kernel
  have closed := closing_delimiter_found single spans
    (fun i _ _ ⟨line, there, defines⟩ => silent line (List.mem_of_getElem? there) defines) "f" 1
  have other : ¬ Docstring.At (· = DocLine.delimiter) plainLines 0 := by
    rintro ⟨line, there, alone⟩
    cases there
    exact absurd alone (by decide +kernel)
  obtain ⟨doc, found⟩ := closed.found_iff.mpr ⟨other, "  \"\"\"".toList, rfl, by decide +kernel⟩
  refine ⟨spans, doc, found, (closed.params doc found).trans ?_⟩
  decide +kernel

/-- Docstrings that open with a delimiter alone, and that close behind their last text. -/
def aloneLines : List (List Char) :=
  ["\"\"\"", "Reads.", "i -- Input.", "\"\"\""].map String.toList

def endedLines : List (List Char) :=
  ["\"\"\"Reads.", "i -- Input.\"\"\""].map String.toList

theorem closing_delimiter_missed :
    (∀ line ∈ aloneLines ++ endedLines, '\n' ∉ line ∧ ¬ DocLine.Defines (Text.trim line)) ∧
      Docstring.Spans aloneLines 0 3 ∧ Docstring.locate aloneLines 0 "f" 1 = .ok ({}, 0) ∧
      Docstring.Spans endedLines 0 1 ∧
      Docstring.locate endedLines 0 "f" 1 = .error (.unterminatedDocstring 1 "f") := by
  refine ⟨?_, ⟨[], [], aloneLines.drop 1, _, _, rfl, List.forall_mem_nil _, rfl, rfl⟩, ?_,
    ⟨[], "Reads.".toList, endedLines.drop 1, _, _, rfl, List.forall_mem_nil _, rfl, rfl⟩, ?_⟩
  · decide +kernel
  · exact Docstring.locate_of_alone ⟨_, rfl, rfl⟩ "f" 1
  · decide +kernel

end ToolWrappers
