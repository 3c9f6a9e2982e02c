import ToolWrappers.Proofs.LineByLine
import ToolWrappers.Proofs.Occurrences
import ToolWrappers.Proofs.ParameterLines

/-! Where a docstring ends and what it says, by positions among the lines: it ends at the first closing
line, unless a definition comes first, and no line outside of it matters. -/

namespace ToolWrappers

namespace DocLine

/-- A docstring ends with a delimiter alone, or with a line that begins with one and then ends with
one. -/
def Ends (line : List Char) : Prop := line = delimiter ∨ ∃ text, line = delimiter ++ text ++ delimiter

def Defines (line : List Char) : Prop := "def ".toList <+: line

instance (line : List Char) : Decidable (Defines line) := inferInstanceAs (Decidable (_ <+: _))

/-- A line that documents a parameter, as far as it is no definition. -/
def IsParam (line : List Char) : Prop :=
  ¬ delimiter <+: line ∧ "--".toList <:+: line ∧ ¬ "callback".toList <+: line

instance (line : List Char) : Decidable (IsParam line) := inferInstanceAs (Decidable (_ ∧ _))

/-- The text of a line without the delimiter that it begins with, and without one at its end. -/
def betweenDelimiters (line : List Char) : List Char :=
  let text := line.drop delimiter.length
  if delimiter <:+ text then text.take (text.length - delimiter.length) else text

/-- The summary that a line gives: it begins with a delimiter and is more than that. -/
def summaryOf? (line : List Char) : Option String :=
  if delimiter <+: line ∧ line ≠ delimiter then
    some (.ofList (Text.trimEnd (betweenDelimiters line)))
  else none

/-- The summary that the part of a line holds. -/
def summary? : DocLine → Option String
  | .oneLine text | .opening text => some text
  | .close | .definition | .param _ | .other => none

variable {line rest : List Char}

theorem defines_iff : Defines line ↔ isDefinition line = true :=
  Text.prefix_iff_startsWith

theorem betweenDelimiters_oneLine (text : List Char) :
    betweenDelimiters (delimiter ++ (text ++ delimiter)) = text := by
  simp only [betweenDelimiters, List.drop_left, if_pos (List.suffix_append text delimiter),
    List.length_append, Nat.add_sub_cancel, List.take_left]

theorem betweenDelimiters_opening (unended : ¬ delimiter <:+ rest) :
    betweenDelimiters (delimiter ++ rest) = rest := by
  simp only [betweenDelimiters, List.drop_left, if_neg unended]

/-- The part of a trimmed line with what its text says of it, in the order in which the parts are
tried. -/
inductive Shape : List Char → DocLine → Prop
  | close : Shape delimiter .close
  | oneLine (text : List Char) :
      Shape (delimiter ++ (text ++ delimiter)) (.oneLine (.ofList (Text.trimEnd text)))
  | opening {rest : List Char} : rest ≠ [] → ¬ delimiter <:+ rest →
      Shape (delimiter ++ rest) (.opening (.ofList (Text.trimEnd rest)))
  | definition {line : List Char} : ¬ delimiter <+: line → Defines line → Shape line .definition
  | param {line : List Char} : ¬ Defines line → IsParam line →
      Shape line (.param (.ofList (paramText line)))
  | other {line : List Char} : ¬ delimiter <+: line → ¬ Defines line → ¬ IsParam line →
      Shape line .other

theorem shape (line : List Char) : Shape line (ofLine line) := by
  unfold ofLine
  split
  · rename_i alone
    exact alone ▸ .close
  · rename_i more
    split
    · rename_i rest opened
      obtain rfl := Text.stripPrefix?_eq_some_iff.mp opened
      split
      · rename_i text closed
        obtain rfl := Text.stripSuffix?_eq_some_iff.mp closed
        exact .oneLine text
      · rename_i unended
        refine .opening ?_ (Text.not_suffix_of_stripSuffix? unended)
        rintro rfl
        exact more (List.append_nil delimiter)
    · rename_i outside
      have plain := Text.not_prefix_of_stripPrefix? outside
      split
      · rename_i defines
        exact .definition plain (defines_iff.mpr defines)
      · rename_i silent
        have silent : ¬ Defines line := fun defines => silent (defines_iff.mp defines)
        split
        · rename_i marked
          obtain ⟨inside, told⟩ := Bool.and_eq_true_iff.mp marked
          refine .param silent ⟨plain, Text.infix_iff_contains.mpr inside, ?_⟩
          intro callback
          rw [Text.prefix_iff_startsWith.mp callback] at told
          cases told
        · rename_i unmarked
          refine .other plain silent ?_
          rintro ⟨-, inside, told⟩
          apply unmarked
          rw [Text.infix_iff_contains.mp inside,
            Bool.eq_false_iff.mpr fun callback => told (Text.prefix_iff_startsWith.mpr callback)]
          rfl

theorem Ends.delimited (h : Ends line) : delimiter <+: line := by
  rcases h with rfl | ⟨text, rfl⟩
  · exact List.prefix_refl delimiter
  · exact ⟨text ++ delimiter, (List.append_assoc delimiter text delimiter).symm⟩

/-- A definition does not begin with a quotation mark. -/
theorem Ends.not_defines (h : Ends line) : ¬ Defines line := by
  rintro ⟨rest, defines⟩
  obtain ⟨text, rfl⟩ := h.delimited
  cases defines

theorem append_ne_delimiter (filled : rest ≠ []) : delimiter ++ rest ≠ delimiter :=
  fun alone => filled (List.append_right_eq_self.mp alone)

theorem not_ends_opening (filled : rest ≠ []) (unended : ¬ delimiter <:+ rest) :
    ¬ Ends (delimiter ++ rest) := by
  rintro (alone | ⟨text, same⟩)
  · exact append_ne_delimiter filled alone
  · rw [List.append_assoc] at same
    obtain rfl := List.append_cancel_left same
    exact unended (List.suffix_append text delimiter)

theorem summaryOf?_append (filled : rest ≠ []) :
    summaryOf? (delimiter ++ rest) =
      some (.ofList (Text.trimEnd (betweenDelimiters (delimiter ++ rest)))) :=
  if_pos ⟨List.prefix_append delimiter rest, append_ne_delimiter filled⟩

theorem summaryOf?_undelimited (plain : ¬ delimiter <+: line) : summaryOf? line = none :=
  if_neg fun both => plain both.1

namespace Shape

variable {part : DocLine}

theorem isClosing_iff (h : Shape line part) : part.isClosing = true ↔ Ends line := by
  cases h with
  | close => exact ⟨fun _ => .inl rfl, fun _ => rfl⟩
  | oneLine text =>
      exact ⟨fun _ => .inr ⟨text, (List.append_assoc delimiter text delimiter).symm⟩, fun _ => rfl⟩
  | opening filled unended => exact ⟨nofun, fun ends => absurd ends (not_ends_opening filled unended)⟩
  | definition plain => exact ⟨nofun, fun ends => absurd ends.delimited plain⟩
  | param _ told => exact ⟨nofun, fun ends => absurd ends.delimited told.1⟩
  | other plain => exact ⟨nofun, fun ends => absurd ends.delimited plain⟩

theorem defines (h : Shape line .definition) : Defines line := by
  cases h with
  | definition _ defines => exact defines

theorem summary?_eq (h : Shape line part) : part.summary? = summaryOf? line := by
  cases h with
  | close => rfl
  | oneLine text =>
      rw [summaryOf?_append (List.append_ne_nil_of_right_ne_nil text (by decide)),
        betweenDelimiters_oneLine, summary?]
  | opening filled unended =>
      rw [summaryOf?_append filled, betweenDelimiters_opening unended, summary?]
  | definition plain => exact (summaryOf?_undelimited plain).symm
  | param _ told => exact (summaryOf?_undelimited told.1).symm
  | other plain => exact (summaryOf?_undelimited plain).symm

theorem param?_eq (h : Shape line part) (silent : ¬ Defines line) :
    part.param? = if IsParam line then some (.ofList (paramText line)) else none := by
  have delimited (opened : delimiter <+: line) : ¬ IsParam line := fun told => told.1 opened
  cases h with
  | close => exact (if_neg (delimited (List.prefix_refl delimiter))).symm
  | oneLine text => exact (if_neg (delimited (List.prefix_append delimiter _))).symm
  | opening => exact (if_neg (delimited (List.prefix_append delimiter _))).symm
  | definition _ defines => exact absurd defines silent
  | param _ told => exact (if_pos told).symm
  | other _ _ untold => exact (if_neg untold).symm

end Shape

instance (line : List Char) : Decidable (Ends line) :=
  decidable_of_iff ((ofLine line).isClosing = true) (shape line).isClosing_iff

end DocLine

namespace Docstring

variable {lines others before after : List (List Char)} {line : List Char} {d : Docstring}
  {start last : Nat} {P : List Char → Prop}

/-- The last summary that these trimmed lines give. -/
def summaryIn (lines : List (List Char)) : Option String :=
  (lines.filterMap DocLine.summaryOf?).getLast?

def paramsIn (lines : List (List Char)) : List String :=
  (lines.filter DocLine.IsParam).map fun line => .ofList (DocLine.paramText line)

theorem summaryIn_cons (line : List Char) (lines : List (List Char)) :
    summaryIn (line :: lines) = (summaryIn lines).or (DocLine.summaryOf? line) := by
  rw [summaryIn, summaryIn]
  cases given : DocLine.summaryOf? line with
  | none => rw [List.filterMap_cons_none given, Option.or_none]
  | some text => rw [List.filterMap_cons_some given, List.getLast?_cons, Option.or_some]

theorem paramsIn_cons (line : List Char) (lines : List (List Char)) :
    paramsIn (line :: lines) =
      (if DocLine.IsParam line then some (.ofList (DocLine.paramText line)) else none).toList ++
        paramsIn lines := by
  rw [paramsIn, paramsIn, List.filter_cons]
  by_cases told : DocLine.IsParam line
  · rw [if_pos (decide_eq_true told), if_pos told]
    rfl
  · rw [if_neg (by simpa using told), if_neg told]
    rfl

/-- A closing line decides by itself. -/
theorem scan?_of_ends (ends : DocLine.Ends (Text.trim line)) :
    scan? (line :: after) = some ⟨⟨DocLine.summaryOf? (Text.trim line), []⟩, 1⟩ := by
  have shape := DocLine.shape (Text.trim line)
  have closing := shape.isClosing_iff.mpr ends
  rw [← shape.summary?_eq, scan?]
  cases part : DocLine.ofLine (Text.trim line) with
  | close | oneLine text => rfl
  | opening text | definition | param text | other =>
      rw [part] at closing
      cases closing

/-- An open line adds what it says to what comes later. -/
theorem scan?_of_open (more : ¬ DocLine.Ends (Text.trim line))
    (silent : ¬ DocLine.Defines (Text.trim line)) :
    scan? (line :: after) = (scan? after).map fun d =>
      ⟨⟨d.doc.summary.or (DocLine.ofLine (Text.trim line)).summary?,
        (DocLine.ofLine (Text.trim line)).param?.toList ++ d.doc.params⟩, d.length + 1⟩ := by
  have shape := DocLine.shape (Text.trim line)
  have unclosed := mt shape.isClosing_iff.mp more
  rw [scan?]
  cases part : DocLine.ofLine (Text.trim line) with
  | close | oneLine text =>
      rw [part] at unclosed
      exact absurd rfl unclosed
  | definition =>
      rw [part] at shape
      exact absurd shape.defines silent
  | opening text =>
      refine congrArg (Option.map · (scan? after)) (funext fun d => ?_)
      cases given : d.doc.summary <;> simp [addSummary, DocLine.summary?, DocLine.param?, given]
  | param text | other =>
      refine congrArg (Option.map · (scan? after)) (funext fun d => ?_)
      simp [addParam, DocLine.summary?, DocLine.param?]

/-- The first closing line, before which nothing is defined, and what is said up to it. -/
theorem scan?_append_ends
    (opened : ∀ other ∈ before, ¬ DocLine.Ends (Text.trim other) ∧ ¬ DocLine.Defines (Text.trim other))
    (ends : DocLine.Ends (Text.trim line)) (after : List (List Char)) :
    scan? (before ++ line :: after) =
      some ⟨⟨summaryIn ((before ++ [line]).map Text.trim), paramsIn (before.map Text.trim)⟩,
        before.length + 1⟩ := by
  induction before with
  | nil =>
      rw [List.nil_append, scan?_of_ends ends, List.nil_append, List.map_singleton, summaryIn_cons]
      rfl
  | cons first before ih =>
      obtain ⟨⟨more, silent⟩, opened⟩ := List.forall_mem_cons.mp opened
      have shape := DocLine.shape (Text.trim first)
      rw [List.cons_append, scan?_of_open more silent, ih opened, shape.summary?_eq,
        shape.param?_eq silent, List.cons_append, List.map_cons, List.map_cons, summaryIn_cons,
        paramsIn_cons]
      rfl

/-- A docstring that is read has a closing line, before which nothing is defined. -/
theorem exists_ends_of_scan? (h : scan? lines = some d) :
    ∃ before line after, lines = before ++ line :: after ∧ DocLine.Ends (Text.trim line) ∧
      ∀ other ∈ before, ¬ DocLine.Ends (Text.trim other) ∧ ¬ DocLine.Defines (Text.trim other) := by
  induction lines generalizing d with
  | nil => cases h
  | cons first rest ih =>
      by_cases ends : DocLine.Ends (Text.trim first)
      · exact ⟨[], first, rest, rfl, ends, List.forall_mem_nil _⟩
      · have silent : ¬ DocLine.Defines (Text.trim first) := by
          intro defines
          have at_first := scan?_append_definition (DocLine.defines_iff.mp defines) [] rest
          rw [List.nil_append, h] at at_first
          cases at_first
        rw [scan?_of_open ends silent] at h
        obtain ⟨inner, scanned, -⟩ := Option.map_eq_some_iff.mp h
        obtain ⟨before, line, after, rfl, closes, opened⟩ := ih scanned
        exact ⟨first :: before, line, after, rfl, closes,
          List.forall_mem_cons.mpr ⟨⟨ends, silent⟩, opened⟩⟩

theorem length_pos_of_scan? (h : scan? lines = some d) : 0 < d.length := by
  obtain ⟨before, line, after, rfl, ends, opened⟩ := exists_ends_of_scan? h
  rw [scan?_append_ends opened ends] at h
  cases h
  exact Nat.succ_pos before.length

/-- Nothing behind a closing line is read. -/
theorem scan?_append_ends_congr (ends : DocLine.Ends (Text.trim line))
    (before after others : List (List Char)) :
    scan? (before ++ line :: after) = scan? (before ++ line :: others) := by
  induction before with
  | nil => rw [List.nil_append, List.nil_append, scan?_of_ends ends, scan?_of_ends ends]
  | cons first before ih => rw [List.cons_append, List.cons_append, scan?, scan?, ih]

/-- There is a line `i`, and `P` holds of it once it is trimmed. -/
def At (P : List Char → Prop) (lines : List (List Char)) (i : Nat) : Prop :=
  ∃ line, lines[i]? = some line ∧ P (Text.trim line)

/-- Line `i` is the first such one from `start` on. -/
structure FirstFrom (P : List Char → Prop) (lines : List (List Char)) (start i : Nat) : Prop where
  start_le : start ≤ i
  here : At P lines i
  earlier : ∀ j, start ≤ j → j < i → ¬ At P lines j

/-- The lines from `start` on, counted from there. -/
theorem at_add_iff {j : Nat} :
    At P lines (start + j) ↔ ∃ line, (lines.drop start)[j]? = some line ∧ P (Text.trim line) := by
  rw [At, ← List.getElem?_drop]

/-- The first such line cuts the lines from `start` on in two. -/
theorem firstFrom_iff : FirstFrom P lines start last ↔
    ∃ before line after, lines.drop start = before ++ line :: after ∧
      last = start + before.length ∧ P (Text.trim line) ∧
      ∀ other ∈ before, ¬ P (Text.trim other) := by
  constructor
  · rintro ⟨start_le, ⟨line, here, holds⟩, earlier⟩
    obtain ⟨inside, rfl⟩ := List.getElem?_eq_some_iff.mp here
    refine ⟨(lines.drop start).take (last - start), lines[last], lines.drop (last + 1), ?_, ?_,
      holds, ?_⟩
    · have from_last : (lines.drop start).drop (last - start) = lines.drop last := by
        rw [List.drop_drop, Nat.add_sub_cancel' start_le]
      rw [← List.drop_eq_getElem_cons inside, ← from_last, List.take_append_drop]
    · rw [List.length_take, List.length_drop]
      omega
    · intro other member
      obtain ⟨j, within⟩ := List.mem_iff_getElem?.mp member
      rw [List.getElem?_take, List.getElem?_drop] at within
      split at within
      · exact fun holds =>
          earlier (start + j) (Nat.le_add_right start j) (by omega) ⟨other, within, holds⟩
      · cases within
  · rintro ⟨before, line, after, cut, rfl, holds, clean⟩
    refine ⟨Nat.le_add_right start _, at_add_iff.mpr ⟨line, ?_, holds⟩, ?_⟩
    · rw [cut, List.getElem?_append_right (Nat.le_refl _), Nat.sub_self, List.getElem?_cons_zero]
    · intro j start_le within here
      obtain ⟨j, rfl⟩ := Nat.exists_eq_add_of_le start_le
      obtain ⟨other, found, holds⟩ := at_add_iff.mp here
      rw [cut, List.getElem?_append_left (by omega)] at found
      exact clean other (List.mem_of_getElem? found) holds

/-- If one of the lines is such, one of them is the first. -/
theorem exists_firstFrom {i : Nat} (start_le : start ≤ i) (here : At P lines i) :
    ∃ first, first ≤ i ∧ FirstFrom P lines start first := by
  induction i using Nat.strong_induction_on with
  | _ i ih =>
      by_cases earlier : ∃ j, start ≤ j ∧ j < i ∧ At P lines j
      · obtain ⟨j, from_start, below, there⟩ := earlier
        obtain ⟨first, within, found⟩ := ih j below from_start there
        exact ⟨first, by omega, found⟩
      · refine ⟨i, Nat.le_refl i, start_le, here, ?_⟩
        intro j from_start below there
        exact earlier ⟨j, from_start, below, there⟩

/-- A docstring ends at the first closing line, unless a definition comes before. -/
structure EndsAt (lines : List (List Char)) (start last : Nat) : Prop where
  closes : FirstFrom DocLine.Ends lines start last
  undefined : ∀ i, FirstFrom DocLine.Defines lines start i → last < i

theorem endsAt_iff : EndsAt lines start last ↔
    ∃ before line after, lines.drop start = before ++ line :: after ∧
      last = start + before.length ∧ DocLine.Ends (Text.trim line) ∧
      ∀ other ∈ before, ¬ DocLine.Ends (Text.trim other) ∧ ¬ DocLine.Defines (Text.trim other) := by
  constructor
  · rintro ⟨closes, undefined⟩
    obtain ⟨before, line, after, cut, rfl, ends, opened⟩ := firstFrom_iff.mp closes
    refine ⟨before, line, after, cut, rfl, ends, fun other member => ⟨opened other member, ?_⟩⟩
    intro defines
    obtain ⟨j, within⟩ := List.mem_iff_getElem?.mp member
    have below := (List.getElem?_eq_some_iff.mp within).1
    have there : (lines.drop start)[j]? = some other := by
      rw [cut, List.getElem?_append_left below, within]
    obtain ⟨first, at_most, found⟩ :=
      exists_firstFrom (Nat.le_add_right start j) (at_add_iff.mpr ⟨other, there, defines⟩)
    have := undefined first found
    omega
  · rintro ⟨before, line, after, cut, rfl, ends, opened⟩
    have closes := firstFrom_iff.mpr
      ⟨before, line, after, cut, rfl, ends, fun other member => (opened other member).1⟩
    refine ⟨closes, fun i found => Nat.lt_of_not_le fun at_most => ?_⟩
    obtain ⟨j, rfl⟩ := Nat.exists_eq_add_of_le found.start_le
    obtain ⟨other, there, defines⟩ := at_add_iff.mp found.here
    rw [cut] at there
    rcases Nat.lt_or_eq_of_le (Nat.le_of_add_le_add_left at_most) with below | rfl
    · rw [List.getElem?_append_left below] at there
      exact (opened other (List.mem_of_getElem? there)).2 defines
    · rw [List.getElem?_append_right (Nat.le_refl _), Nat.sub_self, List.getElem?_cons_zero] at there
      cases there
      exact ends.not_defines defines

/-- The trimmed lines from `start` up to `stop`, which is left out. -/
def between (lines : List (List Char)) (start stop : Nat) : List (List Char) :=
  ((lines.drop start).take (stop - start)).map Text.trim

theorem between_of_cut (cut : lines.drop start = before ++ line :: after) :
    between lines start (start + before.length) = before.map Text.trim ∧
      between lines start (start + before.length + 1) = (before ++ [line]).map Text.trim := by
  have stop : start + before.length + 1 - start = (before ++ [line]).length := by
    rw [List.length_append, List.length_singleton]
    omega
  constructor
  · rw [between, cut, Nat.add_sub_cancel_left, List.take_left]
  · rw [between, cut, stop, List.append_cons before line after, List.take_left]

/-- The docstring of the tool that is defined on this line: what it says and the index of its closing
line. -/
def locate (lines : List (List Char)) (start : Nat) (tool : String) (number : Nat) :
    Except CatalogueError (Documentation × Nat) :=
  match scan? (lines.drop start) with
  | none => .error (.unterminatedDocstring number tool)
  | some d => .ok (d.doc, start + d.length - 1)

theorem readTool_eq_locate {text : List Char} {found : Definition}
    (read : Definition.read? text = some found) (lines : List (List Char)) (start number : Nat) :
    Item.readTool number text (lines.drop start) =
      (locate lines start found.name number).map fun (doc, last) =>
        (⟨found.name, found.command, number, found.params, doc⟩, last + 1 - start) := by
  rw [locate, Item.readTool, read]
  cases scanned : scan? (lines.drop start) with
  | none => rfl
  | some d =>
      have filled := length_pos_of_scan? scanned
      have same : start + d.length - 1 + 1 - start = d.length := by omega
      simp only [Except.map, same]

theorem locate_of_endsAt (h : EndsAt lines start last) (tool : String) (number : Nat) :
    locate lines start tool number = .ok
      (⟨summaryIn (between lines start (last + 1)), paramsIn (between lines start last)⟩, last) := by
  obtain ⟨before, line, after, cut, rfl, closes, opened⟩ := endsAt_iff.mp h
  obtain ⟨inside, whole⟩ := between_of_cut cut
  rw [locate, cut, scan?_append_ends opened closes, inside, whole]
  rfl

theorem endsAt_of_scan? (h : scan? (lines.drop start) = some d) :
    EndsAt lines start (start + d.length - 1) := by
  obtain ⟨before, line, after, cut, closes, opened⟩ := exists_ends_of_scan? h
  rw [cut, scan?_append_ends opened closes] at h
  cases h
  exact endsAt_iff.mpr ⟨before, line, after, cut, rfl, closes, opened⟩

theorem endsAt_of_locate {tool : String} {number : Nat} {doc : Documentation}
    (h : locate lines start tool number = .ok (doc, last)) : EndsAt lines start last := by
  rw [locate] at h
  split at h
  · cases h
  · rename_i scanned
    cases h
    exact endsAt_of_scan? scanned

/-- Only lines up to the closing one are read. -/
theorem scan?_drop_congr (closes : FirstFrom DocLine.Ends lines start last)
    (agree : ∀ i, start ≤ i → i ≤ last → others[i]? = lines[i]?) :
    scan? (others.drop start) = scan? (lines.drop start) := by
  obtain ⟨before, line, after, cut, rfl, ends, -⟩ := firstFrom_iff.mp closes
  have same : (others.drop start).take (before.length + 1) = before ++ [line] := by
    apply List.ext_getElem?
    intro j
    rw [List.getElem?_take, List.getElem?_drop]
    split
    · rename_i within
      rw [agree (start + j) (Nat.le_add_right start j) (by omega), ← List.getElem?_drop, cut,
        List.append_cons, List.getElem?_append_left]
      rw [List.length_append, List.length_singleton]
      exact within
    · rename_i outside
      rw [List.getElem?_eq_none]
      rw [List.length_append, List.length_singleton]
      omega
  have other_cut : others.drop start =
      before ++ line :: (others.drop start).drop (before.length + 1) := by
    rw [List.append_cons, ← same, List.take_append_drop]
  rw [other_cut, cut]
  exact scan?_append_ends_congr ends before _ _

/-- What reading a docstring comes to, said by positions among the lines. -/
structure Located (lines : List (List Char)) (start : Nat) (tool : String) (number : Nat) : Prop where
  found : ∀ last, EndsAt lines start last →
    locate lines start tool number = .ok
      (⟨summaryIn (between lines start (last + 1)), paramsIn (between lines start last)⟩, last)
  lost : (¬ ∃ last, EndsAt lines start last) →
    locate lines start tool number = .error (.unterminatedDocstring number tool)
  within : ∀ last, FirstFrom DocLine.Ends lines start last →
    ∀ others, (∀ i, start ≤ i → i ≤ last → others[i]? = lines[i]?) →
      locate others start tool number = locate lines start tool number
  used : ∀ line d, Definition.read? line = some d → d.name = tool →
    Item.readTool number line (lines.drop start) =
      (locate lines start tool number).map fun (doc, last) =>
        (⟨d.name, d.command, number, d.params, doc⟩, last + 1 - start)

end Docstring

/-- Reading finds the first closing line before which nothing is defined, and reads up to it and no
further. -/
theorem docstring_located (lines : List (List Char)) (start : Nat) (tool : String) (number : Nat) :
    Docstring.Located lines start tool number := by
  constructor
  case found =>
    intro last ends
    exact Docstring.locate_of_endsAt ends tool number
  case lost =>
    intro endless
    cases scanned : Docstring.scan? (lines.drop start) with
    | none => rw [Docstring.locate, scanned]
    | some d => exact absurd ⟨_, Docstring.endsAt_of_scan? scanned⟩ endless
  case within =>
    intro last closes others agree
    rw [Docstring.locate, Docstring.scan?_drop_congr closes agree, Docstring.locate]
  case used =>
    rintro line d read rfl
    exact Docstring.readTool_eq_locate read lines start number

/-- A docstring with three summaries, behind a delimiter and before another one. -/
def summarisedLines : List (List Char) :=
  ["\"\"\"", "\"\"\"Slope.", "\"\"\"A slope. ", "dem -- Input.", "callback -- Text.",
    "\"\"\"Done. \"\"\"", "\"\"\""].map String.toList

theorem docstring_located_of_summarisedLines :
    Docstring.EndsAt summarisedLines 1 5 ∧
      Docstring.locate summarisedLines 1 "slope" 1 = .ok (⟨some "Done.", ["dem Input."]⟩, 5) := by
  have ends : Docstring.EndsAt summarisedLines 1 5 := by
    refine Docstring.endsAt_iff.mpr
      ⟨(summarisedLines.drop 1).take 4, summarisedLines[5], summarisedLines.drop 6, rfl, rfl, ?_, ?_⟩
    · decide +kernel
    · decide +kernel
  have found := (docstring_located summarisedLines 1 "slope" 1).found 5 ends
  refine ⟨ends, found.trans ?_⟩
  decide +kernel

end ToolWrappers
