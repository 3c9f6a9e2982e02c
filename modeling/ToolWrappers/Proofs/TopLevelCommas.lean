import ToolWrappers.Definition.Basic

/-! A list is cut at the commas outside its strings and brackets and nowhere else. What that means is
said by a reading of the text that never fails; the scan of a list agrees with it as long as no bracket
closes below the outermost level. -/

namespace ToolWrappers

namespace Nesting

/-- What a reader of a text keeps: the quote that is open, whether a backslash came just before, and
the brackets open in the text, fewer than none where it closes more than it opens. -/
structure Cursor where
  quote? : Option Char
  escaped : Bool
  depth : Int
deriving DecidableEq

namespace Cursor

def outermost : Cursor := ⟨none, false, 0⟩

def next (here : Cursor) (c : Char) : Cursor :=
  match here.quote? with
  | some quote =>
    if here.escaped then { here with escaped := false }
    else if c = '\\' then { here with escaped := true }
    else if c = quote then { here with quote? := none }
    else here
  | none =>
    if isQuote c then { here with quote? := some c }
    else if isOpening c then { here with depth := here.depth + 1 }
    else if isClosing c then { here with depth := here.depth - 1 }
    else here

def after (here : Cursor) (s : List Char) : Cursor := s.foldl next here

end Cursor

/-- Read from `here`, a text never closes a bracket that is not open and has no comma at the outermost
level. -/
structure Passes (here : Cursor) (s : List Char) : Prop where
  closes_opened : ∀ t, t <+: s → 0 ≤ (here.after t).depth
  no_separator : ∀ t, t ++ [','] <+: s → here.after t ≠ .outermost

/-- Read from the outermost level, a text ends there and passes on the way. -/
structure SelfContained (s : List Char) : Prop extends Passes .outermost s where
  ends : Cursor.outermost.after s = .outermost

/-- Self-contained pieces that make up a list with commas between them. -/
structure Decomposes (list : List Char) (pieces : List (List Char)) : Prop where
  filled : pieces ≠ []
  joined : [','].intercalate pieces = list
  selfContained : ∀ p ∈ pieces, SelfContained p

def cursor : Nesting → Cursor
  | .code depth => ⟨none, false, depth⟩
  | .string quote escaped depth => ⟨some quote, escaped, depth⟩

theorem cursor_inj {here there : Nesting} : here.cursor = there.cursor ↔ here = there := by
  cases here <;> cases there <;> grind [cursor]

theorem depth_cursor_nonneg (here : Nesting) : 0 ≤ here.cursor.depth := by
  cases here with
  | code depth => exact Int.natCast_nonneg depth
  | string quote escaped depth => exact Int.natCast_nonneg depth

/-- Where the scan goes on, the reader goes with it. -/
theorem next_cursor_of_step {here there : Nesting} {c : Char} (stepped : here.step c = some there) :
    here.cursor.next c = there.cursor := by
  cases here with
  | code depth =>
      unfold step at stepped
      dsimp only at stepped
      by_cases quotes : isQuote c = true
      · rw [if_pos quotes] at stepped
        cases stepped
        simp [cursor, Cursor.next, quotes]
      · rw [if_neg quotes] at stepped
        by_cases opens : isOpening c = true
        · rw [if_pos opens] at stepped
          cases stepped
          simp [cursor, Cursor.next, quotes, opens]
        · rw [if_neg opens] at stepped
          by_cases closes : isClosing c = true
          · rw [if_pos closes] at stepped
            cases depth with
            | zero => cases stepped
            | succ depth =>
                cases stepped
                simp [cursor, Cursor.next, quotes, opens, closes]
          · rw [if_neg closes] at stepped
            cases stepped
            simp [cursor, Cursor.next, quotes, opens, closes]
  | string quote escaped depth =>
      cases escaped with
      | true =>
          cases stepped
          rfl
      | false =>
          rw [step] at stepped
          by_cases escapes : c = '\\'
          · rw [if_pos escapes] at stepped
            cases stepped
            simp [cursor, Cursor.next, escapes]
          · rw [if_neg escapes] at stepped
            by_cases ends : c = quote
            · rw [if_pos ends] at stepped
              cases stepped
              rw [ends] at escapes
              simp [cursor, Cursor.next, escapes, ends]
            · rw [if_neg ends] at stepped
              cases stepped
              simp [cursor, Cursor.next, escapes, ends]

/-- Where the scan gives up, the reader has closed more brackets than were open. -/
theorem depth_next_of_step_eq_none {here : Nesting} {c : Char} (stuck : here.step c = none) :
    (here.cursor.next c).depth < 0 := by
  fun_cases step here c <;> simp_all [step, cursor, Cursor.next]

theorem Passes.nil (here : Nesting) : Passes here.cursor [] where
  closes_opened := by
    intro t lead
    rw [List.prefix_nil.mp lead]
    exact here.depth_cursor_nonneg
  no_separator := by
    intro t lead
    cases List.append_ne_nil_of_right_ne_nil t (List.cons_ne_nil ',' []) (List.prefix_nil.mp lead)

theorem passes_cons_iff {here : Nesting} {c : Char} {s : List Char} :
    Passes here.cursor (c :: s) ↔ ¬(here = top ∧ c = ',') ∧ Passes (here.cursor.next c) s := by
  have outermost : here.cursor = .outermost ↔ here = top := @cursor_inj here top
  constructor
  · intro h
    refine ⟨?_, ?_, ?_⟩
    · rintro ⟨onTop, rfl⟩
      exact h.no_separator [] (List.prefix_append [','] s) (outermost.mpr onTop)
    · intro t lead
      exact h.closes_opened (c :: t) (List.cons_prefix_cons.mpr ⟨rfl, lead⟩)
    · intro t lead
      exact h.no_separator (c :: t) (List.cons_prefix_cons.mpr ⟨rfl, lead⟩)
  · rintro ⟨inside, later⟩
    constructor
    · intro t lead
      cases t with
      | nil => exact here.depth_cursor_nonneg
      | cons x t =>
          obtain ⟨rfl, rest⟩ := List.cons_prefix_cons.mp lead
          exact later.closes_opened t rest
    · intro t lead
      cases t with
      | nil =>
          obtain ⟨rfl, -⟩ := List.cons_prefix_cons.mp lead
          exact fun onTop => inside ⟨outermost.mp onTop, rfl⟩
      | cons x t =>
          obtain ⟨rfl, rest⟩ := List.cons_prefix_cons.mp lead
          exact later.no_separator t rest

/-- The position after one more character of a piece; no piece goes on past a separating comma. -/
def advance (here : Nesting) (c : Char) : Option Nesting :=
  if here = top ∧ c = ',' then none else here.step c

def scan (here : Nesting) (s : List Char) : Option Nesting := s.foldlM advance here

theorem scan_cons (here : Nesting) (c : Char) (s : List Char) :
    here.scan (c :: s) = (here.advance c).bind fun there => there.scan s :=
  List.foldlM_cons

theorem scan_eq_some_iff {here there : Nesting} {s : List Char} :
    here.scan s = some there ↔ Passes here.cursor s ∧ here.cursor.after s = there.cursor := by
  induction s generalizing here with
  | nil =>
      have stay : here.cursor.after [] = here.cursor := rfl
      simp [scan, Passes.nil here, stay, cursor_inj]
  | cons c s ih =>
      rw [scan_cons, passes_cons_iff, advance]
      by_cases separates : here = top ∧ c = ','
      · simp [separates]
      · rw [if_neg separates]
        cases stepped : here.step c with
        | none =>
            have below := Int.not_le.mpr (depth_next_of_step_eq_none stepped)
            have stuck : ¬Passes (here.cursor.next c) s := fun h =>
              below (h.closes_opened [] List.nil_prefix)
            simp [stuck]
        | some mid =>
            have next := next_cursor_of_step stepped
            have moved : here.cursor.after (c :: s) = mid.cursor.after s := by
              rw [Cursor.after, List.foldl_cons, next, Cursor.after]
            rw [Option.bind_some, ih, moved, next]
            simp [separates]

theorem selfContained_iff {s : List Char} : SelfContained s ↔ top.scan s = some top := by
  rw [scan_eq_some_iff]
  exact ⟨fun h => ⟨h.toPasses, h.ends⟩, fun h => ⟨h.1, h.2⟩⟩

instance (s : List Char) : Decidable (SelfContained s) :=
  decidable_of_iff (top.scan s = some top) selfContained_iff.symm

section

variable {here there : Nesting} {c : Char} {list rest piece : List Char}
  {pieces : List (List Char)}

theorem splitFrom_separator (rest : List Char) :
    splitFrom top (',' :: rest) = (splitFrom top rest).map ([] :: ·) := by
  rw [splitFrom, if_pos ⟨rfl, rfl⟩]

theorem splitFrom_cons (moved : here.advance c = some there)
    (found : splitFrom there rest = some (piece :: pieces)) :
    splitFrom here (c :: rest) = some ((c :: piece) :: pieces) := by
  unfold advance at moved
  split at moved
  · cases moved
  · rename_i inside
    rw [splitFrom, if_neg inside, moved, Option.bind_eq_bind, Option.bind_some, found]
    rfl

theorem splitFrom_append {s : List Char} (scanned : here.scan s = some there)
    (found : splitFrom there rest = some (piece :: pieces)) :
    splitFrom here (s ++ rest) = some ((s ++ piece) :: pieces) := by
  induction s generalizing here with
  | nil =>
      cases scanned
      exact found
  | cons c s ih =>
      rw [scan_cons] at scanned
      obtain ⟨mid, moved, later⟩ := Option.bind_eq_some_iff.mp scanned
      exact splitFrom_cons moved (ih later)

theorem split?_intercalate (filled : pieces ≠ []) (contained : ∀ p ∈ pieces, SelfContained p) :
    split? ([','].intercalate pieces) = some pieces := by
  induction pieces with
  | nil => cases filled rfl
  | cons first others ih =>
      -- A piece ends at the outermost level, so the comma behind it separates.
      have scanned := selfContained_iff.mp (contained first List.mem_cons_self)
      cases others with
      | nil =>
          have last := splitFrom_append scanned split?_nil
          rw [List.append_nil] at last
          rwa [List.intercalate_singleton]
      | cons second others =>
          have later : splitFrom top (',' :: [','].intercalate (second :: others)) =
              some ([] :: second :: others) := by
            rw [splitFrom_separator, ← split?,
              ih (List.cons_ne_nil _ _) fun p member => contained p (List.mem_cons_of_mem _ member)]
            rfl
          have joined := splitFrom_append scanned later
          rwa [List.append_nil, ← List.singleton_append, ← List.append_assoc,
            ← List.intercalate_cons_cons] at joined

/-- Whatever is found is made of pieces with commas between them, of which the first may begin inside a
string or a bracket. -/
theorem exists_of_splitFrom (found : splitFrom here list = some pieces) :
    ∃ first others, pieces = first :: others ∧ [','].intercalate (first :: others) = list ∧
      here.scan first = some top ∧ ∀ p ∈ others, SelfContained p := by
  induction list generalizing here pieces with
  | nil =>
      rw [splitFrom] at found
      split at found
      · rename_i onTop
        cases found
        exact ⟨[], [], rfl, rfl, congrArg some onTop, nofun⟩
      · cases found
  | cons c rest ih =>
      rw [splitFrom] at found
      split at found
      · rename_i separates
        obtain ⟨rfl, rfl⟩ := separates
        obtain ⟨_, later, rfl⟩ := Option.map_eq_some_iff.mp found
        obtain ⟨first, others, rfl, joined, scanned, contained⟩ := ih later
        refine ⟨[], first :: others, rfl, ?_, rfl, ?_⟩
        · rw [List.intercalate_cons_cons, joined]
          rfl
        · exact List.forall_mem_cons.mpr ⟨selfContained_iff.mpr scanned, contained⟩
      · rename_i inside
        obtain ⟨there, moved, found⟩ := Option.bind_eq_some_iff.mp found
        obtain ⟨_, later, same⟩ := Option.bind_eq_some_iff.mp found
        obtain ⟨first, others, rfl, joined, scanned, contained⟩ := ih later
        cases same
        -- The character goes in front of the first piece, whose scan begins one step earlier.
        refine ⟨c :: first, others, rfl, ?_, ?_, contained⟩
        · rw [← joined]
          cases others with
          | nil => simp
          | cons second others => simp [List.intercalate_cons_cons]
        · rw [scan_cons, advance, if_neg inside, moved]
          exact scanned

theorem split?_eq_some_iff : split? list = some pieces ↔ Decomposes list pieces := by
  constructor
  · intro found
    obtain ⟨first, others, rfl, joined, scanned, contained⟩ := exists_of_splitFrom found
    exact ⟨List.cons_ne_nil first others, joined,
      List.forall_mem_cons.mpr ⟨selfContained_iff.mpr scanned, contained⟩⟩
  · rintro ⟨filled, rfl, contained⟩
    exact split?_intercalate filled contained

end

end Nesting

namespace WrittenParam

/-- The parameters of a list as texts: its pieces without the blanks around them, and without those
that hold nothing else. -/
def tokens? (list : List Char) : Option (List (List Char)) :=
  (Nesting.split? list).map fun pieces => (pieces.map Text.trim).filter (!·.isEmpty)

theorem readList?_eq_bind (list : List Char) :
    readList? list = (tokens? list).bind fun tokens => tokens.mapM read? := by
  rw [readList?, tokens?, Option.bind_map]
  rfl

end WrittenParam

/-- A list has the tokens that its one decomposition has, and none if it has no decomposition; they are
what its parameters are read from. -/
structure WrittenParam.SplitsAtCommas (list : List Char) : Prop where
  accepted : ∀ tokens, tokens? list = some tokens ↔
    ∃ pieces, Nesting.Decomposes list pieces ∧ tokens = (pieces.map Text.trim).filter (!·.isEmpty)
  unique : ∀ pieces others, Nesting.Decomposes list pieces → Nesting.Decomposes list others →
    pieces = others
  refused : tokens? list = none ↔ ∀ pieces, ¬Nesting.Decomposes list pieces
  read : readList? list = (tokens? list).bind fun tokens => tokens.mapM read?

theorem lists_split_at_separating_commas (list : List Char) : WrittenParam.SplitsAtCommas list where
  accepted tokens := by
    rw [WrittenParam.tokens?, Option.map_eq_some_iff]
    exact exists_congr fun pieces => and_congr Nesting.split?_eq_some_iff eq_comm
  unique pieces others one other :=
    Option.some.inj ((Nesting.split?_eq_some_iff.mpr one).symm.trans
      (Nesting.split?_eq_some_iff.mpr other))
  refused := by
    rw [WrittenParam.tokens?, Option.map_eq_none_iff, Option.eq_none_iff_forall_ne_some]
    exact forall_congr' fun pieces => not_congr Nesting.split?_eq_some_iff
  read := WrittenParam.readList?_eq_bind list

example : WrittenParam.tokens? "self, a='x,\\',(', b: t[int, str]=(1, \x7b2: ']'\x7d), ".toList =
    some ["self".toList, "a='x,\\',('".toList, "b: t[int, str]=(1, \x7b2: ']'\x7d)".toList] := by
  decide +kernel

end ToolWrappers
