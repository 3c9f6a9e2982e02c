/-! A text as a list of lines, and back. A line ends at a line feed; one carriage return directly
before the line feed belongs to the line end. -/

namespace ToolWrappers.Text

/-- The pieces of a text between the occurrences of one character: always at least one. -/
def pieces (sep : Char) (s : List Char) : List (List Char) :=
  s.foldr (fun c acc =>
    if c = sep then [] :: acc
    else match acc with
      | [] => [[c]]
      | piece :: rest => (c :: piece) :: rest) [[]]

/-- Drops one carriage return from the end. -/
def dropReturn (line : List Char) : List Char :=
  if line.getLast? = some '\r' then line.dropLast else line

/-- The lines of a text. No empty line follows a final line feed, and a last line without a line
feed keeps its carriage return. -/
def lines (s : List Char) : List (List Char) :=
  let all := pieces '\n' s
  all.dropLast.map dropReturn ++
    match all.getLast? with
    | none | some [] => []
    | some last => [last]

/-- The text whose lines these are, each ended by a line feed. -/
def unlines (ls : List String) : String := ls.foldl (fun text line => text ++ line ++ "\n") ""

@[simp] theorem pieces_nil (sep : Char) : pieces sep [] = [[]] := rfl

theorem pieces_ne_nil (sep : Char) (s : List Char) : pieces sep s ≠ [] := by
  cases s with
  | nil => simp
  | cons c s =>
    simp only [pieces, List.foldr_cons]
    split
    · simp
    · split <;> simp

@[simp] theorem pieces_sep (sep : Char) (s : List Char) :
    pieces sep (sep :: s) = [] :: pieces sep s := by
  simp [pieces]

theorem pieces_append_sep (sep : Char) (s rest : List Char) :
    pieces sep (s ++ sep :: rest) = pieces sep s ++ pieces sep rest := by
  induction s with
  | nil => simp
  | cons c s ih =>
    have step : ∀ u, pieces sep (c :: u) = if c = sep then [] :: pieces sep u
        else match pieces sep u with
          | [] => [[c]]
          | piece :: others => (c :: piece) :: others := fun u => rfl
    rw [List.cons_append, step, step, ih]
    by_cases same : c = sep
    · simp [same]
    · simp only [same, if_false]
      cases h : pieces sep s with
      | nil => exact absurd h (pieces_ne_nil sep s)
      | cons piece others => simp

theorem lines_nil : lines [] = [] := rfl

/-- Complete lines are read by themselves. -/
theorem lines_append (s rest : List Char) :
    lines (s ++ '\n' :: rest) = lines (s ++ ['\n']) ++ lines rest := by
  have parts := pieces_append_sep '\n' s rest
  have alone := pieces_append_sep '\n' s []
  have filled := pieces_ne_nil '\n' rest
  simp only [pieces_nil] at alone
  simp only [lines, parts, alone, List.dropLast_append_of_ne_nil filled, List.getLast?_append]
  cases last : (pieces '\n' rest).getLast? with
  | none => exact absurd (List.getLast?_eq_none_iff.mp last) filled
  | some line => simp

/-- What is written as lines holds these lines, each followed by a line feed. -/
theorem toList_unlines (ls : List String) :
    (unlines ls).toList = ls.flatMap fun line => line.toList ++ ['\n'] := by
  have general : ∀ text : String, (ls.foldl (fun text line => text ++ line ++ "\n") text).toList =
      text.toList ++ ls.flatMap fun line => line.toList ++ ['\n'] := by
    induction ls with
    | nil => simp
    | cons line rest ih =>
      intro text
      simp [ih]
  simpa [unlines] using general ""

end ToolWrappers.Text
