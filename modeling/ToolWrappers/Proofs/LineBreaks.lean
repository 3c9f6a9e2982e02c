import ToolWrappers.Text.Blank
import ToolWrappers.Text.Lines
import ToolWrappers.Text.Search
import ToolWrappers.Text.Uppercase

/-! Where line feeds can stand: never inside a line, and never in what is cut out of a line. Writing
lines and reading them back gives the same lines. -/

namespace ToolWrappers.Text

theorem trimEnd_sublist (s : List Char) : (trimEnd s).Sublist s := by
  have h := (List.dropWhile_sublist (l := s.reverse) isBlank).reverse
  simpa only [trimEnd, List.reverse_reverse] using h

theorem trim_sublist (s : List Char) : (trim s).Sublist s :=
  (trimEnd_sublist _).trans (List.dropWhile_sublist _)

theorem sublist_of_stripPrefix? {lead s rest : List Char} (h : stripPrefix? lead s = some rest) :
    rest.Sublist s := by
  rw [stripPrefix?_eq_some_iff.mp h]
  exact List.sublist_append_right lead rest

theorem sublist_of_stripSuffix? {tail s rest : List Char} (h : stripSuffix? tail s = some rest) :
    rest.Sublist s := by
  rw [stripSuffix?_eq_some_iff.mp h]
  exact List.sublist_append_left rest tail

theorem startsWith_append (lead rest : List Char) : startsWith lead (lead ++ rest) = true := by
  rw [startsWith, stripPrefix?_eq_some_iff.mpr rfl]
  rfl

theorem sublist_replaceAll_nil (pat s : List Char) : (replaceAll pat [] s).Sublist s := by
  have general : ∀ skip, (replaceFrom pat [] skip s).Sublist s := by
    intro skip
    induction s generalizing skip with
    | nil => cases skip <;> exact .slnil
    | cons c s ih =>
        cases skip with
        | zero =>
            rw [replaceFrom]
            split
            · exact (ih _).cons c
            · exact (ih _).cons_cons c
        | succ skip => exact (ih skip).cons c
  unfold replaceAll
  split
  · simp
  · exact general 0

theorem not_mem_intercalate {c : Char} {sep : String} {texts : List String}
    (between : c ∉ sep.toList) (h : ∀ text ∈ texts, c ∉ text.toList) :
    c ∉ (sep.intercalate texts).toList := by
  induction texts with
  | nil => simp
  | cons text texts ih =>
      have later := ih fun other member => h other (List.mem_cons_of_mem text member)
      cases texts with
      | nil => simpa using h text List.mem_cons_self
      | cons second texts =>
          rw [String.intercalate_cons_cons, String.toList_append, String.toList_append]
          simp only [List.mem_append, not_or]
          exact ⟨⟨h text List.mem_cons_self, between⟩, later⟩

theorem eq_toNat_of_ofNat {code : Nat} {x : Char} (same : Char.ofNat code = x)
    (pos : 0 < x.toNat) : code = x.toNat := by
  by_cases valid : code.isValidChar
  · rw [Char.ofNat, dif_pos valid] at same
    exact congrArg Char.toNat same
  · rw [Char.ofNat, dif_neg valid] at same
    rw [← same] at pos
    exact absurd pos (by decide)

/-- Upper-casing brings in no character that stands before the letters. -/
theorem eq_of_mem_uppercase {c x : Char} (pos : 0 < x.toNat) (small : x.toNat < 65)
    (h : x ∈ uppercase c) : x = c := by
  have ascii : ∀ code < 128, (Char.ofNat code).toUpper.toNat < 65 →
      (Char.ofNat code).toUpper = Char.ofNat code := by decide +kernel
  have long : ∀ entry ∈ longUppercase, ∀ code ∈ entry.2, 65 ≤ code := by decide +kernel
  have runs : ∀ run ∈ caseRuns, 65 ≤ run.image := by decide +kernel
  unfold uppercase at h
  split at h
  · rename_i low
    have kept := ascii c.toNat low
    rw [Char.ofNat_toNat, ← List.mem_singleton.mp h] at kept
    exact kept small
  · split at h
    · rename_i codes found
      obtain ⟨code, inside, same⟩ := List.mem_map.mp h
      obtain ⟨before, after, split, _⟩ := List.lookup_eq_some_iff.mp found
      have listed : (c.toNat, codes) ∈ longUppercase := by
        rw [split]
        exact List.mem_append_right before List.mem_cons_self
      have high := long _ listed code inside
      have number := eq_toNat_of_ofNat same pos
      omega
    · split at h
      · rename_i code found
        obtain ⟨run, searched, rfl⟩ := Option.map_eq_some_iff.mp found
        have high := runs run (List.mem_of_find?_eq_some searched)
        have number := eq_toNat_of_ofNat (List.mem_singleton.mp h).symm pos
        omega
      · exact List.mem_singleton.mp h

theorem pieces_cons (sep c : Char) (s : List Char) :
    pieces sep (c :: s) = if c = sep then [] :: pieces sep s
      else match pieces sep s with
        | [] => [[c]]
        | piece :: others => (c :: piece) :: others := rfl

theorem pieces_cons_of_ne {sep c : Char} (ne : c ≠ sep) (s : List Char) :
    ∃ piece others, pieces sep s = piece :: others ∧
      pieces sep (c :: s) = (c :: piece) :: others := by
  cases h : pieces sep s with
  | nil => exact absurd h (pieces_ne_nil sep s)
  | cons piece others =>
      refine ⟨piece, others, rfl, ?_⟩
      rw [pieces_cons, if_neg ne, h]

theorem pieces_of_not_mem {sep : Char} {s : List Char} (h : sep ∉ s) : pieces sep s = [s] := by
  induction s with
  | nil => rfl
  | cons c s ih =>
      obtain ⟨piece, others, tail, whole⟩ := pieces_cons_of_ne (List.ne_of_not_mem_cons h).symm s
      rw [ih (List.not_mem_of_not_mem_cons h)] at tail
      cases tail
      exact whole

/-- The first piece of a text reaches to the first separator. -/
theorem exists_pieces_eq (sep : Char) (s : List Char) :
    ∃ others, pieces sep s = s.takeWhile (· ≠ sep) :: others := by
  induction s with
  | nil => exact ⟨[], rfl⟩
  | cons c s ih =>
      by_cases same : c = sep
      · subst same
        rw [pieces_sep, List.takeWhile_cons_of_neg (by simp)]
        exact ⟨pieces c s, rfl⟩
      · obtain ⟨others, shape⟩ := ih
        rw [pieces_cons, if_neg same, shape, List.takeWhile_cons_of_pos (by simpa using same)]
        exact ⟨others, rfl⟩

theorem not_mem_of_mem_pieces {sep : Char} {s piece : List Char} (h : piece ∈ pieces sep s) :
    sep ∉ piece := by
  induction s generalizing piece with
  | nil => simp_all
  | cons c s ih =>
      by_cases same : c = sep
      · subst same
        rw [pieces_sep] at h
        rcases List.mem_cons.mp h with rfl | later
        · exact List.not_mem_nil
        · exact ih later
      · obtain ⟨first, others, tail, whole⟩ := pieces_cons_of_ne same s
        rw [whole] at h
        rcases List.mem_cons.mp h with rfl | later
        · intro hc
          rcases List.mem_cons.mp hc with rfl | hc
          · exact same rfl
          · exact ih (tail ▸ List.mem_cons_self) hc
        · exact ih (tail ▸ List.mem_cons_of_mem first later)

theorem dropReturn_sublist (line : List Char) : (dropReturn line).Sublist line := by
  unfold dropReturn
  split
  · exact List.dropLast_sublist line
  · exact List.Sublist.refl line

theorem newline_not_mem_of_mem_lines {s line : List Char} (h : line ∈ lines s) : '\n' ∉ line := by
  rcases List.mem_append.mp h with complete | last
  · obtain ⟨piece, member, rfl⟩ := List.mem_map.mp complete
    have clean := not_mem_of_mem_pieces (List.dropLast_subset _ member)
    exact fun hn => clean ((dropReturn_sublist piece).subset hn)
  · split at last
    · cases last
    · cases last
    · rename_i piece _ final
      obtain rfl := List.mem_singleton.mp last
      exact not_mem_of_mem_pieces (List.mem_of_getLast? final)

/-- The pieces of what is written as lines are the pieces of each line, and an empty last one. -/
theorem pieces_unlines (ls : List String) :
    pieces '\n' (unlines ls).toList = ls.flatMap (fun line => pieces '\n' line.toList) ++ [[]] := by
  rw [toList_unlines]
  induction ls with
  | nil => rfl
  | cons line rest ih =>
      simp only [List.flatMap_cons, List.append_assoc, List.singleton_append, pieces_append_sep, ih]

/-- A text that stays one line, as it is, when it is written as a line. -/
def IsLine (line : String) : Prop := '\n' ∉ line.toList ∧ line.toList.getLast? ≠ some '\r'

instance (line : String) : Decidable (IsLine line) := inferInstanceAs (Decidable (_ ∧ _))

theorem isLine_append {lead tail : String} (clean : '\n' ∉ lead.toList)
    (ends : IsLine tail ∧ tail ≠ "") : IsLine (lead ++ tail) := by
  obtain ⟨⟨plain, final⟩, filled⟩ := ends
  have some_last : tail.toList.getLast?.or lead.toList.getLast? = tail.toList.getLast? := by
    cases last : tail.toList.getLast? with
    | none => exact absurd (String.toList_eq_nil_iff.mp (List.getLast?_eq_none_iff.mp last)) filled
    | some c => rfl
  constructor
  · rw [String.toList_append]
    exact fun member => (List.mem_append.mp member).elim clean plain
  · rw [String.toList_append, List.getLast?_append, some_last]
    exact final

theorem lines_unlines {ls : List String} (single : ∀ line ∈ ls, IsLine line) :
    lines (unlines ls).toList = ls.map String.toList := by
  rw [toList_unlines]
  induction ls with
  | nil => rfl
  | cons line rest ih =>
      obtain ⟨clean, ending⟩ := single line List.mem_cons_self
      have first : lines (line.toList ++ ['\n']) = [line.toList] := by
        simp [lines, pieces_append_sep, pieces_of_not_mem clean, dropReturn, ending]
      simp only [List.flatMap_cons, List.append_assoc, List.singleton_append, List.map_cons]
      rw [lines_append, first, ih fun other member => single other (List.mem_cons_of_mem line member)]
      rfl

/-- A text of complete lines: each ends in a line feed. -/
def Complete (s : List Char) : Prop := s = [] ∨ s.getLast? = some '\n'

instance (s : List Char) : Decidable (Complete s) := inferInstanceAs (Decidable (_ ∨ _))

theorem lines_append_of_complete {s : List Char} (complete : Complete s) (rest : List Char) :
    lines (s ++ rest) = lines s ++ lines rest := by
  rcases complete with rfl | ends
  · rw [lines_nil, List.nil_append, List.nil_append]
  · obtain ⟨start, rfl⟩ := List.getLast?_eq_some_iff.mp ends
    rw [List.append_assoc, List.singleton_append, lines_append]

/-- The first lines of a text, as they stand in it with their line ends. -/
def firstLines : Nat → List Char → List Char
  | 0, _ => []
  | n + 1, s =>
    s.takeWhile (· ≠ '\n') ++
      match s.dropWhile (· ≠ '\n') with
      | [] => []
      | feed :: rest => feed :: firstLines n rest

theorem lines_feed {line : List Char} (clean : '\n' ∉ line) (rest : List Char) :
    lines (line ++ '\n' :: rest) = dropReturn line :: lines rest := by
  have first : lines (line ++ ['\n']) = [dropReturn line] := by
    simp [lines, pieces_append_sep, pieces_of_not_mem clean]
  rw [lines_append, first, List.singleton_append]

theorem length_lines_of_not_mem {s : List Char} (clean : '\n' ∉ s) : (lines s).length ≤ 1 := by
  rw [lines, pieces_of_not_mem clean]
  cases s with
  | nil => exact Nat.zero_le 1
  | cons c s => exact Nat.le_refl 1

theorem lines_firstLines (n : Nat) (s : List Char) : lines (firstLines n s) = (lines s).take n := by
  induction n generalizing s with
  | zero => rfl
  | succ n ih =>
      obtain ⟨line, after, whole, taken, left, inside, stops⟩ := exists_span (· ≠ '\n') s
      have clean : '\n' ∉ line := fun member => by simpa using inside '\n' member
      rw [firstLines, taken, left, whole]
      cases after with
      | nil =>
          rw [List.append_nil]
          exact (List.take_of_length_le (Nat.le_trans (length_lines_of_not_mem clean)
            (Nat.le_add_left 1 n))).symm
      | cons feed rest =>
          obtain rfl : feed = '\n' := by simpa using stops feed rfl
          rw [lines_feed clean, lines_feed clean, ih, List.take_succ_cons]

end ToolWrappers.Text
