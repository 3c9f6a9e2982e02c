import Mathlib.Data.List.Infix
import ToolWrappers.Proofs.LineBreaks

/-! Where a pattern occurs in a text: the pieces around its occurrences, the text with all of them
replaced, and places where none can be. -/

namespace ToolWrappers.Text

variable {pat new s rest : List Char} {c : Char}

theorem splitFrom_length_append (pat lead rest : List Char) :
    splitFrom pat lead.length (lead ++ rest) = splitFrom pat 0 rest := by
  induction lead with
  | nil => rfl
  | cons c lead ih => exact ih

theorem splitFrom_cons_of_not_startsWith (other : startsWith pat (c :: s) = false)
    {piece : List Char} {pieces : List (List Char)} (tail : splitFrom pat 0 s = piece :: pieces) :
    splitFrom pat 0 (c :: s) = (c :: piece) :: pieces := by
  rw [splitFrom, if_neg (Bool.eq_false_iff.mp other), tail]

/-- The first piece reaches to the first occurrence, and the others are the pieces of what follows. -/
theorem splitOn_of_cut? {before after : List Char} (filled : pat ≠ [])
    (h : cut? pat s = some (before, after)) : splitOn pat s = before :: splitOn pat after := by
  unfold splitOn
  fun_induction cut? pat s generalizing before with
  | case1 => simp_all
  | case2 => simp at h
  | case3 c s rest found =>
      obtain ⟨rfl, rfl⟩ : [] = before ∧ rest = after := by simpa using h
      obtain ⟨p, pat, rfl⟩ := List.exists_cons_of_ne_nil filled
      have shape := stripPrefix?_eq_some_iff.mp found
      rw [List.cons_append] at shape
      obtain ⟨rfl, rfl⟩ := List.cons.inj shape
      rw [splitFrom, startsWith, found, Option.isSome_some, if_pos rfl, List.length_cons,
        Nat.add_sub_cancel, splitFrom_length_append]
  | case4 c s other ih =>
      obtain ⟨⟨b, a⟩, found, same⟩ := Option.map_eq_some_iff.mp h
      obtain ⟨rfl, rfl⟩ : c :: b = before ∧ a = after := by simpa using same
      apply splitFrom_cons_of_not_startsWith
      · rw [startsWith, other]
        rfl
      · exact ih found

theorem splitOn_of_not_contains (absent : contains pat s = false) :
    splitOn pat s = [s] := by
  unfold splitOn
  induction s with
  | nil => rfl
  | cons c s ih =>
      rw [contains, cut?] at absent
      split at absent
      · simp at absent
      · rename_i other
        rw [Option.isSome_map] at absent
        apply splitFrom_cons_of_not_startsWith
        · rw [startsWith, other]
          rfl
        · exact ih absent

theorem infix_iff_contains : pat <:+: s ↔ contains pat s = true := by
  rw [contains_iff]
  constructor
  · rintro ⟨before, after, same⟩
    exact ⟨before, after, same.symm⟩
  · rintro ⟨before, after, same⟩
    exact ⟨before, after, same.symm⟩

theorem prefix_iff_startsWith : pat <+: s ↔ startsWith pat s = true := by
  rw [startsWith_iff]
  constructor
  · rintro ⟨rest, same⟩
    exact ⟨rest, same.symm⟩
  · rintro ⟨rest, same⟩
    exact ⟨rest, same.symm⟩

theorem suffix_iff_endsWith : pat <:+ s ↔ endsWith pat s = true := by
  rw [endsWith, Option.isSome_iff_exists]
  constructor
  · rintro ⟨rest, same⟩
    exact ⟨rest, stripSuffix?_eq_some_iff.mpr same.symm⟩
  · rintro ⟨rest, found⟩
    exact ⟨rest, (stripSuffix?_eq_some_iff.mp found).symm⟩

theorem not_prefix_of_stripPrefix? (other : stripPrefix? pat s = none) : ¬ pat <+: s := by
  rintro ⟨rest, rfl⟩
  rw [stripPrefix?_append] at other
  cases other

theorem not_suffix_of_stripSuffix? (other : stripSuffix? pat s = none) : ¬ pat <:+ s := by
  rintro ⟨rest, rfl⟩
  rw [stripSuffix?_eq_some_iff.mpr rfl] at other
  cases other

/-- No occurrence begins before the first one, not even one that overlaps with it. -/
theorem not_infix_of_cut? {before after : List Char} (filled : pat ≠ [])
    (h : cut? pat s = some (before, after)) : ¬ pat <:+: before ++ pat.dropLast := by
  fun_induction cut? pat s generalizing before with
  | case1 => simp_all
  | case2 => simp at h
  | case3 c s rest found =>
      obtain ⟨rfl, rfl⟩ : [] = before ∧ rest = after := by simpa using h
      intro inside
      have shorter := inside.length_le
      have long := List.length_pos_of_ne_nil filled
      rw [List.nil_append, List.length_dropLast] at shorter
      omega
  | case4 c s other ih =>
      obtain ⟨⟨b, a⟩, found, same⟩ := Option.map_eq_some_iff.mp h
      obtain ⟨rfl, rfl⟩ : c :: b = before ∧ a = after := by simpa using same
      intro inside
      rw [List.cons_append] at inside
      rcases List.infix_cons_iff.mp inside with here | later
      · have whole : c :: (b ++ pat.dropLast) <+: c :: s := by
          rw [eq_of_cut? found, List.append_assoc]
          apply (List.prefix_cons_inj c).mpr
          apply (List.prefix_append_right_inj b).mpr
          exact (List.dropLast_prefix pat).trans (List.prefix_append pat a)
        obtain ⟨rest, same⟩ := here.trans whole
        rw [stripPrefix?_eq_some_iff.mpr same.symm] at other
        cases other
      · exact ih found later

theorem stripPrefix?_append_cons (other : c ∉ pat) (s rest : List Char) :
    stripPrefix? pat (s ++ c :: rest) = (stripPrefix? pat s).map (· ++ c :: rest) := by
  cases found : stripPrefix? pat s with
  | some later =>
      rw [stripPrefix?_eq_some_iff.mp found, List.append_assoc, stripPrefix?_append, Option.map_some]
  | none =>
      have apart := startsWith_append_cons other s rest
      rw [startsWith, startsWith, found] at apart
      rw [Option.map_none, ← Option.isNone_iff_eq_none, ← Option.isSome_eq_false_iff, apart]
      rfl

/-- An occurrence does not reach over a character that the pattern does not hold. -/
theorem cut?_append_cons (other : c ∉ pat) (s rest : List Char) :
    cut? pat (s ++ c :: rest) =
      match cut? pat s with
      | some (before, after) => some (before, after ++ c :: rest)
      | none => (cut? pat rest).map fun (before, after) => (s ++ c :: before, after) := by
  induction s with
  | nil =>
      have here := stripPrefix?_append_cons other [] rest
      rw [List.nil_append] at here ⊢
      conv_lhs => rw [cut?, here]
      cases pat with
      | nil => rfl
      | cons p pat => rfl
  | cons x s ih =>
      have here := stripPrefix?_append_cons other (x :: s) rest
      rw [List.cons_append] at here ⊢
      rw [cut?, cut?, here, ih]
      cases stripPrefix? pat (x :: s) with
      | some later => rfl
      | none =>
          cases cut? pat s with
          | some parts => rfl
          | none => simp [Function.comp_def]

theorem contains_append_cons (other : c ∉ pat) (s rest : List Char) :
    contains pat (s ++ c :: rest) = (contains pat s || contains pat rest) := by
  rw [contains, contains, contains, cut?_append_cons other]
  cases cut? pat s with
  | some parts => rfl
  | none => rw [Option.isSome_map, Option.isSome_none, Bool.false_or]

theorem contains_nil (filled : pat ≠ []) : contains pat [] = false := by
  rw [contains, cut?, if_neg filled]
  rfl

/-- Characters that the pattern does not hold may stand in front of a text or behind it. -/
theorem contains_disjoint_append {lead : List Char} (filled : pat ≠ []) (apart : lead.Disjoint pat) :
    contains pat (lead ++ s) = contains pat s := by
  induction lead with
  | nil => rfl
  | cons c lead ih =>
      obtain ⟨other, apart⟩ := List.disjoint_cons_left.mp apart
      have first := contains_append_cons other [] (lead ++ s)
      rw [contains_nil filled, Bool.false_or] at first
      exact first.trans (ih apart)

theorem contains_append_disjoint (filled : pat ≠ []) (apart : rest.Disjoint pat) :
    contains pat (s ++ rest) = contains pat s := by
  cases rest with
  | nil => rw [List.append_nil]
  | cons c rest =>
      obtain ⟨other, apart⟩ := List.disjoint_cons_left.mp apart
      have nothing := contains_disjoint_append (s := []) filled apart
      rw [List.append_nil, contains_nil filled] at nothing
      rw [contains_append_cons other, nothing, Bool.or_false]

/-- A text with several pieces begins with the first piece and the separator. -/
theorem exists_eq_of_pieces {sep : Char} {first second : List Char} {others : List (List Char)}
    (h : pieces sep s = first :: second :: others) :
    sep ∉ first ∧ ∃ rest, s = first ++ sep :: rest := by
  by_cases inside : sep ∈ s
  · obtain ⟨lead, rest, rfl, clean⟩ := List.eq_append_cons_of_mem inside
    rw [pieces_append_sep, pieces_of_not_mem clean] at h
    obtain ⟨rfl, -⟩ := List.cons.inj h
    exact ⟨clean, rest, rfl⟩
  · rw [pieces_of_not_mem inside] at h
    cases h

/-- What holds of a text left alone and is kept by one more replacement in front holds of a text and
the text with every occurrence replaced. -/
theorem replaceAll_rec {P : List Char → List Char → Prop} (filled : pat ≠ [])
    (kept : ∀ s, P s s)
    (replaced : ∀ before after after', P after after' →
      P (before ++ pat ++ after) (before ++ new ++ after'))
    (s : List Char) : P s (replaceAll pat new s) := by
  induction size : s.length using Nat.strong_induction_on generalizing s with
  | _ n ih =>
      cases found : cut? pat s with
      | none =>
          have absent : contains pat s = false := by
            rw [contains, found]
            rfl
          rw [replaceAll_of_not_contains absent]
          exact kept s
      | some parts =>
          obtain ⟨before, after⟩ := parts
          have shape := eq_of_cut? found
          have shorter : after.length < n := by
            have long := List.length_pos_of_ne_nil filled
            rw [← size, shape, List.length_append, List.length_append]
            omega
          rw [replaceAll_of_cut? filled found]
          conv_lhs => rw [shape]
          exact replaced before after _ (ih after.length shorter after rfl)

/-- A character that the pattern does not hold separates what is replaced. -/
theorem replaceFrom_append_cons (other : c ∉ pat) (filled : pat ≠ []) {skip : Nat}
    (inside : skip ≤ s.length) : replaceFrom pat new skip (s ++ c :: rest) =
      replaceFrom pat new skip s ++ c :: replaceFrom pat new 0 rest := by
  induction s generalizing skip with
  | nil =>
      obtain rfl : skip = 0 := Nat.le_zero.mp inside
      obtain ⟨p, pat, rfl⟩ := List.exists_cons_of_ne_nil filled
      have apart : startsWith (p :: pat) (c :: rest) = false := by
        rw [startsWith, stripPrefix?, if_neg (List.ne_of_not_mem_cons other).symm]
        rfl
      change replaceFrom (p :: pat) new 0 (c :: rest) = c :: replaceFrom (p :: pat) new 0 rest
      rw [replaceFrom, if_neg (Bool.eq_false_iff.mp apart)]
  | cons x s ih =>
      cases skip with
      | succ skip => exact ih (Nat.le_of_succ_le_succ inside)
      | zero =>
          have same : startsWith pat (x :: (s ++ c :: rest)) = startsWith pat (x :: s) :=
            startsWith_append_cons other (x :: s) rest
          rw [List.cons_append, replaceFrom, replaceFrom, same]
          split
          · rename_i found
            obtain ⟨after, shape⟩ := startsWith_iff.mp found
            have short : pat.length - 1 ≤ s.length := by
              have := congrArg List.length shape
              rw [List.length_cons, List.length_append] at this
              omega
            rw [ih short, List.append_assoc]
          · rw [ih (Nat.zero_le _)]
            rfl

theorem replaceAll_append_cons (other : c ∉ pat) (filled : pat ≠ []) :
    replaceAll pat new (s ++ c :: rest) = replaceAll pat new s ++ c :: replaceAll pat new rest := by
  simp only [replaceAll, if_neg filled]
  exact replaceFrom_append_cons other filled (Nat.zero_le _)

/-- A pattern that ends at its only `c` is found at the first `c` of a text or behind it. -/
theorem not_contains_append_cons {lead : List Char} (single : c ∉ pat) (first : c ∉ lead)
    (here : ¬ pat <:+ lead) (later : contains (pat ++ [c]) rest = false) :
    contains (pat ++ [c]) (lead ++ c :: rest) = false := by
  apply Bool.eq_false_iff.mpr
  intro found
  obtain ⟨before, after, shape⟩ := contains_iff.mp found
  have whole : lead ++ c :: rest = (before ++ pat) ++ c :: after := by
    rw [shape]
    simp only [List.append_assoc, List.cons_append, List.nil_append]
  rcases List.append_eq_append_iff.mp whole with ⟨between, front, back⟩ | ⟨between, front, back⟩
  · cases between with
    | nil => exact here ⟨before, by rw [front, List.append_nil]⟩
    | cons x between =>
        obtain ⟨rfl, tail⟩ := List.cons.inj back
        -- The pattern lies behind this `c`, which it does not hold.
        have behind : pat <:+ between := by
          have ends : pat <:+ lead ++ c :: between := ⟨before, front⟩
          rcases List.suffix_or_suffix_of_suffix ends (List.suffix_append lead (c :: between))
            with shorter | longer
          · rcases List.suffix_cons_iff.mp shorter with rfl | shorter
            · exact absurd List.mem_cons_self single
            · exact shorter
          · exact absurd (longer.mem List.mem_cons_self) single
        obtain ⟨skipped, rfl⟩ := behind
        have again : contains (pat ++ [c]) rest = true := by
          rw [tail, contains_iff]
          exact ⟨skipped, after, by simp⟩
        rw [again] at later
        cases later
  · cases between with
    | nil => exact here ⟨before, by rw [front, List.append_nil]⟩
    | cons x between =>
        obtain ⟨rfl, -⟩ := List.cons.inj back
        apply first
        rw [front]
        exact List.mem_append_right _ List.mem_cons_self

/-- A pattern that ends at its only `c` is found across the first `c` of a text or behind it. -/
theorem contains_append_closing {lead : List Char} (single : c ∉ pat) (first : c ∉ lead) :
    contains (pat ++ [c]) (lead ++ c :: rest) = (endsWith pat lead || contains (pat ++ [c]) rest) := by
  cases here : endsWith pat lead with
  | true =>
      obtain ⟨front, rfl⟩ := suffix_iff_endsWith.mpr here
      rw [Bool.true_or, contains_iff]
      exact ⟨front, rest, by simp⟩
  | false =>
      rw [Bool.false_or]
      cases later : contains (pat ++ [c]) rest with
      | true =>
          obtain ⟨before, after, rfl⟩ := contains_iff.mp later
          exact contains_iff.mpr ⟨lead ++ c :: before, after, by simp⟩
      | false =>
          have apart : ¬pat <:+ lead := fun ends => by
            rw [suffix_iff_endsWith, here] at ends
            cases ends
          exact not_contains_append_cons single first apart later

theorem contains_of_not_mem (inside : c ∈ pat) (absent : c ∉ s) :
    contains pat s = false := by
  apply Bool.eq_false_iff.mpr
  intro found
  exact absent ((infix_iff_contains.mpr found).mem inside)

end ToolWrappers.Text
