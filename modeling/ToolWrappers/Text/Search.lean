/-! Looking for one text inside another: prefixes and suffixes, the first occurrence, splitting and
replacing at every occurrence. Occurrences are taken from the left and never overlap. -/

namespace ToolWrappers.Text

/-- What follows `lead`, if the text begins with it. -/
def stripPrefix? : List Char → List Char → Option (List Char)
  | [], s => some s
  | _ :: _, [] => none
  | p :: ps, c :: s => if p = c then stripPrefix? ps s else none

/-- What precedes `tail`, if the text ends with it. -/
def stripSuffix? (tail s : List Char) : Option (List Char) :=
  (stripPrefix? tail.reverse s.reverse).map List.reverse

def startsWith (lead s : List Char) : Bool := (stripPrefix? lead s).isSome

def endsWith (tail s : List Char) : Bool := (stripSuffix? tail s).isSome

theorem stripPrefix?_eq_some_iff {lead s rest : List Char} :
    stripPrefix? lead s = some rest ↔ s = lead ++ rest := by
  fun_induction stripPrefix? lead s with
  | case1 s => simp [eq_comm]
  | case2 p ps => simp
  | case3 ps c s ih => simpa using ih
  | case4 p ps c s h => simp [Ne.symm h]

theorem stripPrefix?_append (lead rest : List Char) :
    stripPrefix? lead (lead ++ rest) = some rest :=
  stripPrefix?_eq_some_iff.mpr rfl

theorem stripSuffix?_eq_some_iff {tail s rest : List Char} :
    stripSuffix? tail s = some rest ↔ s = rest ++ tail := by
  simp only [stripSuffix?, Option.map_eq_some_iff, stripPrefix?_eq_some_iff]
  constructor
  · rintro ⟨r, h, rfl⟩
    have := congrArg List.reverse h
    simpa using this
  · intro h
    exact ⟨rest.reverse, by simp [h], by simp⟩

theorem startsWith_iff {lead s : List Char} :
    startsWith lead s = true ↔ ∃ rest, s = lead ++ rest := by
  simp only [startsWith, Option.isSome_iff_exists, stripPrefix?_eq_some_iff]

/-- A character that `lead` does not hold ends the part of the text in which it can lie. -/
theorem startsWith_append_cons {lead : List Char} {c : Char} (other : c ∉ lead)
    (s rest : List Char) : startsWith lead (s ++ c :: rest) = startsWith lead s := by
  unfold startsWith
  induction lead generalizing s with
  | nil => rfl
  | cons p lead ih =>
    cases s with
    | nil => simp [stripPrefix?, (List.ne_of_not_mem_cons other).symm]
    | cons first s =>
      by_cases same : p = first
      · simpa [stripPrefix?, same] using ih (List.not_mem_of_not_mem_cons other) s
      · simp [stripPrefix?, same]

/-- The text before and after the first occurrence of `pat`. -/
def cut? (pat : List Char) : List Char → Option (List Char × List Char)
  | [] => if pat = [] then some ([], []) else none
  | c :: s =>
    match stripPrefix? pat (c :: s) with
    | some rest => some ([], rest)
    | none => (cut? pat s).map fun (before, after) => (c :: before, after)

def contains (pat s : List Char) : Bool := (cut? pat s).isSome

/-- Everything between the occurrences of `pat`; `skip` characters still belong to the occurrence
just met. -/
def splitFrom (pat : List Char) : Nat → List Char → List (List Char)
  | _, [] => [[]]
  | skip + 1, _ :: s => splitFrom pat skip s
  | 0, c :: s =>
    if startsWith pat (c :: s) then [] :: splitFrom pat (pat.length - 1) s
    else
      match splitFrom pat 0 s with
      | [] => [[c]]
      | piece :: pieces => (c :: piece) :: pieces

/-- The pieces of a text between the occurrences of a non-empty `pat`: one more piece than there
are occurrences. -/
def splitOn (pat s : List Char) : List (List Char) := splitFrom pat 0 s

/-- Every occurrence of a non-empty `pat` becomes `new`; `skip` characters still belong to the
occurrence just replaced. -/
def replaceFrom (pat new : List Char) : Nat → List Char → List Char
  | _, [] => []
  | skip + 1, _ :: s => replaceFrom pat new skip s
  | 0, c :: s =>
    if startsWith pat (c :: s) then new ++ replaceFrom pat new (pat.length - 1) s
    else c :: replaceFrom pat new 0 s

/-- Every occurrence of `pat` becomes `new`. The empty text occurs before every character and at
the end. -/
def replaceAll (pat new s : List Char) : List Char :=
  if pat = [] then s.flatMap (fun c => new ++ [c]) ++ new else replaceFrom pat new 0 s

/-- The first occurrence of `pat` becomes `new`. -/
def replaceFirst (pat new s : List Char) : List Char :=
  match cut? pat s with
  | none => s
  | some (before, after) => before ++ new ++ after

theorem eq_of_cut? {pat s before after : List Char} (h : cut? pat s = some (before, after)) :
    s = before ++ pat ++ after := by
  fun_induction cut? pat s generalizing before with
  | case1 => simp_all
  | case2 => simp at h
  | case3 c s rest hp =>
    obtain ⟨rfl, rfl⟩ : [] = before ∧ rest = after := by simpa using h
    simpa using stripPrefix?_eq_some_iff.mp hp
  | case4 c s hp ih =>
    obtain ⟨⟨b, a⟩, hc, he⟩ := Option.map_eq_some_iff.mp h
    obtain ⟨rfl, rfl⟩ : c :: b = before ∧ a = after := by simpa using he
    simp [ih hc]

/-- The first occurrence is found even if it overlaps with a later one. -/
theorem cut?_append_of_not_mem {c : Char} {pat before : List Char} (clean : c ∉ before)
    (after : List Char) :
    cut? (c :: pat) (before ++ ((c :: pat) ++ after)) = some (before, after) := by
  induction before with
  | nil =>
    rw [List.nil_append, List.cons_append, cut?, ← List.cons_append, stripPrefix?_append]
  | cons first before ih =>
    have other : stripPrefix? (c :: pat) (first :: (before ++ ((c :: pat) ++ after))) = none :=
      if_neg (List.ne_of_not_mem_cons clean)
    rw [List.cons_append, cut?, other]
    simp only [ih (List.not_mem_of_not_mem_cons clean), Option.map_some]

theorem contains_iff {pat s : List Char} :
    contains pat s = true ↔ ∃ before after, s = before ++ pat ++ after := by
  unfold contains
  constructor
  · intro h
    obtain ⟨⟨before, after⟩, found⟩ := Option.isSome_iff_exists.mp h
    exact ⟨before, after, eq_of_cut? found⟩
  · rintro ⟨before, after, rfl⟩
    induction before with
    | nil =>
      cases pat with
      | nil => cases after <;> simp [cut?, stripPrefix?]
      | cons p pat =>
        rw [List.nil_append, List.cons_append, cut?, ← List.cons_append, stripPrefix?_append]
        rfl
    | cons first before ih =>
      rw [List.cons_append, List.cons_append, cut?]
      split
      · rfl
      · rw [Option.isSome_map, ih]

theorem replaceFrom_length_append (pat new lead rest : List Char) :
    replaceFrom pat new lead.length (lead ++ rest) = replaceFrom pat new 0 rest := by
  induction lead with
  | nil => rfl
  | cons c lead ih => exact ih

theorem replaceAll_of_cut? {pat s before after : List Char} (filled : pat ≠ [])
    (h : cut? pat s = some (before, after)) (new : List Char) :
    replaceAll pat new s = before ++ new ++ replaceAll pat new after := by
  simp only [replaceAll, if_neg filled]
  fun_induction cut? pat s generalizing before with
  | case1 => simp_all
  | case2 => simp at h
  | case3 c s rest hp =>
    obtain ⟨rfl, rfl⟩ : [] = before ∧ rest = after := by simpa using h
    obtain ⟨p, pat, rfl⟩ := List.exists_cons_of_ne_nil filled
    have shape := stripPrefix?_eq_some_iff.mp hp
    rw [List.cons_append] at shape
    obtain ⟨rfl, rfl⟩ := List.cons.inj shape
    rw [replaceFrom, startsWith, hp, Option.isSome_some, if_pos rfl, List.length_cons,
      Nat.add_sub_cancel, replaceFrom_length_append]
    rfl
  | case4 c s hp ih =>
    obtain ⟨⟨b, a⟩, hc, he⟩ := Option.map_eq_some_iff.mp h
    obtain ⟨rfl, rfl⟩ : c :: b = before ∧ a = after := by simpa using he
    rw [replaceFrom, startsWith, hp, Option.isSome_none, if_neg Bool.false_ne_true, ih hc]
    rfl

theorem replaceAll_of_not_contains {pat s : List Char} (absent : contains pat s = false)
    (new : List Char) : replaceAll pat new s = s := by
  have filled : pat ≠ [] := by
    rintro rfl
    cases s <;> simp [contains, cut?, stripPrefix?] at absent
  rw [replaceAll, if_neg filled]
  induction s with
  | nil => rfl
  | cons c s ih =>
    rw [contains, cut?] at absent
    split at absent
    · simp at absent
    · rename_i other
      rw [Option.isSome_map] at absent
      rw [replaceFrom, startsWith, other, Option.isSome_none, if_neg Bool.false_ne_true, ih absent]

end ToolWrappers.Text
