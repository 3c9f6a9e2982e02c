/-! Blank characters and the trimming of text. Trimming removes blanks from the ends only; no
character inside a text is ever touched. -/

namespace ToolWrappers.Text

/-- The code points with the property `White_Space`. The zero-width space, the byte order mark
and the separators U+001C to U+001F are not among them. -/
def blankCodes : List Nat :=
  [0x09, 0x0A, 0x0B, 0x0C, 0x0D, 0x20, 0x85, 0xA0, 0x1680, 0x2000, 0x2001, 0x2002, 0x2003,
    0x2004, 0x2005, 0x2006, 0x2007, 0x2008, 0x2009, 0x200A, 0x2028, 0x2029, 0x202F, 0x205F,
    0x3000]

def isBlank (c : Char) : Bool := blankCodes.contains c.toNat

def trimStart (s : List Char) : List Char := s.dropWhile isBlank

def trimEnd (s : List Char) : List Char := (s.reverse.dropWhile isBlank).reverse

def trim (s : List Char) : List Char := trimEnd (trimStart s)

@[simp] theorem trimStart_nil : trimStart [] = [] := rfl

@[simp] theorem trim_nil : trim [] = [] := rfl

/-- A text in two parts, cut before the first character outside a class. -/
theorem exists_span (p : Char → Bool) (s : List Char) :
    ∃ front rest, s = front ++ rest ∧ s.takeWhile p = front ∧ s.dropWhile p = rest ∧
      (∀ c ∈ front, p c = true) ∧ ∀ c ∈ rest.head?, p c = false := by
  refine ⟨s.takeWhile p, s.dropWhile p, List.takeWhile_append_dropWhile.symm, rfl, rfl,
    List.all_eq_true.mp List.all_takeWhile, ?_⟩
  intro c first
  have stop := List.head?_dropWhile_not p s
  rw [Option.mem_def.mp first] at stop
  exact stop

/-- Trimming the end removes blanks only. -/
theorem exists_eq_trimEnd_append (s : List Char) :
    ∃ t, s = trimEnd s ++ t ∧ ∀ c ∈ t, isBlank c = true := by
  obtain ⟨tail, kept, whole, -, left, blank, -⟩ := exists_span isBlank s.reverse
  refine ⟨tail.reverse, ?_, fun c member => blank c (List.mem_reverse.mp member)⟩
  rw [trimEnd, left, ← List.reverse_append, ← whole, List.reverse_reverse]

/-- Trimming removes blanks from both ends. -/
theorem exists_eq_append_trim (s : List Char) :
    ∃ front back, s = front ++ trim s ++ back ∧
      (∀ c ∈ front, isBlank c = true) ∧ ∀ c ∈ back, isBlank c = true := by
  obtain ⟨front, rest, whole, -, left, before, -⟩ := exists_span isBlank s
  obtain ⟨back, kept, after⟩ := exists_eq_trimEnd_append rest
  refine ⟨front, back, ?_, before, after⟩
  rw [trim, trimStart, left, List.append_assoc, ← kept, ← whole]

end ToolWrappers.Text
