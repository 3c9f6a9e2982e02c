import Mathlib.Computability.Language
import ToolWrappers.Catalogue.Banner
import ToolWrappers.Text.Blank

/-! Banners by their parts. The test for a banner commits to one cut of the line, with a single blank after
the text. A line that can be cut into the parts of a banner in any way passes it, and so the test agrees with
the pattern, which leaves the cut open. -/

namespace ToolWrappers

namespace Banner

/-- A banner in its parts. Behind its first character the text may hold anything, number signs and blanks
included. -/
structure Parts where
  before : List Char
  first : Char
  rest : List Char
  after : List Char
  before_ne_nil : before ≠ [] := by decide
  before_blank : before ⊆ [' ', '\t'] := by decide
  first_plain : first ∉ ['#', ' ', '\t'] := by decide
  after_ne_nil : after ≠ [] := by decide
  after_blank : after ⊆ [' ', '\t'] := by decide

namespace Parts

def text (p : Parts) : List Char := p.first :: p.rest

def line (p : Parts) : List Char := ['#'] ++ p.before ++ p.text ++ p.after ++ ['#']

theorem text_subset_line (p : Parts) : p.text ⊆ p.line := by
  intro c member
  simp [line, member]

end Parts

variable {c : Char} {s line : List Char}

theorem isBlank_iff : isBlank c = true ↔ c ∈ [' ', '\t'] := by simp [isBlank]

theorem closes_append (front : List Char) (c : Char) : closes (front ++ [c, '#']) = isBlank c := by
  simp [closes]

theorem exists_of_closes (h : closes s = true) :
    ∃ front c, s = front ++ [c, '#'] ∧ isBlank c = true := by
  unfold closes at h
  split at h
  · rename_i c front reversed
    exact ⟨front.reverse, c, by simpa using congrArg List.reverse reversed, h⟩
  · cases h

/-- A line that passes the test can be cut with a single blank after the text. -/
theorem exists_parts_of_isBanner (h : isBanner line = true) : ∃ p : Parts, p.line = line := by
  unfold isBanner at h
  split at h
  · rename_i c inner
    obtain ⟨blank, h⟩ := Bool.and_eq_true_iff.mp h
    obtain ⟨more, cut, rfl, -, left, blanks, stop⟩ := Text.exists_span isBlank inner
    rw [left] at h
    cases cut with
    | nil => cases h
    | cons first tail =>
        obtain ⟨unsigned, closed⟩ := Bool.and_eq_true_iff.mp h
        obtain ⟨rest, last, rfl, lastBlank⟩ := exists_of_closes closed
        refine ⟨⟨c :: more, first, rest, [last], nofun, ?_, ?_, nofun, ?_⟩, ?_⟩
        · intro d member
          rcases List.mem_cons.mp member with rfl | member
          · exact isBlank_iff.mp blank
          · exact isBlank_iff.mp (blanks d member)
        · intro member
          rcases List.mem_cons.mp member with rfl | member
          · cases unsigned
          · have plain := stop first rfl
            rw [isBlank_iff.mpr member] at plain
            cases plain
        · exact List.cons_subset.mpr ⟨isBlank_iff.mp lastBlank, List.nil_subset _⟩
        · simp [Parts.line, Parts.text]
  · cases h

/-- However a banner is cut, it passes the test. -/
theorem isBanner_line (p : Parts) : isBanner p.line = true := by
  obtain ⟨c, more, before⟩ := List.exists_cons_of_ne_nil p.before_ne_nil
  obtain ⟨init, last, after⟩ := (List.eq_nil_or_concat' p.after).resolve_left p.after_ne_nil
  have shape : p.line = '#' :: c :: (more ++ p.first :: (p.rest ++ init ++ [last, '#'])) := by
    simp [Parts.line, Parts.text, before, after]
  obtain ⟨blank, moreBlank⟩ : isBlank c = true ∧ ∀ d ∈ more, isBlank d = true :=
    List.forall_mem_cons.mp fun d member => isBlank_iff.mpr (p.before_blank (before ▸ member))
  have unsigned : p.first ≠ '#' := List.ne_of_not_mem_cons p.first_plain
  have plain : ¬isBlank p.first = true := fun blank =>
    p.first_plain (List.mem_cons_of_mem '#' (isBlank_iff.mp blank))
  have closed : closes (p.rest ++ init ++ [last, '#']) = true := by
    rw [closes_append, isBlank_iff]
    exact p.after_blank (after ▸ List.mem_concat_self)
  rw [shape, isBanner, List.dropWhile_append_of_pos moreBlank, List.dropWhile_cons_of_neg plain]
  simp only [blank, unsigned, closed, ne_eq, not_false_eq_true, decide_true, Bool.and_self]

theorem isBanner_iff : isBanner line = true ↔ ∃ p : Parts, p.line = line := by
  constructor
  · exact exists_parts_of_isBanner
  · rintro ⟨p, rfl⟩
    exact isBanner_line p

/-- The text of a banner begins with something else than a number sign. -/
theorem not_subset_of_isBanner (h : isBanner line = true) : ¬line ⊆ ['#'] := by
  obtain ⟨p, rfl⟩ := isBanner_iff.mp h
  intro signs
  have sign := signs (p.text_subset_line List.mem_cons_self)
  exact List.ne_of_not_mem_cons p.first_plain (List.mem_singleton.mp sign)

section Pattern

open scoped Computability

variable {among : Char → Prop}

/-- The texts of one character of a class. -/
def one (among : Char → Prop) : Language Char := {s | ∃ c, among c ∧ s = [c]}

/-- The texts of one or more characters of a class. -/
def run (among : Char → Prop) : Language Char := one among * (one among)∗

/-- The texts that `^#[[:blank:]]+([^#[:blank:]].*?)[[:blank:]]+#$` matches. A dot stands for any character
but a line feed. -/
def pattern : Language Char :=
  one (· = '#') * run (· ∈ [' ', '\t']) * (one (· ∉ ['#', ' ', '\t']) * (one (· ≠ '\n'))∗) *
    run (· ∈ [' ', '\t']) * one (· = '#')

theorem mem_kstar_one : s ∈ (one among)∗ ↔ ∀ c ∈ s, among c := by
  rw [Language.mem_kstar]
  constructor
  · rintro ⟨pieces, rfl, single⟩ c member
    obtain ⟨piece, listed, inside⟩ := List.mem_flatten.mp member
    obtain ⟨d, belongs, rfl⟩ := single piece listed
    exact List.mem_singleton.mp inside ▸ belongs
  · intro belong
    refine ⟨s.map ([·]), by rw [← List.flatMap_def, List.flatMap_singleton'], fun piece listed => ?_⟩
    obtain ⟨c, member, rfl⟩ := List.mem_map.mp listed
    exact ⟨c, belong c member, rfl⟩

theorem mem_run : s ∈ run among ↔ s ≠ [] ∧ ∀ c ∈ s, among c := by
  rw [run, Language.mem_mul]
  constructor
  · rintro ⟨_, ⟨c, first, rfl⟩, rest, others, rfl⟩
    exact ⟨List.cons_ne_nil c rest, List.forall_mem_cons.mpr ⟨first, mem_kstar_one.mp others⟩⟩
  · rintro ⟨filled, belong⟩
    obtain ⟨c, rest, rfl⟩ := List.exists_cons_of_ne_nil filled
    obtain ⟨first, others⟩ := List.forall_mem_cons.mp belong
    exact ⟨[c], ⟨c, first, rfl⟩, rest, mem_kstar_one.mpr others, rfl⟩

/-- A line matches the pattern if it can be cut so that the text holds no line feed behind its first
character. -/
theorem mem_pattern_iff : line ∈ pattern ↔ ∃ p : Parts, '\n' ∉ p.rest ∧ p.line = line := by
  constructor
  · rintro ⟨_, ⟨_, ⟨_, ⟨_, ⟨_, rfl, rfl⟩, before, leads, rfl⟩, _, ⟨_, ⟨first, plain, rfl⟩, rest, dots, rfl⟩,
      rfl⟩, after, trails, rfl⟩, _, ⟨_, rfl, rfl⟩, rfl⟩
    obtain ⟨before_ne_nil, before_blank⟩ := mem_run.mp leads
    obtain ⟨after_ne_nil, after_blank⟩ := mem_run.mp trails
    exact ⟨⟨before, first, rest, after, before_ne_nil, before_blank, plain, after_ne_nil, after_blank⟩,
      fun feed => mem_kstar_one.mp dots '\n' feed rfl, rfl⟩
  · rintro ⟨p, single, rfl⟩
    have sign : ['#'] ∈ one (· = '#') := ⟨'#', rfl, rfl⟩
    have before : p.before ∈ run (· ∈ [' ', '\t']) := mem_run.mpr ⟨p.before_ne_nil, p.before_blank⟩
    have first : [p.first] ∈ one (· ∉ ['#', ' ', '\t']) := ⟨p.first, p.first_plain, rfl⟩
    have rest : p.rest ∈ (one (· ≠ '\n'))∗ :=
      mem_kstar_one.mpr fun c member => ne_of_mem_of_not_mem member single
    have after : p.after ∈ run (· ∈ [' ', '\t']) := mem_run.mpr ⟨p.after_ne_nil, p.after_blank⟩
    have text : p.text ∈ one (· ∉ ['#', ' ', '\t']) * (one (· ≠ '\n'))∗ := ⟨_, first, _, rest, rfl⟩
    exact ⟨_, ⟨_, ⟨_, ⟨_, sign, _, before, rfl⟩, _, text, rfl⟩, _, after, rfl⟩, _, sign, rfl⟩

/-- On a line without line feeds the test is the pattern. -/
theorem isBanner_iff_mem_pattern (single : '\n' ∉ line) : isBanner line = true ↔ line ∈ pattern := by
  rw [isBanner_iff, mem_pattern_iff]
  refine exists_congr fun p => ⟨?_, And.right⟩
  rintro rfl
  exact ⟨fun feed => single (p.text_subset_line (List.mem_cons_of_mem p.first feed)), rfl⟩

end Pattern

end Banner

/-- A line is taken for a banner exactly if it matches the pattern, and exactly if it can be cut into a
number sign, blanks, a text that begins with neither, blanks and a number sign. No line of number signs and
no line that begins a definition is one. -/
theorem banner_known_by_parts {line : List Char} (single : '\n' ∉ line) :
    (Banner.isBanner line = true ↔ line ∈ Banner.pattern) ∧
    (Banner.isBanner line = true ↔ ∃ p : Banner.Parts, p.line = line) ∧
    (line ⊆ ['#'] → Banner.isBanner line = false) ∧
    ("def ".toList <+: line → Banner.isBanner line = false) := by
  refine ⟨Banner.isBanner_iff_mem_pattern single, Banner.isBanner_iff, fun signs => ?_, ?_⟩
  · exact Bool.eq_false_iff.mpr fun shaped => Banner.not_subset_of_isBanner shaped signs
  · rintro ⟨rest, rfl⟩
    rfl

/-- A text that holds number signs and blanks and ends like a banner. -/
def Banner.Parts.crowded : Banner.Parts where
  before := [' ', '\t']
  first := 'A'
  rest := " # B #".toList
  after := ['\t', ' ']

theorem banner_known_by_parts_of_crowded :
    '\n' ∉ "# \tA # B #\t #".toList ∧ Banner.isBanner "# \tA # B #\t #".toList = true ∧
      "# \tA # B #\t #".toList ∈ Banner.pattern := by
  have single : '\n' ∉ "# \tA # B #\t #".toList := by decide
  obtain ⟨matched, cut, -⟩ := banner_known_by_parts single
  have shaped := cut.mpr ⟨.crowded, rfl⟩
  exact ⟨single, shaped, matched.mp shaped⟩

end ToolWrappers
