import ToolWrappers.Proofs.DocumentedNames
import ToolWrappers.Proofs.Occurrences
import ToolWrappers.Usage.Call

/-! Commands whose arguments are all well named. A scan from left to right keeps what decides whether
an `=` may come next; it fails at the first `=` that could end a bad name. Some words are watched for:
the scan lets no `=` follow them, so that a fixup may later put another hyphen before them. -/

namespace ToolWrappers.Usage

/-- What a text read so far says about the next `=`. -/
inductive Spot
  /-- An `=` could end a bad name. -/
  | plain
  /-- A single hyphen was read. -/
  | hyphen
  /-- The option of the tool selector was read. -/
  | selector
  /-- The item has had its first `=`, behind an option of the runner. -/
  | skipped
  /-- These name characters were read after two hyphens, and more of them may matter. -/
  | word (read : List Char)
  /-- A name was read after two hyphens. -/
  | named
deriving DecidableEq

namespace Spot

/-- The option of the working directory. -/
def directory : List Char := "wd".toList

/-- Where a word is left that is read after two hyphens. -/
def follow (watched : List (List Char)) (read : List Char) : Spot :=
  if watched.any (·.isPrefixOf read) then .plain
  else if (directory :: watched).any (read.isPrefixOf ·) then .word read
  else .named

/-- Whether an `=` may come next. -/
def mayEnd (watched : List (List Char)) : Spot → Bool
  | .plain | .hyphen => false
  | .selector | .skipped | .named => true
  | .word read => !read.isEmpty && !watched.contains (read ++ ['='])

/-- What an `=` leads to. -/
def past : Spot → Spot
  | .selector | .skipped => .skipped
  | .word read => if read = directory then .skipped else .plain
  | .plain | .hyphen | .named => .plain

/-- What a character that is neither a hyphen nor an `=` leads to. -/
def onto (watched : List (List Char)) (c : Char) : Spot → Spot
  | .hyphen => if c = 'r' then .selector else .plain
  | .word read => if Text.isNameChar c then follow watched (read ++ [c]) else .plain
  | .named => if Text.isNameChar c then .named else .plain
  | .skipped => .skipped
  | .plain | .selector => .plain

/-- One step of the scan. -/
def next (watched : List (List Char)) (spot : Spot) (c : Char) : Option Spot :=
  if c = '-' then some (if spot = .hyphen then .word [] else .hyphen)
  else if c = '=' then if spot.mayEnd watched then some spot.past else none
  else some (spot.onto watched c)

/-- Where an item of a command begins: behind two hyphens if it is not the first one. -/
def start (later : Bool) : Spot := if later then .word [] else .plain

end Spot

/-- Reads a text that stands at `spot`. Words that are watched for can end no name. -/
def scan (watched : List (List Char)) (spot : Spot) (s : List Char) : Option Spot :=
  s.foldlM (Spot.next watched) spot

section

variable {watched : List (List Char)} {spot after : Spot} {s rest : List Char} {c : Char}

theorem Spot.follow_ne_hyphen (read : List Char) : follow watched read ≠ .hyphen := by
  unfold follow
  split
  · exact Spot.noConfusion
  · split
    · exact Spot.noConfusion
    · exact Spot.noConfusion

theorem Spot.onto_ne_hyphen : spot.onto watched c ≠ .hyphen := by
  cases spot with
  | plain => exact Spot.noConfusion
  | selector => exact Spot.noConfusion
  | skipped => exact Spot.noConfusion
  | hyphen =>
      rw [onto]
      split
      · exact Spot.noConfusion
      · exact Spot.noConfusion
  | word read =>
      rw [onto]
      split
      · exact follow_ne_hyphen (read ++ [c])
      · exact Spot.noConfusion
  | named =>
      rw [onto]
      split
      · exact Spot.noConfusion
      · exact Spot.noConfusion

theorem Spot.past_ne_hyphen : spot.past ≠ .hyphen := by
  cases spot with
  | word read =>
      rw [past]
      split
      · exact Spot.noConfusion
      · exact Spot.noConfusion
  | plain => exact Spot.noConfusion
  | hyphen => exact Spot.noConfusion
  | selector => exact Spot.noConfusion
  | skipped => exact Spot.noConfusion
  | named => exact Spot.noConfusion

theorem scan_cons :
    scan watched spot (c :: s) = (spot.next watched c).bind fun there => scan watched there s := by
  rw [scan, List.foldlM_cons]
  rfl

theorem scan_append :
    scan watched spot (s ++ rest) = (scan watched spot s).bind fun there => scan watched there rest := by
  rw [scan, List.foldlM_append]
  rfl

theorem scan_append_eq_some_iff : scan watched spot (s ++ rest) = some after ↔
    ∃ there, scan watched spot s = some there ∧ scan watched there rest = some after := by
  rw [scan_append, Option.bind_eq_some_iff]

/-- Two hyphens begin an item, unless the first of them ends a pair. -/
theorem scan_hyphens (other : spot ≠ .hyphen) :
    scan watched spot "--".toList = some (Spot.start true) := by
  have first : spot.next watched '-' = some .hyphen := by rw [Spot.next, if_pos rfl, if_neg other]
  change scan watched spot ['-', '-'] = _
  rw [scan_cons, first]
  rfl

/-- What is known of the part of an item that was read. -/
def Reads (later : Bool) (lead : List Char) : Spot → Prop
  | .plain => True
  | .hyphen => "-".toList <:+ lead
  | .selector => "-r".toList <:+ lead
  | .skipped => '=' ∈ lead
  | .word read => later = true ∧ lead = read ∧ ∀ c ∈ read, Text.isNameChar c = true
  | .named => later = true ∧ Text.isName lead = true

theorem reads_start (later : Bool) : Reads later [] (Spot.start later) := by
  cases later with
  | false => trivial
  | true => exact ⟨rfl, rfl, List.forall_mem_nil _⟩

theorem reads_follow {lead : List Char} (named : Text.isName lead = true) :
    Reads true lead (Spot.follow watched lead) := by
  unfold Spot.follow
  split
  · trivial
  · split
    · exact ⟨rfl, rfl, (Text.isName_iff.mp named).2⟩
    · exact ⟨rfl, named⟩

theorem isName_concat {lead : List Char} (named : ∀ c ∈ lead, Text.isNameChar c = true)
    (last : Text.isNameChar c = true) : Text.isName (lead ++ [c]) = true := by
  apply Text.isName_iff.mpr
  constructor
  · exact List.concat_ne_nil c lead
  · intro x member
    rcases List.mem_append.mp member with early | late
    · exact named x early
    · rwa [List.mem_singleton.mp late]

theorem reads_onto {later : Bool} {lead : List Char} (known : Reads later lead spot) :
    Reads later (lead ++ [c]) (spot.onto watched c) := by
  cases spot with
  | plain => trivial
  | selector => trivial
  | skipped => exact List.mem_append_left [c] known
  | hyphen =>
      rw [Spot.onto]
      split
      · rename_i letter
        subst letter
        obtain ⟨front, rfl⟩ := known
        exact ⟨front, (List.append_assoc front "-".toList ['r']).symm⟩
      · trivial
  | word read =>
      obtain ⟨rfl, rfl, named⟩ := known
      rw [Spot.onto]
      split
      · rename_i last
        exact reads_follow (isName_concat named last)
      · trivial
  | named =>
      obtain ⟨rfl, named⟩ := known
      rw [Spot.onto]
      split
      · rename_i last
        exact ⟨rfl, isName_concat (Text.isName_iff.mp named).2 last⟩
      · trivial

theorem reads_past {later : Bool} {lead : List Char} : Reads later (lead ++ ['=']) spot.past := by
  have sign : '=' ∈ lead ++ ['='] := List.mem_append_right lead List.mem_cons_self
  cases spot with
  | word read =>
      rw [Spot.past]
      split
      · exact sign
      · trivial
  | plain => trivial
  | hyphen => trivial
  | selector => exact sign
  | skipped => exact sign
  | named => trivial

/-- The invariant of the scan inside an item, which holds no two hyphens in a row. -/
theorem reads_next {later : Bool} {lead : List Char} (known : Reads later lead spot)
    (single : ¬ "--".toList <:+: lead ++ [c]) (moved : spot.next watched c = some after) :
    Reads later (lead ++ [c]) after := by
  rw [Spot.next] at moved
  split at moved
  · rename_i hyphen
    subst hyphen
    by_cases pair : spot = .hyphen
    · subst pair
      obtain ⟨front, rfl⟩ := known
      exact absurd ⟨front, [], by simp⟩ single
    · rw [if_neg pair] at moved
      cases moved
      exact ⟨lead, rfl⟩
  · split at moved
    · rename_i sign
      subst sign
      split at moved
      · cases moved
        exact reads_past
      · cases moved
    · cases moved
      exact reads_onto known

theorem reads_of_scan {later : Bool} {lead : List Char} (single : ¬ "--".toList <:+: lead)
    (scanned : scan watched (Spot.start later) lead = some after) : Reads later lead after := by
  induction lead using List.reverseRecOn generalizing after with
  | nil =>
      cases scanned
      exact reads_start later
  | append_singleton lead c ih =>
      obtain ⟨there, early, last⟩ := scan_append_eq_some_iff.mp scanned
      rw [scan_cons, Option.bind_eq_some_iff] at last
      obtain ⟨_, moved, done⟩ := last
      cases done
      have known := ih (fun inside => single (inside.trans (List.prefix_append lead [c]).isInfix)) early
      exact reads_next known single moved

/-- The first `=` of an item ends the tool selector or a name. -/
theorem selects_or_named {later : Bool} {lead : List Char} (single : ¬ "--".toList <:+: lead)
    (first : '=' ∉ lead)
    (scanned : scan watched (Spot.start later) (lead ++ '=' :: rest) = some after) :
    "-r".toList <:+ lead ∨ Text.isName lead = true := by
  obtain ⟨there, early, late⟩ := scan_append_eq_some_iff.mp scanned
  have known := reads_of_scan single early
  rw [scan_cons, Option.bind_eq_some_iff] at late
  obtain ⟨_, moved, -⟩ := late
  cases there with
  | plain => cases moved
  | hyphen => cases moved
  | selector => exact .inl known
  | skipped => exact absurd known first
  | named => exact .inr known.2
  | word read =>
      obtain ⟨-, rfl, named⟩ := known
      refine .inr (Text.isName_iff.mpr ⟨?_, named⟩)
      rintro rfl
      cases moved

/-- Each item is scanned by itself, whatever stands before it. -/
theorem scan_of_mem_splitOn {later : Bool}
    (scanned : scan watched (Spot.start later) s = some after) {item : List Char}
    (member : item ∈ Text.splitOn "--".toList s) :
    ∃ other, (scan watched (Spot.start other) item).isSome ∧ ¬ "--".toList <:+: item := by
  induction size : s.length using Nat.strong_induction_on generalizing later s with
  | _ n ih =>
      cases found : Text.cut? "--".toList s with
      | none =>
          have absent : Text.contains "--".toList s = false := by
            rw [Text.contains, found]
            rfl
          rw [Text.splitOn_of_not_contains absent] at member
          obtain rfl := List.mem_singleton.mp member
          refine ⟨later, Option.isSome_of_mem scanned, ?_⟩
          intro inside
          rw [Text.infix_iff_contains.mp inside] at absent
          cases absent
      | some parts =>
          obtain ⟨before, tail⟩ := parts
          have filled : "--".toList ≠ [] := List.cons_ne_nil '-' ['-']
          have first : ¬ "--".toList <:+: before ++ ['-'] := Text.not_infix_of_cut? filled found
          have single : ¬ "--".toList <:+: before := fun inside =>
            first (inside.trans (List.prefix_append before ['-']).isInfix)
          rw [Text.eq_of_cut? found, List.append_assoc] at scanned
          obtain ⟨there, early, late⟩ := scan_append_eq_some_iff.mp scanned
          rw [Text.splitOn_of_cut? filled found] at member
          rcases List.mem_cons.mp member with rfl | member
          · exact ⟨later, Option.isSome_of_mem early, single⟩
          · -- A hyphen at the end of the piece would make an earlier occurrence.
            have apart : there ≠ .hyphen := by
              rintro rfl
              obtain ⟨front, rfl⟩ := reads_of_scan single early
              exact first ⟨front, [], by simp⟩
            rw [scan_append, scan_hyphens apart] at late
            apply ih tail.length _ late member rfl
            rw [← size, Text.eq_of_cut? found]
            simp only [List.length_append]
            have := List.length_pos_of_ne_nil filled
            omega

theorem isName_of_argument? {later : Bool} {item : List Char}
    (scanned : scan watched (Spot.start later) item = some after)
    (single : ¬ "--".toList <:+: item) {a : Argument} (read : argument? (Text.trim item) = some a) :
    Text.isName a.name.toList = true := by
  obtain ⟨front, back, whole, blank, -⟩ := Text.exists_eq_append_trim item
  unfold argument? at read
  split at read
  · cases read
  · rename_i kept
    split at read
    · rename_i name value others split
      cases read
      rw [String.toList_ofList]
      obtain ⟨clean, rest, shape⟩ := Text.exists_eq_of_pieces split
      have lead : item = (front ++ name) ++ '=' :: (rest ++ back) := by
        rw [whole, shape]
        simp only [List.append_assoc, List.cons_append]
      rw [lead] at scanned single
      have prior : ¬ "--".toList <:+: front ++ name := fun inside =>
        single (inside.trans (List.prefix_append _ _).isInfix)
      have fresh : '=' ∉ front ++ name := by
        rw [List.mem_append, not_or]
        exact ⟨DocLine.not_mem_of_blank blank (by decide), clean⟩
      rcases selects_or_named prior fresh scanned with ⟨before, same⟩ | named
      · -- The selector is no argument, and no blank belongs to it.
        exfalso
        have selects : "-r".toList <:+ name := by
          rcases List.append_eq_append_iff.mp same with ⟨between, rfl, tail⟩ | ⟨between, -, tail⟩
          · cases between with
            | nil => exact ⟨[], tail⟩
            | cons first between =>
                obtain ⟨rfl, -⟩ := List.cons.inj tail
                have := blank '-' (List.mem_append_right before List.mem_cons_self)
                cases this
          · exact ⟨between, tail.symm⟩
        apply kept
        obtain ⟨inner, rfl⟩ := selects
        have selected : Text.contains "-r=".toList (Text.trim item) = true := by
          rw [shape, Text.contains_iff]
          exact ⟨inner, rest, by simp⟩
        rw [isRunnerOption, selected]
        rfl
      · cases front with
        | nil => exact named
        | cons first front =>
            have := Text.isNameChar_of_isBlank (blank first List.mem_cons_self)
            rw [(Text.isName_iff.mp named).2 first List.mem_cons_self] at this
            cases this
    · cases read

/-- The arguments of a text that the scan accepts have names. -/
theorem isName_of_scan {later : Bool} (scanned : scan watched (Spot.start later) s = some after)
    {a : Argument} (member : a ∈ arguments (.ofList s)) : Text.isName a.name.toList = true := by
  have text : (String.ofList s).toList = s := String.toList_ofList
  unfold arguments at member
  rw [text] at member
  obtain ⟨trimmed, listed, read⟩ := List.mem_filterMap.mp member
  obtain ⟨item, inside, rfl⟩ := List.mem_map.mp listed
  obtain ⟨other, accepted, single⟩ := scan_of_mem_splitOn scanned inside
  obtain ⟨there, accepted⟩ := Option.isSome_iff_exists.mp accepted
  exact isName_of_argument? accepted single read

end

end ToolWrappers.Usage
