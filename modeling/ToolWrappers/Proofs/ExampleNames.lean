import Mathlib.Data.List.Forall2
import ToolWrappers.Proofs.SafeFixups

/-! What the arguments of a mended example are called. Short flags are spelled out first; the other
fixups then meet flags that have two hyphens already. -/

namespace ToolWrappers.Usage

/-! ### Examples -/

/-- A flag of an example: one of the two short ones, or one with its own name. -/
inductive Flag
  | input (value : String)
  | output (value : String)
  | named (name value : String)
deriving DecidableEq, Repr

namespace Flag

def value : Flag → String
  | .input value | .output value | .named _ value => value

/-- The name of the flag once it is spelled out. -/
def longName : Flag → String
  | .input _ => "input"
  | .output _ => "output"
  | .named name _ => name

/-- The flag as an example has it. -/
def written : Flag → String
  | .input value => "-i=" ++ value
  | .output value => "-o=" ++ value
  | .named name value => "--" ++ name ++ "=" ++ value

/-- The flag with two hyphens and its long name. -/
def long (flag : Flag) : String := "--" ++ flag.longName ++ "=" ++ flag.value

/-- A value may also hold dots. -/
def isValueChar (c : Char) : Bool := Text.isNameChar c || c = '.'

/-- A flag with a name, whose value holds letters, digits, low lines and dots only. -/
structure IsWellFormed (flag : Flag) : Prop where
  named : Text.isName flag.longName.toList = true
  valued : flag.value.toList.all isValueChar = true

instance (flag : Flag) : Decidable flag.IsWellFormed :=
  decidable_of_iff (Text.isName flag.longName.toList = true ∧
      flag.value.toList.all isValueChar = true)
    ⟨fun fits => ⟨fits.1, fits.2⟩, fun fits => ⟨fits.named, fits.valued⟩⟩

end Flag

/-- What stands before the flags of an example. -/
def runner (selected directory : String) : List String :=
  ["./whitebox_tools", "-r=" ++ selected, "-v", "--wd=" ++ directory]

/-- An example command. -/
def command (selected directory : String) (flags : List Flag) : String :=
  " ".intercalate (runner selected directory ++ flags.map Flag.written)

/-- What the first two fixups make of a text. -/
def spellOut (s : List Char) : List Char :=
  Text.replaceAll "-o=".toList "--output=".toList (Text.replaceAll "-i=".toList "--input=".toList s)

/-- The examples that a tool's fixups mend. An `=` behind a hyphen of the selected tool or the directory
could begin an argument of its own, no fixup may find the second hyphen of a flag, and nothing is to
be appended to a hyphen. -/
structure Mendable (fixups : List Fixup) (selected directory : String) (flags : List Flag) : Prop where
  selected_plain : '=' ∉ selected.toList.dropWhile (· ≠ '-')
  directory_plain : '=' ∉ directory.toList.dropWhile (· ≠ '-')
  hyphens : ∀ flag ∈ flags, ∀ fixup ∈ fixups, fixup.takesHyphen flag.longName.toList = false
  ended : flags = [] → directory.toList.getLast? = some '-' → ∀ text, .append text ∉ fixups

/-! ### Spelling flags out -/

section

variable {s rest : List Char} {flag : Flag}

theorem spellOut_append_blank :
    spellOut (s ++ ' ' :: rest) = spellOut s ++ ' ' :: spellOut rest := by
  unfold spellOut
  rw [Text.replaceAll_append_cons (by decide) (by decide),
    Text.replaceAll_append_cons (by decide) (by decide)]

/-- Words are spelled out one by one. -/
theorem spellOut_intercalate {words spelled : List String}
    (each : List.Forall₂ (fun word other => spellOut word.toList = other.toList) words spelled) :
    spellOut (" ".intercalate words).toList = (" ".intercalate spelled).toList := by
  induction each with
  | nil => rfl
  | @cons word other words spelled first rest ih =>
      cases rest with
      | nil =>
          rw [String.intercalate_singleton, String.intercalate_singleton]
          exact first
      | cons =>
          rw [String.intercalate_cons_cons, String.intercalate_cons_cons]
          simp only [String.toList_append, List.append_assoc]
          rw [← ih, ← first]
          exact spellOut_append_blank

/-- No short flag lies in a text without an `=` behind a hyphen. -/
theorem not_contains_of_dropWhile {pat : List Char} (apart : '=' ∉ s.dropWhile (· ≠ '-')) :
    Text.contains ('-' :: pat ++ ['=']) s = false := by
  apply Bool.eq_false_iff.mpr
  intro found
  obtain ⟨before, after, rfl⟩ := Text.contains_iff.mp found
  apply apart
  clear found apart
  induction before with
  | nil => simp
  | cons c before ih =>
      by_cases hyphen : c = '-'
      · subst hyphen
        simp
      · simpa [hyphen] using ih

/-- A short flag can be found only where the `=` ends it. -/
theorem not_contains_short {letter : Char} (other : letter ≠ '=') {lead : List Char}
    (first : '=' ∉ lead) (here : ¬ ['-', letter] <:+ lead)
    (apart : '=' ∉ rest.dropWhile (· ≠ '-')) :
    Text.contains ['-', letter, '='] (lead ++ '=' :: rest) = false := by
  have single : '=' ∉ ['-', letter] := by simp [other.symm]
  exact Text.not_contains_append_cons single first here (not_contains_of_dropWhile apart)

theorem spellOut_of_sign (lead : List Char) (first : '=' ∉ lead) (input : ¬ "-i".toList <:+ lead)
    (output : ¬ "-o".toList <:+ lead) (apart : '=' ∉ rest.dropWhile (· ≠ '-')) :
    spellOut (lead ++ '=' :: rest) = lead ++ '=' :: rest := by
  have input' : Text.contains "-i=".toList (lead ++ '=' :: rest) = false :=
    not_contains_short (by decide) first input apart
  have output' : Text.contains "-o=".toList (lead ++ '=' :: rest) = false :=
    not_contains_short (by decide) first output apart
  rw [spellOut, Text.replaceAll_of_not_contains input', Text.replaceAll_of_not_contains output']

/-- The part before the flags is left alone. -/
theorem spellOut_of_mem_runner {selected directory word : String}
    (selects : '=' ∉ selected.toList.dropWhile (· ≠ '-'))
    (located : '=' ∉ directory.toList.dropWhile (· ≠ '-'))
    (member : word ∈ runner selected directory) : spellOut word.toList = word.toList := by
  simp only [runner, List.mem_cons, List.not_mem_nil, or_false] at member
  rcases member with rfl | rfl | rfl | rfl
  · decide +kernel
  · rw [String.toList_append]
    exact spellOut_of_sign "-r".toList (by decide) (by decide) (by decide) selects
  · decide +kernel
  · rw [String.toList_append]
    exact spellOut_of_sign "--wd".toList (by decide) (by decide) (by decide) located

namespace Flag

theorem IsWellFormed.not_mem_value (fits : flag.IsWellFormed) {c : Char}
    (other : isValueChar c = false) : c ∉ flag.value.toList := by
  intro member
  rw [List.all_eq_true.mp fits.valued c member] at other
  cases other

theorem IsWellFormed.value_plain (fits : flag.IsWellFormed) :
    '=' ∉ flag.value.toList.dropWhile (· ≠ '-') := by
  intro member
  exact fits.not_mem_value (by decide) ((List.dropWhile_suffix _).mem member)

theorem long_toList (flag : Flag) : flag.long.toList =
    ("--".toList ++ flag.longName.toList) ++ '=' :: flag.value.toList := by
  rw [long, String.toList_append, String.toList_append, String.toList_append, List.append_assoc]
  rfl

/-- A name that is not the letter itself does not end in the short flag. -/
theorem not_short_suffix {name : List Char} (named : Text.isName name = true) {letter : Char}
    (other : name ≠ [letter]) : ¬ ['-', letter] <:+ "--".toList ++ name := by
  have clean : '-' ∉ name := DocLine.not_mem_of_isName named (by decide)
  intro ends
  rcases List.suffix_cons_iff.mp ends with same | ends
  · cases same
    exact absurd named (by decide)
  · rcases List.suffix_cons_iff.mp ends with same | ends
    · cases same
      exact other rfl
    · exact clean (ends.mem List.mem_cons_self)

/-- The first two fixups spell out short flags and leave the others alone. -/
theorem spellOut_written (fits : flag.IsWellFormed) (input : flag.longName ≠ "i")
    (output : flag.longName ≠ "o") : spellOut flag.written.toList = flag.long.toList := by
  have plain := fits.value_plain
  have signless : '=' ∉ flag.value.toList := fits.not_mem_value (by decide)
  cases flag with
  | input value =>
      have found : Text.cut? "-i=".toList ("-i=".toList ++ value.toList) = some ([], value.toList) :=
        Text.cut?_append_of_not_mem List.not_mem_nil value.toList
      have rest : Text.contains "-i=".toList value.toList = false :=
        Text.contains_of_not_mem (by decide) signless
      have later : Text.contains "-o=".toList ("--input".toList ++ '=' :: value.toList) = false :=
        not_contains_short (by decide) (by decide) (by decide) plain
      rw [written, String.toList_append, spellOut, Text.replaceAll_of_cut? (by decide) found,
        Text.replaceAll_of_not_contains rest, long_toList]
      change Text.replaceAll _ _ ("--input".toList ++ '=' :: value.toList) =
        "--".toList ++ "input".toList ++ '=' :: value.toList
      exact Text.replaceAll_of_not_contains later "--output=".toList
  | output value =>
      have found : Text.cut? "-o=".toList ("-o=".toList ++ value.toList) = some ([], value.toList) :=
        Text.cut?_append_of_not_mem List.not_mem_nil value.toList
      have rest : Text.contains "-o=".toList value.toList = false :=
        Text.contains_of_not_mem (by decide) signless
      have first : Text.contains "-i=".toList ("-o".toList ++ '=' :: value.toList) = false :=
        not_contains_short (by decide) (by decide) (by decide) plain
      have kept : Text.replaceAll "-i=".toList "--input=".toList ("-o=".toList ++ value.toList) =
          "-o=".toList ++ value.toList := Text.replaceAll_of_not_contains first _
      rw [written, String.toList_append, spellOut, kept, Text.replaceAll_of_cut? (by decide) found,
        Text.replaceAll_of_not_contains rest, long_toList]
      change _ = "--".toList ++ "output".toList ++ '=' :: value.toList
      rfl
  | named name value =>
      have apart : ∀ letter, name ≠ String.ofList [letter] → name.toList ≠ [letter] := by
        intro letter other same
        apply other
        rw [← same, String.ofList_toList]
      have lead : '=' ∉ "--".toList ++ name.toList := by
        rw [List.mem_append, not_or]
        exact ⟨by decide, DocLine.not_mem_of_isName fits.named (by decide)⟩
      have short := not_short_suffix fits.named (apart 'i' input)
      have short' := not_short_suffix fits.named (apart 'o' output)
      change spellOut (long (.named name value)).toList = _
      rw [long_toList]
      exact spellOut_of_sign _ lead short short' plain

end Flag

end

/-! ### Reading the words of an example -/

section

variable {watched : List (List Char)} {spot : Spot} {s : List Char} {c : Char}

/-- Without an `=` the scan goes on. -/
theorem exists_scan_of_not_mem (signless : '=' ∉ s) (spot : Spot) :
    ∃ after, scan watched spot s = some after := by
  induction s generalizing spot with
  | nil => exact ⟨spot, rfl⟩
  | cons c s ih =>
      have moves : ∃ there, spot.next watched c = some there := by
        rw [Spot.next]
        split
        · exact ⟨_, rfl⟩
        · rw [if_neg (List.ne_of_not_mem_cons signless).symm]
          exact ⟨_, rfl⟩
      obtain ⟨there, moved⟩ := moves
      obtain ⟨after, later⟩ := ih (List.not_mem_of_not_mem_cons signless) there
      refine ⟨after, ?_⟩
      rw [scan_cons, moved]
      exact later

theorem next_eq_hyphen (moved : spot.next watched c = some .hyphen) : c = '-' := by
  rw [Spot.next] at moved
  split at moved
  · rename_i same
    exact same
  · split at moved
    · split at moved
      · exact absurd (Option.some.inj moved) Spot.past_ne_hyphen
      · cases moved
    · exact absurd (Option.some.inj moved) Spot.onto_ne_hyphen

/-- Only a hyphen at the end leads to the hyphen spot. -/
theorem getLast?_of_scan (apart : spot ≠ .hyphen) (scanned : scan watched spot s = some .hyphen) :
    s.getLast? = some '-' := by
  rcases List.eq_nil_or_concat s with rfl | ⟨front, c, rfl⟩
  · cases scanned
    exact absurd rfl apart
  · rw [List.concat_eq_append] at scanned ⊢
    obtain ⟨there, -, last⟩ := scan_append_eq_some_iff.mp scanned
    rw [scan_cons, Option.bind_eq_some_iff] at last
    obtain ⟨_, moved, done⟩ := last
    cases done
    rw [List.getLast?_concat, next_eq_hyphen moved]

/-- Behind a runner option an `=` is free until a hyphen comes. -/
theorem exists_scan_skipped (apart : '=' ∉ s.dropWhile (· ≠ '-')) :
    ∃ after, scan watched .skipped s = some after := by
  induction s with
  | nil => exact ⟨.skipped, rfl⟩
  | cons c s ih =>
      by_cases hyphen : c = '-'
      · subst hyphen
        exact exists_scan_of_not_mem (by simpa using apart) .skipped
      · have stays : Spot.skipped.next watched c = some .skipped := by
          rw [Spot.next, if_neg hyphen]
          split
          · rfl
          · rfl
        rw [scan_cons, stays]
        exact ih (by simpa [hyphen] using apart)

/-- A word that no watched word leads is read on as long as some watched word may follow. -/
theorem follow_of_free {read : List Char} (free : ∀ word ∈ watched, ¬ word <+: read) :
    Spot.follow watched read =
      if (Spot.directory :: watched).any (read.isPrefixOf ·) then .word read else .named := by
  rw [Spot.follow, if_neg]
  intro led
  obtain ⟨word, member, leads⟩ := List.any_eq_true.mp led
  exact free word member (List.isPrefixOf_iff_prefix.mp leads)

theorem onto_follow {read : List Char} (last : Text.isNameChar c = true)
    (free : ∀ word ∈ watched, ¬ word <+: read ++ [c]) :
    (Spot.follow watched read).onto watched c = Spot.follow watched (read ++ [c]) := by
  have free' : ∀ word ∈ watched, ¬ word <+: read := fun word member leads =>
    free word member (leads.trans (List.prefix_append read [c]))
  rw [follow_of_free free']
  split
  · rw [Spot.onto, if_pos last]
  · rename_i done
    rw [Spot.onto, if_pos last, follow_of_free free, if_neg]
    intro longer
    apply done
    obtain ⟨word, member, leads⟩ := List.any_eq_true.mp longer
    refine List.any_eq_true.mpr ⟨word, member, ?_⟩
    rw [List.isPrefixOf_iff_prefix] at leads ⊢
    exact (List.prefix_append read [c]).trans leads

theorem next_of_isNameChar (named : Text.isNameChar c = true) :
    spot.next watched c = some (spot.onto watched c) := by
  have hyphen : c ≠ '-' := by
    rintro rfl
    exact absurd named (by decide)
  have sign : c ≠ '=' := by
    rintro rfl
    exact absurd named (by decide)
  rw [Spot.next, if_neg hyphen, if_neg sign]

theorem scan_name {name : List Char} (named : ∀ c ∈ name, Text.isNameChar c = true)
    (free : ∀ word ∈ watched, ¬ word <+: name) :
    scan watched (Spot.start true) name = some (Spot.follow watched name) := by
  induction name using List.reverseRecOn with
  | nil =>
      rw [follow_of_free free]
      rfl
  | append_singleton name c ih =>
      have last := named c (List.mem_append_right name List.mem_cons_self)
      have early := ih (fun x member => named x (List.mem_append_left [c] member))
        fun word member leads => free word member (leads.trans (List.prefix_append name [c]))
      rw [scan_append, early, Option.bind_some, scan_cons, next_of_isNameChar last,
        onto_follow last free]
      rfl

/-- An `=` may follow a name that is not watched for. -/
theorem scan_name_sign {name : List Char} (named : Text.isName name = true)
    (free : ∀ word ∈ watched, ¬ word <+: name ++ ['=']) :
    scan watched (Spot.start true) (name ++ ['=']) = some (Spot.follow watched name).past := by
  obtain ⟨filled, each⟩ := Text.isName_iff.mp named
  have free' : ∀ word ∈ watched, ¬ word <+: name := fun word member leads =>
    free word member (leads.trans (List.prefix_append name ['=']))
  have allowed : (Spot.follow watched name).mayEnd watched = true := by
    rw [follow_of_free free']
    split
    · have other : watched.contains (name ++ ['=']) = false := by
        apply Bool.eq_false_iff.mpr
        intro member
        exact free _ (List.contains_iff_mem.mp member) (List.prefix_refl _)
      rw [Spot.mayEnd, other, List.isEmpty_eq_false_iff.mpr filled]
      rfl
    · rfl
  rw [scan_append, scan_name each free', Option.bind_some, scan_cons, Spot.next, if_neg (by decide),
    if_pos rfl, if_pos allowed]
  rfl

/-- Words that can be read wherever one may begin. -/
def Readable (watched : List (List Char)) (word : String) : Prop :=
  ∀ spot ≠ .hyphen, ∃ after, scan watched spot word.toList = some after

/-- Readable words can be read in a row, and a hyphen is left only by the last of them. -/
theorem exists_scan_intercalate {words : List String}
    (each : ∀ word ∈ words, Readable watched word) (apart : spot ≠ .hyphen) :
    ∃ after, scan watched spot (" ".intercalate words).toList = some after ∧
      (after = .hyphen → ∃ word ∈ words.getLast?, word.toList.getLast? = some '-') := by
  induction words generalizing spot with
  | nil => exact ⟨spot, rfl, fun same => absurd same apart⟩
  | cons word words ih =>
      obtain ⟨there, first⟩ := each word List.mem_cons_self spot apart
      cases words with
      | nil =>
          refine ⟨there, ?_, ?_⟩
          · rw [String.intercalate_singleton]
            exact first
          · rintro rfl
            exact ⟨word, rfl, getLast?_of_scan apart first⟩
      | cons second words =>
          have blank : there.next watched ' ' = some (there.onto watched ' ') := by
            rw [Spot.next, if_neg (by decide), if_neg (by decide)]
          have apart' : there.onto watched ' ' ≠ .hyphen := Spot.onto_ne_hyphen
          obtain ⟨after, later, ends⟩ :=
            ih (fun other member => each other (List.mem_cons_of_mem word member)) apart'
          refine ⟨after, ?_, ?_⟩
          · rw [String.intercalate_cons_cons, String.toList_append, String.toList_append, scan_append,
              scan_append, first]
            change (scan watched there [' ']).bind _ = _
            rw [scan_cons, blank]
            exact later
          · intro same
            obtain ⟨last, member, hyphen⟩ := ends same
            exact ⟨last, by rwa [List.getLast?_cons_cons], hyphen⟩

theorem readable_of_not_mem {word : String} (signless : '=' ∉ word.toList) :
    Readable watched word := by
  intro spot _
  exact exists_scan_of_not_mem signless spot

theorem readable_of_mem_runner {selected directory word : String}
    (free : ∀ word ∈ watched, ¬ word <+: "wd=".toList)
    (selects : '=' ∉ selected.toList.dropWhile (· ≠ '-'))
    (located : '=' ∉ directory.toList.dropWhile (· ≠ '-'))
    (member : word ∈ runner selected directory) : Readable watched word := by
  simp only [runner, List.mem_cons, List.not_mem_nil, or_false] at member
  rcases member with rfl | rfl | rfl | rfl
  · exact readable_of_not_mem (by decide)
  · intro spot apart
    have first : scan watched spot "-r=".toList = some .skipped := by
      have hyphen : spot.next watched '-' = some .hyphen := by
        rw [Spot.next, if_pos rfl, if_neg apart]
      change scan watched spot ['-', 'r', '='] = _
      rw [scan_cons, hyphen]
      rfl
    rw [String.toList_append, scan_append, first]
    exact exists_scan_skipped selects
  · exact readable_of_not_mem (by decide)
  · intro spot apart
    have option : scan watched (Spot.start true) "wd=".toList = some .skipped := by
      have free' : ∀ word ∈ watched, ¬ word <+: "wd".toList := fun word member leads =>
        free word member (leads.trans ⟨['='], rfl⟩)
      have read : scan watched (Spot.start true) ("wd".toList ++ ['=']) = _ :=
        scan_name_sign (by decide +kernel) free
      rw [follow_of_free free'] at read
      exact read
    have lead : scan watched spot "--wd=".toList = some .skipped := by
      change scan watched spot ("--".toList ++ "wd=".toList) = _
      rw [scan_append, scan_hyphens apart]
      exact option
    rw [String.toList_append, scan_append, lead]
    exact exists_scan_skipped located

namespace Flag

variable {flag : Flag}

theorem readable_long (fits : flag.IsWellFormed)
    (free : ∀ word ∈ watched, ¬ word <+: flag.longName.toList ++ ['=']) :
    Readable watched flag.long := by
  intro spot apart
  have shape : flag.long.toList =
      "--".toList ++ ((flag.longName.toList ++ ['=']) ++ flag.value.toList) := by
    rw [long_toList]
    simp only [List.append_assoc, List.cons_append, List.nil_append]
  rw [shape, scan_append, scan_hyphens apart, Option.bind_some, scan_append,
    scan_name_sign fits.named free]
  exact exists_scan_of_not_mem (fits.not_mem_value (by decide)) _

theorem getLast?_long (fits : flag.IsWellFormed) : flag.long.toList.getLast? ≠ some '-' := by
  rw [long_toList, List.getLast?_append_cons]
  intro ends
  rcases List.mem_cons.mp (List.mem_of_getLast? ends) with same | inside
  · cases same
  · exact fits.not_mem_value (by decide) inside

end Flag

end

/-! ### The mended example -/

section

variable {tool selected directory : String} {flags : List Flag}

theorem ne_of_takesHyphen {flag : Flag}
    (spared : ∀ fixup ∈ FixupTable.builtin.fixupsFor tool,
      fixup.takesHyphen flag.longName.toList = false) :
    flag.longName ≠ "i" ∧ flag.longName ≠ "o" := by
  rw [FixupTable.fixupsFor_builtin] at spared
  constructor
  · intro same
    have taken := spared _ List.mem_cons_self
    rw [same] at taken
    exact absurd taken (by decide)
  · intro same
    have taken := spared _ (List.mem_cons_of_mem _ List.mem_cons_self)
    rw [same] at taken
    exact absurd taken (by decide)

/-- What the first two fixups make of an example. -/
theorem spellOut_command (fits : ∀ flag ∈ flags, flag.IsWellFormed)
    (mendable : Mendable (FixupTable.builtin.fixupsFor tool) selected directory flags) :
    spellOut (command selected directory flags).toList =
      (" ".intercalate (runner selected directory ++ flags.map Flag.long)).toList := by
  apply spellOut_intercalate
  apply List.rel_append
  · apply List.forall₂_same.mpr
    intro word member
    exact spellOut_of_mem_runner mendable.selected_plain mendable.directory_plain member
  · rw [List.forall₂_map_left_iff, List.forall₂_map_right_iff, List.forall₂_same]
    intro flag member
    obtain ⟨input, output⟩ := ne_of_takesHyphen (mendable.hyphens flag member)
    exact Flag.spellOut_written (fits flag member) input output

theorem accepted_command (fits : ∀ flag ∈ flags, flag.IsWellFormed)
    (mendable : Mendable (FixupTable.builtin.fixupsFor tool) selected directory flags) :
    Accepted (FixupTable.builtin.watched tool)
      (∃ text, .append text ∈ FixupTable.builtin.fixupsFor tool)
      (spellOut (command selected directory flags).toList) := by
  have readable : ∀ word ∈ runner selected directory ++ flags.map Flag.long,
      Readable (FixupTable.builtin.watched tool) word := by
    intro word member
    rcases List.mem_append.mp member with first | later
    · exact readable_of_mem_runner (FixupTable.isSafe_builtin tool).2 mendable.selected_plain
        mendable.directory_plain first
    · obtain ⟨flag, inside, rfl⟩ := List.mem_map.mp later
      apply Flag.readable_long (fits flag inside)
      intro word watched
      obtain ⟨fixup, listed, found⟩ := List.mem_filterMap.mp watched
      exact Fixup.not_prefix_of_watched? found (mendable.hyphens flag inside fixup listed)
  have apart : Spot.start false ≠ .hyphen := by decide
  obtain ⟨after, scanned, ends⟩ := exists_scan_intercalate readable apart
  rw [spellOut_command fits mendable]
  refine ⟨false, after, scanned, ?_⟩
  rintro ⟨text, appended⟩ same
  obtain ⟨last, final, hyphen⟩ := ends same
  rcases List.eq_nil_or_concat flags with rfl | ⟨front, flag, rfl⟩
  · -- Without flags the directory comes last.
    obtain rfl : "--wd=" ++ directory = last := Option.some.inj final
    rw [String.toList_append, List.getLast?_append] at hyphen
    cases ending : directory.toList.getLast? with
    | none =>
        rw [ending] at hyphen
        exact absurd hyphen (by decide)
    | some c =>
        rw [ending] at hyphen
        exact mendable.ended rfl (ending.trans hyphen) text appended
  · rw [List.concat_eq_append, List.map_append, List.map_singleton, ← List.append_assoc,
      List.getLast?_concat] at final
    obtain rfl := Option.some.inj final
    apply Flag.getLast?_long _ hyphen
    exact fits flag (by rw [List.concat_eq_append]; exact List.mem_append_right _ List.mem_cons_self)

/-- The fixups that follow the first two change what those leave. -/
theorem toList_apply_builtin (tool text : String) : (FixupTable.builtin.apply tool text).toList =
    ((FixupTable.builtin.fixupsFor tool).drop 2).foldl (fun text f => f.edit text)
      (spellOut text.toList) := by
  rw [FixupTable.toList_apply]
  conv_lhs => rw [FixupTable.fixupsFor_builtin]
  rw [List.foldl_cons, List.foldl_cons, Fixup.edit, Fixup.edit, spellOut]

/-- Every argument of the call made from a mended example has a name, whatever the tool, provided that
the tool's fixups set the example or can mend it. -/
theorem mended_command_named (wrapper : String) (fits : ∀ flag ∈ flags, flag.IsWellFormed)
    (ready : (∃ text, .set text ∈ FixupTable.builtin.fixupsFor tool) ∨
      Mendable (FixupTable.builtin.fixupsFor tool) selected directory flags) :
    let mended := FixupTable.builtin.apply tool (command selected directory flags)
    call wrapper mended = wrapper ++ "(" ++
        String.join ((arguments mended).map fun a => a.name ++ "=" ++ a.value ++ ", ") ++
        "verbose_mode=TRUE)" ∧
      ∀ a ∈ arguments mended, Text.isName a.name.toList = true := by
  refine ⟨rfl, ?_⟩
  intro a member
  have accepted : Accepted (FixupTable.builtin.watched tool)
      (∃ text, .append text ∈ FixupTable.builtin.fixupsFor tool)
      (FixupTable.builtin.apply tool (command selected directory flags)).toList := by
    rw [toList_apply_builtin]
    apply Fixup.accepted_foldl (FixupTable.isSafe_builtin tool).1
    · intro text appended
      exact ⟨text, List.mem_of_mem_drop appended⟩
    · rcases ready with ⟨text, resets⟩ | mendable
      · rw [FixupTable.fixupsFor_builtin] at resets
        rcases List.mem_cons.mp resets with same | resets
        · cases same
        · rcases List.mem_cons.mp resets with same | resets
          · cases same
          · exact .inr ⟨text, resets⟩
      · exact .inl (accepted_command fits mendable)
  obtain ⟨later, after, scanned, -⟩ := accepted
  apply isName_of_scan scanned
  rw [String.ofList_toList]
  exact member

/-- A rule renames the input of the tool, in the long form that the short flag was given. -/
theorem mended_command_named_hillshade :
    let flags := [.input "a.tif", .named "az" "315.0"]
    let mended := FixupTable.builtin.apply "hillshade" (command "Hillshade" "D" flags)
    (call "wbt_hillshade" mended = "wbt_hillshade(" ++
        String.join ((arguments mended).map fun a => a.name ++ "=" ++ a.value ++ ", ") ++
        "verbose_mode=TRUE)" ∧
      ∀ a ∈ arguments mended, Text.isName a.name.toList = true) ∧
    (arguments mended).map (·.name) = ["dem", "az"] := by
  constructor
  · apply mended_command_named
    · decide +kernel
    · right
      constructor
      · decide
      · decide
      · decide +kernel
      · intro none
        cases none
  · rw [arguments, FixupTable.toList_apply]
    decide +kernel

/-- The rule for single hyphens finds the second hyphen of a flag that was spelled out. -/
theorem difference_input_misnamed :
    let flags := [.input "a.tif"]
    (∀ flag ∈ flags, flag.IsWellFormed) ∧
      ¬ ∀ a ∈ arguments (FixupTable.builtin.apply "difference" (command "Difference" "D" flags)),
        Text.isName a.name.toList = true := by
  refine ⟨by decide +kernel, ?_⟩
  intro named
  have misnamed : arguments (FixupTable.builtin.apply "difference"
      (command "Difference" "D" [.input "a.tif"])) = [⟨"-input", "\"a.tif\""⟩] := by
    rw [arguments, FixupTable.toList_apply]
    decide +kernel
  rw [misnamed] at named
  exact absurd (named _ List.mem_cons_self) (by decide +kernel)

end

end ToolWrappers.Usage
