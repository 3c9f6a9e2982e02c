import Mathlib.Data.List.TakeWhile
import ToolWrappers.Proofs.ArgumentValues
import ToolWrappers.Proofs.ExampleNames
import ToolWrappers.Proofs.Trimming

/-! Which flags of an example command arrive in the call. A flag is lost if its item looks like a runner
option somewhere, and of a value only the part before its first `=` is passed. All others arrive whole and
in order. -/

namespace ToolWrappers

namespace Text

variable {pat lead : List Char}

/-- Trimming takes nothing from the occurrences of a pattern without blanks. -/
theorem contains_trim (filled : pat ≠ []) (solid : pat.any isBlank = false) (s : List Char) :
    contains pat (trim s) = contains pat s := by
  obtain ⟨t, text, chars⟩ := exists_spaced s
  have apart {blanks : List Char} (blank : ∀ c ∈ blanks, isBlank c = true) : blanks.Disjoint pat :=
    fun c member inside => List.any_eq_false.mp solid c inside (blank c member)
  calc contains pat (trim s)
      _ = contains pat t.text := by rw [text]
      _ = contains pat t.chars := by
          rw [Spaced.chars, contains_append_disjoint filled (apart t.back_blank),
            contains_disjoint_append filled (apart t.front_blank)]
      _ = contains pat s := by rw [chars]

/-- Items that each stand behind a blank and a separator are found by splitting and trimming. -/
theorem trim_splitOn (filled : pat ≠ []) (solid : ' ' ∉ pat) {items : List (List Char)}
    (first : contains pat lead = false) (others : ∀ item ∈ items, contains pat item = false) :
    (splitOn pat (lead ++ items.flatMap fun item => ' ' :: (pat ++ item))).map trim =
      trim lead :: items.map trim := by
  induction items generalizing lead with
  | nil =>
      rw [List.flatMap_nil, List.append_nil, splitOn_of_not_contains first]
      rfl
  | cons item items ih =>
      obtain ⟨p, pat, rfl⟩ := List.exists_cons_of_ne_nil filled
      have later := ih (others item List.mem_cons_self) fun other member =>
        others other (List.mem_cons_of_mem item member)
      have absent : cut? (p :: pat) lead = none := by
        rwa [contains, Option.isSome_eq_false_iff, Option.isNone_iff_eq_none] at first
      have found (after : List Char) :
          cut? (p :: pat) (lead ++ ' ' :: ((p :: pat) ++ after)) = some (lead ++ [' '], after) := by
        have here : cut? (p :: pat) ((p :: pat) ++ after) = some ([], after) :=
          cut?_append_of_not_mem List.not_mem_nil after
        rw [cut?_append_cons solid, absent, here]
        rfl
      rw [List.flatMap_cons, List.cons_append, List.append_assoc, splitOn_of_cut? filled (found _),
        List.map_cons, later, trim_append_blanks (List.forall_mem_singleton.mpr rfl)]
      rfl

end Text

namespace Usage

/-! ### Flags and items -/

/-- A flag with its own name and any value. -/
structure LongFlag where
  name : String
  value : String

namespace LongFlag

def toFlag (f : LongFlag) : Flag := .named f.name f.value

/-- The item of a command that the flag becomes. -/
def item (f : LongFlag) : List Char := f.name.toList ++ '=' :: f.value.toList

/-- A named flag whose value is a trimmed text without quotes and double hyphens. -/
structure Plain (f : LongFlag) : Prop where
  named : Text.isName f.name.toList = true
  trimmed : Text.trim f.value.toList = f.value.toList
  single : Text.contains "--".toList f.value.toList = false
  unquoted : '"' ∉ f.value.toList ∧ '\'' ∉ f.value.toList

instance (f : LongFlag) : Decidable f.Plain :=
  decidable_of_iff (Text.isName f.name.toList = true ∧ Text.trim f.value.toList = f.value.toList ∧
      Text.contains "--".toList f.value.toList = false ∧
      '"' ∉ f.value.toList ∧ '\'' ∉ f.value.toList)
    ⟨fun ⟨a, b, c, d⟩ => ⟨a, b, c, d⟩, fun ⟨a, b, c, d⟩ => ⟨a, b, c, d⟩⟩

/-- The argument that passes a flag whole: a number as it is, any other text in quotes. -/
def argument (f : LongFlag) : Argument :=
  ⟨f.name, if Text.isNumber f.value.toList then f.value else "\"" ++ f.value ++ "\""⟩

/-- Whether the item of the flag looks like a runner option. -/
def hidden (f : LongFlag) : Bool :=
  Text.contains "-r=".toList f.value.toList ||
    (Text.endsWith "wd".toList f.name.toList || Text.contains "wd=".toList f.value.toList)

/-- The flag with its value up to the first `=`. -/
def cut (f : LongFlag) : LongFlag := ⟨f.name, .ofList (f.value.toList.takeWhile (· ≠ '='))⟩

/-- What is passed of a flag. -/
def passed? (f : LongFlag) : Option Argument := if f.hidden then none else some f.cut.argument

/-- No end of the name and nothing in the value is taken for something else. -/
def Whole (f : LongFlag) : Prop := ¬"wd".toList <:+ f.name.toList ∧ '=' ∉ f.value.toList

variable {f : LongFlag}

theorem isRunnerOption_item (named : Text.isName f.name.toList = true) :
    isRunnerOption f.item = f.hidden := by
  have sign : '=' ∉ f.name.toList := DocLine.not_mem_of_isName named (by decide)
  have hyphen : '-' ∉ f.name.toList := DocLine.not_mem_of_isName named (by decide)
  have selector : Text.contains "-r=".toList f.item = Text.contains "-r=".toList f.value.toList := by
    have apart : Text.endsWith "-r".toList f.name.toList = false := by
      apply Bool.eq_false_iff.mpr
      intro ends
      exact hyphen ((Text.suffix_iff_endsWith.mpr ends).mem List.mem_cons_self)
    change Text.contains ("-r".toList ++ ['=']) f.item = Text.contains ("-r".toList ++ ['=']) _
    rw [item, Text.contains_append_closing (by decide) sign, apart, Bool.false_or]
  have directory : Text.contains "wd=".toList f.item =
      (Text.endsWith "wd".toList f.name.toList || Text.contains "wd=".toList f.value.toList) := by
    change Text.contains ("wd".toList ++ ['=']) f.item = (_ || Text.contains ("wd".toList ++ ['=']) _)
    rw [item, Text.contains_append_closing (by decide) sign]
  rw [isRunnerOption, selector, directory, hidden]

theorem trim_item (plain : f.Plain) : Text.trim f.item = f.item := by
  obtain ⟨c, rest, shape⟩ := List.exists_cons_of_ne_nil (Text.isName_iff.mp plain.named).1
  have solid : Text.isBlank c = false :=
    Text.isBlank_of_isName plain.named c (shape ▸ List.mem_cons_self)
  have start : Text.trimStart f.item = f.item := by
    rw [item, shape]
    exact Text.trimStart_cons solid _
  rw [Text.trim, start, item, Text.trimEnd_append_cons (by decide), Text.trimEnd_of_trim plain.trimmed]

theorem quoteValue_of_unquoted {value : List Char} (double : '"' ∉ value) (single : '\'' ∉ value) :
    quoteValue value = if Text.isNumber value then .ofList value else "\"" ++ .ofList value ++ "\"" := by
  rw [quoteValue_eq, List.filter_eq_self.mpr]
  intro c member
  simpa using ⟨ne_of_mem_of_not_mem member double, ne_of_mem_of_not_mem member single⟩

theorem argument?_item (plain : f.Plain) : argument? f.item = f.passed? := by
  have sign : '=' ∉ f.name.toList := DocLine.not_mem_of_isName plain.named (by decide)
  obtain ⟨others, first⟩ := Text.exists_pieces_eq '=' f.value.toList
  have parts : Text.pieces '=' f.item =
      f.name.toList :: f.value.toList.takeWhile (· ≠ '=') :: others := by
    rw [item, Text.pieces_append_sep, Text.pieces_of_not_mem sign, first]
    rfl
  have inside := (List.takeWhile_prefix (fun c => c ≠ '=') (l := f.value.toList)).subset
  rw [argument?, isRunnerOption_item plain.named, passed?, parts]
  split
  · rfl
  · dsimp only
    rw [quoteValue_of_unquoted (fun member => plain.unquoted.1 (inside member))
      fun member => plain.unquoted.2 (inside member), argument, cut, String.ofList_toList,
      String.toList_ofList]

end LongFlag

/-! ### The items of a command -/

variable {selected directory : String} {flags : List LongFlag}

theorem toList_intercalate_cons (word : String) (words : List String) :
    (" ".intercalate (word :: words)).toList =
      word.toList ++ words.flatMap fun other => ' ' :: other.toList := by
  induction words generalizing word with
  | nil => simp
  | cons second words ih =>
      rw [String.intercalate_cons_cons, String.toList_append, String.toList_append, ih]
      simp

theorem toList_command : (command selected directory (flags.map LongFlag.toFlag)).toList =
    ("./whitebox_tools -r".toList ++ '=' :: (selected.toList ++ " -v".toList)) ++
      (("wd".toList ++ '=' :: directory.toList) :: flags.map LongFlag.item).flatMap
        fun item => ' ' :: ("--".toList ++ item) := by
  rw [command, runner, List.cons_append, toList_intercalate_cons]
  simp [LongFlag.item, LongFlag.toFlag, Flag.written, List.flatMap_map]

theorem LongFlag.Plain.single_item {f : LongFlag} (plain : f.Plain) :
    Text.contains "--".toList f.item = false := by
  have hyphen : '-' ∉ f.name.toList := DocLine.not_mem_of_isName plain.named (by decide)
  rw [item, Text.contains_append_cons (by decide), plain.single,
    Text.contains_of_not_mem (by decide) hyphen]
  rfl

theorem argument?_of_isRunnerOption {item : List Char} (option : isRunnerOption item = true) :
    argument? (Text.trim item) = none := by
  rw [argument?, if_pos]
  rwa [isRunnerOption, Text.contains_trim (by decide) (by decide),
    Text.contains_trim (by decide) (by decide)]

theorem arguments_command (selects : Text.contains "--".toList selected.toList = false)
    (located : Text.contains "--".toList directory.toList = false) (plain : ∀ f ∈ flags, f.Plain) :
    arguments (command selected directory (flags.map LongFlag.toFlag)) =
      flags.filterMap LongFlag.passed? := by
  have first : Text.contains "--".toList
      ("./whitebox_tools -r".toList ++ '=' :: (selected.toList ++ " -v".toList)) = false := by
    rw [Text.contains_append_cons (by decide)]
    change (_ || Text.contains "--".toList (selected.toList ++ ' ' :: "-v".toList)) = false
    rw [Text.contains_append_cons (by decide), selects]
    decide
  have others : ∀ item ∈ ("wd".toList ++ '=' :: directory.toList) :: flags.map LongFlag.item,
      Text.contains "--".toList item = false := by
    intro item member
    rcases List.mem_cons.mp member with rfl | flag
    · rw [Text.contains_append_cons (by decide), located]
      decide
    · obtain ⟨f, inside, rfl⟩ := List.mem_map.mp flag
      exact (plain f inside).single_item
  have selector : isRunnerOption
      ("./whitebox_tools -r".toList ++ '=' :: (selected.toList ++ " -v".toList)) = true := by
    rw [isRunnerOption, Bool.or_eq_true]
    exact .inl (Text.contains_iff.mpr ⟨"./whitebox_tools ".toList, selected.toList ++ " -v".toList, rfl⟩)
  have option : isRunnerOption ("wd".toList ++ '=' :: directory.toList) = true := by
    rw [isRunnerOption, Bool.or_eq_true]
    exact .inr (Text.contains_iff.mpr ⟨[], directory.toList, rfl⟩)
  rw [arguments, toList_command, Text.trim_splitOn (by decide) (by decide) first others,
    List.filterMap_cons_none (argument?_of_isRunnerOption selector), List.map_cons,
    List.filterMap_cons_none (argument?_of_isRunnerOption option), List.map_map, List.filterMap_map]
  refine List.filterMap_congr fun f member => ?_
  change argument? (Text.trim f.item) = f.passed?
  rw [f.trim_item (plain f member), f.argument?_item (plain f member)]

/-! ### What a loss costs -/

/-- An argument as the call shows it. -/
def Argument.text (a : Argument) : String := a.name ++ "=" ++ a.value ++ ", "

theorem Argument.length_text (a : Argument) : a.text.length = a.name.length + a.value.length + 3 := by
  rw [Argument.text, String.length_append, String.length_append, String.length_append]
  change a.name.length + 1 + a.value.length + 2 = _
  omega

theorem length_quoted (text : String) : ("\"" ++ text ++ "\"").length = text.length + 2 := by
  rw [String.length_append, String.length_append]
  change 1 + text.length + 1 = _
  omega

namespace LongFlag

variable {f : LongFlag}

theorem passed?_of_whole (whole : f.Whole) : f.passed? = some f.argument := by
  obtain ⟨ending, sign⟩ := whole
  have seen : f.hidden = false := by
    rw [hidden, Text.contains_of_not_mem (by decide) sign, Text.contains_of_not_mem (by decide) sign,
      Bool.false_or, Bool.or_false]
    exact Bool.eq_false_iff.mpr fun ends => ending (Text.suffix_iff_endsWith.mpr ends)
  have kept : f.value.toList.takeWhile (· ≠ '=') = f.value.toList := by
    rw [List.takeWhile_eq_self_iff]
    intro c member
    simpa using ne_of_mem_of_not_mem member sign
  rw [passed?, seen, cut, kept, String.ofList_toList, if_neg Bool.false_ne_true]

theorem length_argument_le (f : LongFlag) : f.argument.value.length ≤ f.value.length + 2 := by
  unfold argument
  split
  · exact Nat.le_add_right _ 2
  · exact (length_quoted f.value).le

theorem length_argument_of_mem (sign : '=' ∈ f.value.toList) :
    f.argument.value.length = f.value.length + 2 := by
  have text : Text.isNumber f.value.toList ≠ true := fun number =>
    Text.not_mem_of_isNumber number (by decide) sign
  rw [argument, if_neg text, length_quoted]

theorem length_cut_lt (sign : '=' ∈ f.value.toList) : f.cut.value.length < f.value.length := by
  obtain ⟨front, back, split, clean⟩ := List.eq_append_cons_of_mem sign
  have kept : f.value.toList.takeWhile (· ≠ '=') = front := by
    rw [split, List.takeWhile_append_of_pos fun c member => by simpa using ne_of_mem_of_not_mem member clean,
      List.takeWhile_cons_of_neg (by simp), List.append_nil]
  have long : f.value.length = front.length + (back.length + 1) := by
    rw [← String.length_toList, split, List.length_append, List.length_cons]
  rw [cut, kept, String.length_ofList, long]
  omega

/-- What the call shows of a flag. -/
def shown (f : LongFlag) : String := (f.passed?.map Argument.text).getD ""

theorem shown_of_whole (whole : f.Whole) : f.shown = f.argument.text := by
  rw [shown, passed?_of_whole whole]
  rfl

/-- What is shown of a flag that is not whole is shorter than the flag. -/
theorem length_shown_lt (lost : ¬f.Whole) : f.shown.length < f.argument.text.length := by
  rw [Argument.length_text, shown, passed?]
  split
  · exact Nat.succ_pos _
  · rename_i seen
    have ending : ¬"wd".toList <:+ f.name.toList := fun ends => by
      rw [hidden, Text.suffix_iff_endsWith.mp ends, Bool.true_or, Bool.or_true] at seen
      exact seen rfl
    have sign : '=' ∈ f.value.toList := by
      by_contra absent
      exact lost ⟨ending, absent⟩
    have shorter := length_cut_lt sign
    have most := f.cut.length_argument_le
    have least := length_argument_of_mem sign
    have same : f.cut.argument.name = f.argument.name := rfl
    rw [Option.map_some, Option.getD_some, Argument.length_text, same]
    omega

theorem length_shown_le (f : LongFlag) : f.shown.length ≤ f.argument.text.length := by
  by_cases whole : f.Whole
  · rw [shown_of_whole whole]
  · exact (length_shown_lt whole).le

theorem join_passed (flags : List LongFlag) :
    String.join ((flags.filterMap passed?).map Argument.text) = String.join (flags.map shown) := by
  induction flags with
  | nil => rfl
  | cons f flags ih =>
      rw [List.map_cons, String.join_cons, ← ih, shown]
      cases passed : f.passed? with
      | none => simp [passed]
      | some a => simp [passed]

end LongFlag

theorem length_join_shown_le (flags : List LongFlag) : (String.join (flags.map LongFlag.shown)).length ≤
    (String.join (flags.map fun f => f.argument.text)).length := by
  induction flags with
  | nil => exact Nat.le_refl _
  | cons f flags ih =>
      simp only [List.map_cons, String.join_cons, String.length_append]
      exact Nat.add_le_add f.length_shown_le ih

/-- Flags are shown as whole ones only if each of them is whole. -/
theorem whole_of_join_eq (same : String.join (flags.map LongFlag.shown) =
    String.join (flags.map fun f => f.argument.text)) : ∀ f ∈ flags, f.Whole := by
  induction flags with
  | nil => exact List.forall_mem_nil _
  | cons f flags ih =>
      simp only [List.map_cons, String.join_cons] at same
      have most := length_join_shown_le flags
      have whole : f.Whole := by
        by_contra lost
        have less := LongFlag.length_shown_lt lost
        have lengths := congrArg String.length same
        rw [String.length_append, String.length_append] at lengths
        omega
      rw [LongFlag.shown_of_whole whole] at same
      exact List.forall_mem_cons.mpr ⟨whole, ih ((String.append_right_inj _).mp same)⟩

/-- Of an example's flags those arrive in the call that do not look like a runner option, in order, each
with its value up to the first `=`. So the call passes all of them whole if and only if no name ends in
`wd` and no value holds an `=`. -/
theorem call_passes_whole_flags (wrapper : String) (plain : ∀ f ∈ flags, f.Plain)
    (selects : Text.contains "--".toList selected.toList = false)
    (located : Text.contains "--".toList directory.toList = false) :
    let given := command selected directory (flags.map LongFlag.toFlag)
    arguments given = flags.filterMap LongFlag.passed? ∧
      (call wrapper given = wrapper ++ "(" ++
          String.join (flags.map fun f => f.argument.name ++ "=" ++ f.argument.value ++ ", ") ++
          "verbose_mode=TRUE)" ↔
        ∀ f ∈ flags, f.Whole) := by
  intro given
  have listed : arguments given = flags.filterMap LongFlag.passed? :=
    arguments_command selects located plain
  have called : call wrapper given =
      wrapper ++ "(" ++ String.join (flags.map LongFlag.shown) ++ "verbose_mode=TRUE)" := by
    rw [call, listed, ← LongFlag.join_passed]
    rfl
  refine ⟨listed, ?_⟩
  rw [called]
  constructor
  · intro same
    exact whole_of_join_eq ((String.append_right_inj _).mp ((String.append_left_inj _).mp same))
  · intro whole
    rw [List.map_congr_left fun f member => f.shown_of_whole (whole f member)]
    rfl

theorem call_passes_whole_flags_slope :
    let flags : List LongFlag := [⟨"dem", "my DEM.tif"⟩, ⟨"zfactor", "-1.5e3"⟩]
    call "wbt_slope" (command "Slope" "/path/to/data/" (flags.map LongFlag.toFlag)) =
      "wbt_slope(dem=\"my DEM.tif\", zfactor=-1.5e3, verbose_mode=TRUE)" := by
  intro flags
  have plain : ∀ f ∈ flags, f.Plain := by decide +kernel
  have whole : ∀ f ∈ flags, f.Whole := by
    unfold LongFlag.Whole
    decide
  exact ((call_passes_whole_flags "wbt_slope" plain (by decide) (by decide)).2.mpr whole).trans
    (by decide +kernel)

/-- A value is cut at its second `=`, and a flag whose name ends like the working directory's is lost. -/
theorem flags_cut_and_lost :
    ¬∀ (wrapper selected directory : String) (flags : List LongFlag),
      (∀ f ∈ flags, f.Plain ∧ f.name ∉ ["r", "wd"] ∧ f.value ≠ "") →
        Text.contains "--".toList selected.toList = false →
          Text.contains "--".toList directory.toList = false →
            call wrapper (command selected directory (flags.map LongFlag.toFlag)) = wrapper ++ "(" ++
              String.join (flags.map fun f => f.argument.name ++ "=" ++ f.argument.value ++ ", ") ++
              "verbose_mode=TRUE)" := by
  intro passes
  have given := passes "w" "T" "D" [⟨"s", "a==1.0"⟩, ⟨"fwd", "a"⟩] (by decide +kernel) (by decide)
    (by decide)
  have called : call "w" (command "T" "D" [.named "s" "a==1.0", .named "fwd" "a"]) =
      "w(s=\"a\", verbose_mode=TRUE)" := by decide +kernel
  exact absurd (called.symm.trans given) (by decide +kernel)

end Usage

end ToolWrappers
