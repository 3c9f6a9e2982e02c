import ToolWrappers.Proofs.ItemScan
import ToolWrappers.Usage.Builtin

/-! Fixups that keep the arguments of every command well named. A fixup is checked on its own texts at
the finitely many spots of the scan; the check carries over to all commands in which they occur. -/

namespace ToolWrappers

namespace Usage

/-- Every spot that the scan can come to. -/
def Spot.all (watched : List (List Char)) : List Spot :=
  [.plain, .hyphen, .selector, .skipped, .named] ++
    ((directory :: watched).flatMap List.inits).map .word

/-- The other spot allows whatever this one allows. -/
def Spot.AtMost (spot other : Spot) : Prop := spot = other ∨ spot = .plain ∧ other ≠ .hyphen

instance (spot other : Spot) : Decidable (spot.AtMost other) :=
  inferInstanceAs (Decidable (spot = other ∨ spot = .plain ∧ other ≠ .hyphen))

/-- Wherever the first text can be read, the second can be read too and leads to a spot that allows
as much. -/
def Allows (watched : List (List Char)) (s t : List Char) : Prop :=
  ∀ spot ∈ Spot.all watched, ∀ after ∈ scan watched spot s,
    ∃ after' ∈ scan watched spot t, after.AtMost after'

instance (watched : List (List Char)) (s t : List Char) : Decidable (Allows watched s t) :=
  inferInstanceAs (Decidable (∀ spot ∈ Spot.all watched, ∀ after ∈ scan watched spot s,
    ∃ after' ∈ scan watched spot t, after.AtMost after'))

/-- The scan accepts the command. One that is to be `extended` may not end in a single hyphen. -/
def Accepted (watched : List (List Char)) (extended : Prop) (s : List Char) : Prop :=
  ∃ later, ∃ after ∈ scan watched (Spot.start later) s, extended → after ≠ .hyphen

instance (watched : List (List Char)) (extended : Prop) [Decidable extended] (s : List Char) :
    Decidable (Accepted watched extended s) :=
  decidable_of_iff
    ((∃ after ∈ scan watched (Spot.start false) s, extended → after ≠ .hyphen) ∨
      ∃ after ∈ scan watched (Spot.start true) s, extended → after ≠ .hyphen)
    (by rw [Accepted, Bool.exists_bool])

section

variable {watched : List (List Char)} {extended : Prop} {spot other after : Spot} {s t : List Char} {c : Char}

namespace Spot

theorem plain_mem_all : Spot.plain ∈ Spot.all watched := List.mem_cons_self

theorem follow_mem_all (read : List Char) : follow watched read ∈ Spot.all watched := by
  unfold follow
  split
  · exact plain_mem_all
  · split
    · rename_i longer
      obtain ⟨word, member, leads⟩ := List.any_eq_true.mp longer
      apply List.mem_append_right
      apply List.mem_map_of_mem
      apply List.mem_flatMap.mpr
      exact ⟨word, member, (List.mem_inits read word).mpr (List.isPrefixOf_iff_prefix.mp leads)⟩
    · apply List.mem_append_left
      decide

theorem start_mem_all (later : Bool) : start later ∈ Spot.all watched := by
  cases later with
  | false => exact plain_mem_all
  | true => exact List.mem_append_right _ List.mem_cons_self

theorem skipped_mem_all : Spot.skipped ∈ Spot.all watched := List.mem_append_left _ (by decide)

theorem onto_mem_all : spot.onto watched c ∈ Spot.all watched := by
  cases spot with
  | plain => exact plain_mem_all
  | selector => exact plain_mem_all
  | skipped => exact skipped_mem_all
  | hyphen =>
      rw [onto]
      split
      · exact List.mem_append_left _ (by decide)
      · exact plain_mem_all
  | word read =>
      rw [onto]
      split
      · exact follow_mem_all (read ++ [c])
      · exact plain_mem_all
  | named =>
      rw [onto]
      split
      · exact List.mem_append_left _ (by decide)
      · exact plain_mem_all

theorem past_mem_all : spot.past ∈ Spot.all watched := by
  cases spot with
  | word read =>
      rw [past]
      split
      · exact skipped_mem_all
      · exact plain_mem_all
  | plain => exact plain_mem_all
  | hyphen => exact plain_mem_all
  | selector => exact skipped_mem_all
  | skipped => exact skipped_mem_all
  | named => exact plain_mem_all

theorem next_mem_all (moved : spot.next watched c = some after) : after ∈ Spot.all watched := by
  rw [next] at moved
  split at moved
  · cases moved
    split
    · exact start_mem_all true
    · exact List.mem_append_left _ (by decide)
  · split at moved
    · split at moved
      · cases moved
        exact past_mem_all
      · cases moved
    · cases moved
      exact onto_mem_all

theorem AtMost.refl (spot : Spot) : spot.AtMost spot := .inl rfl

theorem AtMost.ne_hyphen (order : spot.AtMost other) (apart : spot ≠ .hyphen) :
    other ≠ .hyphen := by
  rcases order with rfl | ⟨-, apart⟩
  · exact apart
  · exact apart

theorem AtMost.trans {third : Spot} (first : spot.AtMost other) (second : other.AtMost third) :
    spot.AtMost third := by
  rcases first with rfl | ⟨rfl, apart⟩
  · exact second
  · exact .inr ⟨rfl, second.ne_hyphen apart⟩

theorem AtMost.next (order : spot.AtMost other) (moved : spot.next watched c = some after) :
    ∃ after', other.next watched c = some after' ∧ after.AtMost after' := by
  rcases order with rfl | ⟨rfl, apart⟩
  · exact ⟨after, moved, AtMost.refl after⟩
  · unfold Spot.next at moved ⊢
    split at moved
    · rename_i dash
      cases moved
      refine ⟨.hyphen, ?_, .inl rfl⟩
      rw [if_pos dash, if_neg apart]
    · rename_i dash
      split at moved
      · cases moved
      · rename_i sign
        cases moved
        refine ⟨other.onto watched c, ?_, .inr ⟨rfl, onto_ne_hyphen⟩⟩
        rw [if_neg dash, if_neg sign]

end Spot

theorem scan_mem_all (listed : spot ∈ Spot.all watched)
    (scanned : scan watched spot s = some after) : after ∈ Spot.all watched := by
  induction s generalizing spot with
  | nil =>
      cases scanned
      exact listed
  | cons c s ih =>
      rw [scan_cons, Option.bind_eq_some_iff] at scanned
      obtain ⟨there, moved, later⟩ := scanned
      exact ih (Spot.next_mem_all moved) later

/-- A spot that allows more leads to a spot that allows more. -/
theorem scan_mono (order : spot.AtMost other) (scanned : scan watched spot s = some after) :
    ∃ after', scan watched other s = some after' ∧ after.AtMost after' := by
  induction s generalizing spot other with
  | nil =>
      cases scanned
      exact ⟨other, rfl, order⟩
  | cons c s ih =>
      rw [scan_cons, Option.bind_eq_some_iff] at scanned
      obtain ⟨there, moved, later⟩ := scanned
      obtain ⟨there', moved', order'⟩ := order.next moved
      obtain ⟨after', later', final⟩ := ih order' later
      refine ⟨after', ?_, final⟩
      rw [scan_cons, moved']
      exact later'

namespace Allows

theorem refl (s : List Char) : Allows watched s s := by
  intro spot _ after scanned
  exact ⟨after, scanned, Spot.AtMost.refl after⟩

/-- Texts may be exchanged inside longer texts. -/
theorem append {s' t' : List Char} (first : Allows watched s t) (second : Allows watched s' t') :
    Allows watched (s ++ s') (t ++ t') := by
  intro spot listed after scanned
  obtain ⟨there, early, late⟩ := scan_append_eq_some_iff.mp scanned
  obtain ⟨there', early', order⟩ := first spot listed there early
  obtain ⟨middle, between, below⟩ := second there (scan_mem_all listed early) after late
  obtain ⟨after', late', above⟩ := scan_mono order between
  exact ⟨after', scan_append_eq_some_iff.mpr ⟨there', early', late'⟩, below.trans above⟩

theorem replaceAll {old new : List Char} (filled : old ≠ []) (covered : Allows watched old new)
    (s : List Char) : Allows watched s (Text.replaceAll old new s) := by
  refine Text.replaceAll_rec (P := Allows watched) filled refl ?_ s
  intro before after after' later
  exact ((refl before).append covered).append later

theorem replaceFirst {old new : List Char} (covered : Allows watched old new) (s : List Char) :
    Allows watched s (Text.replaceFirst old new s) := by
  rw [Text.replaceFirst]
  split
  · exact refl s
  · rename_i before after found
    conv in Allows _ s _ => rw [Text.eq_of_cut? found]
    exact ((refl before).append covered).append (refl after)

theorem accepted (covered : Allows watched s t) (accepted : Accepted watched extended s) :
    Accepted watched extended t := by
  obtain ⟨later, after, scanned, apart⟩ := accepted
  obtain ⟨after', scanned', order⟩ := covered _ (Spot.start_mem_all later) after scanned
  exact ⟨later, after', scanned', fun longer => order.ne_hyphen (apart longer)⟩

end Allows

end

end Usage

namespace Fixup

open Usage

/-- The check of one fixup. -/
def IsSafe (watched : List (List Char)) : Fixup → Prop
  | .replace old new => old.toList ≠ [] ∧ Allows watched old.toList new.toList
  | .replaceFirst old new => Allows watched old.toList new.toList
  | .append text => ∀ spot ∈ Spot.all watched, spot ≠ .hyphen →
      ∃ after ∈ scan watched spot text.toList, after ≠ .hyphen
  | .set text => Accepted watched True text.toList

instance (watched : List (List Char)) : DecidablePred (IsSafe watched)
  | .replace old new =>
      inferInstanceAs (Decidable (old.toList ≠ [] ∧ Allows watched old.toList new.toList))
  | .replaceFirst old new => inferInstanceAs (Decidable (Allows watched old.toList new.toList))
  | .append text => inferInstanceAs (Decidable (∀ spot ∈ Spot.all watched, spot ≠ .hyphen →
      ∃ after ∈ scan watched spot text.toList, after ≠ .hyphen))
  | .set text => inferInstanceAs (Decidable (Accepted watched True text.toList))

/-- The change of a fixup to a list of characters. -/
def edit : Fixup → List Char → List Char
  | .replace old new, s => Text.replaceAll old.toList new.toList s
  | .replaceFirst old new, s => Text.replaceFirst old.toList new.toList s
  | .append text, s => s ++ text.toList
  | .set text, _ => text.toList

theorem toList_apply (f : Fixup) (s : String) : (f.apply s).toList = f.edit s.toList := by
  cases f with
  | replace old new => exact String.toList_ofList
  | replaceFirst old new => exact String.toList_ofList
  | append text => exact String.toList_append
  | set text => rfl

section

variable {watched : List (List Char)} {extended : Prop} {f : Fixup} {fixups : List Fixup}
  {s : List Char}

/-- A safe fixup keeps a command accepted, or makes it one by setting it. -/
theorem accepted_edit (safe : f.IsSafe watched) (appends : ∀ text, f = .append text → extended)
    (ready : Accepted watched extended s ∨ ∃ text, f = .set text) :
    Accepted watched extended (f.edit s) := by
  cases f with
  | set text =>
      obtain ⟨later, after, scanned, apart⟩ := safe
      exact ⟨later, after, scanned, fun _ => apart trivial⟩
  | replace old new =>
      obtain accepted | ⟨text, same⟩ := ready
      · exact (Allows.replaceAll safe.1 safe.2 s).accepted accepted
      · cases same
  | replaceFirst old new =>
      obtain accepted | ⟨text, same⟩ := ready
      · exact (Allows.replaceFirst safe s).accepted accepted
      · cases same
  | append text =>
      obtain ⟨later, there, scanned, apart⟩ | ⟨text, same⟩ := ready
      · have listed := scan_mem_all (Spot.start_mem_all later) scanned
        obtain ⟨after, late, final⟩ := safe there listed (apart (appends text rfl))
        refine ⟨later, after, ?_, fun _ => final⟩
        exact scan_append_eq_some_iff.mpr ⟨there, scanned, late⟩
      · cases same

theorem accepted_foldl (safe : ∀ f ∈ fixups, f.IsSafe watched)
    (appends : ∀ text, .append text ∈ fixups → extended)
    (ready : Accepted watched extended s ∨ ∃ text, .set text ∈ fixups) :
    Accepted watched extended (fixups.foldl (fun text f => f.edit text) s) := by
  induction fixups generalizing s with
  | nil =>
      obtain accepted | ⟨text, member⟩ := ready
      · exact accepted
      · cases member
  | cons f fixups ih =>
      apply ih
      · intro g later
        exact safe g (List.mem_cons_of_mem f later)
      · intro text later
        exact appends text (List.mem_cons_of_mem f later)
      · have first : (Accepted watched extended s ∨ ∃ text, f = .set text) →
            Accepted watched extended (f.edit s) :=
          accepted_edit (safe f List.mem_cons_self) fun text same =>
            appends text (same ▸ List.mem_cons_self)
        obtain accepted | ⟨text, member⟩ := ready
        · exact .inl (first (.inl accepted))
        · rcases List.mem_cons.mp member with same | later
          · exact .inl (first (.inr ⟨text, same.symm⟩))
          · exact .inr ⟨text, later⟩

end

/-- What a replacement looks for behind a single hyphen. -/
def watched? : Fixup → Option (List Char)
  | .replace old _ =>
    match old.toList with
    | '-' :: c :: word => if c = '-' then none else some (c :: word)
    | _ => none
  | _ => none

/-- Whether a replacement finds the second hyphen of a flag that is spelled out. -/
def takesHyphen (name : List Char) : Fixup → Bool
  | .replace old _ => old.toList.isPrefixOf ('-' :: (name ++ ['=']))
  | _ => false

/-- A name is not watched for if no replacement finds the hyphen before it. -/
theorem not_prefix_of_watched? {f : Fixup} {word name : List Char} (h : f.watched? = some word)
    (spared : f.takesHyphen name = false) : ¬ word <+: name ++ ['='] := by
  cases f with
  | replace old new =>
      rw [watched?] at h
      split at h
      · rename_i shape
        split at h
        · cases h
        · cases h
          intro leads
          have found : old.toList <+: '-' :: (name ++ ['=']) := by
            rw [shape]
            exact (List.prefix_cons_inj '-').mpr leads
          rw [takesHyphen, List.isPrefixOf_iff_prefix.mpr found] at spared
          cases spared
      · cases h
  | replaceFirst old new => cases h
  | append text => cases h
  | set text => cases h

end Fixup

namespace FixupTable

open Usage

/-- The words that can end no name in an example of the tool. -/
def watched (table : FixupTable) (tool : String) : List (List Char) :=
  (table.fixupsFor tool).filterMap Fixup.watched?

theorem toList_apply (table : FixupTable) (tool text : String) :
    (table.apply tool text).toList =
      (table.fixupsFor tool).foldl (fun text f => f.edit text) text.toList := by
  rw [apply]
  generalize table.fixupsFor tool = fixups
  induction fixups generalizing text with
  | nil => rfl
  | cons f fixups ih => rw [List.foldl_cons, List.foldl_cons, ih, Fixup.toList_apply]

theorem fixupsFor_of_not_listed {table : FixupTable} {tool : String}
    (other : tool ∉ table.rules.flatMap (·.tools)) : table.fixupsFor tool = table.always := by
  have none : table.rules.filter (fun r => r.tools.contains tool) = [] := by
    apply List.filter_eq_nil_iff.mpr
    intro rule member listed
    exact other (List.mem_flatMap.mpr ⟨rule, member, List.contains_iff_mem.mp listed⟩)
  rw [fixupsFor, none]
  exact List.append_nil _

/-- The first two fixups spell short flags out. -/
theorem fixupsFor_builtin (tool : String) : builtin.fixupsFor tool =
    .replace "-i=" "--input=" :: .replace "-o=" "--output=" :: (builtin.fixupsFor tool).drop 2 := rfl

/-- The checks for the tools that the table names. -/
theorem isSafe_of_listed : ∀ tool ∈ builtin.rules.flatMap (·.tools),
    (∀ f ∈ (builtin.fixupsFor tool).drop 2, f.IsSafe (builtin.watched tool)) ∧
      ∀ word ∈ builtin.watched tool, ¬ word <+: "wd=".toList := by
  decide +kernel

theorem isSafe_builtin (tool : String) :
    (∀ f ∈ (builtin.fixupsFor tool).drop 2, f.IsSafe (builtin.watched tool)) ∧
      ∀ word ∈ builtin.watched tool, ¬ word <+: "wd=".toList := by
  by_cases listed : tool ∈ builtin.rules.flatMap (·.tools)
  · exact isSafe_of_listed tool listed
  · rw [watched, fixupsFor_of_not_listed listed]
    decide +kernel

end FixupTable

end ToolWrappers
