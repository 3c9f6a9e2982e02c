import Mathlib.Data.String.Basic
import ToolWrappers.Install
import ToolWrappers.Proofs.ByteOrder
import ToolWrappers.Proofs.StoredFiles

/-! Finding the R files of a directory by a pattern. What is relied on is that their paths are given as
seen from another spelling of the directory, or that nothing is ever found there; the finder of single
directories does so. -/

namespace ToolWrappers

open ToolWrappers.FileTree ToolWrappers.Path

namespace Text

/-- Putting the separator between the pieces of a text gives the text back. -/
theorem intercalate_pieces (sep : Char) (s : List Char) : [sep].intercalate (pieces sep s) = s := by
  induction s with
  | nil => rfl
  | cons c s ih =>
      by_cases same : c = sep
      · obtain ⟨piece, others, shape⟩ := List.exists_cons_of_ne_nil (pieces_ne_nil sep s)
        rw [shape] at ih
        rw [same, pieces_sep, shape, List.intercalate_cons_cons, ih]
        rfl
      · obtain ⟨piece, others, tail, whole⟩ := pieces_cons_of_ne same s
        rw [tail] at ih
        rw [whole, ← ih]
        cases others with
        | nil => simp
        | cons second others => simp [List.intercalate_cons_cons]

/-- Pieces that are left out leave out characters only. -/
theorem sublist_intercalate {sep : List Char} {first second : List (List Char)}
    (h : first.Sublist second) : (sep.intercalate first).Sublist (sep.intercalate second) := by
  induction h with
  | slnil => exact List.Sublist.refl _
  | @cons first second piece within ih =>
      cases second with
      | nil =>
          rw [List.sublist_nil.mp within]
          exact List.nil_sublist _
      | cons next second =>
          rw [List.intercalate_cons_cons]
          exact ih.trans (List.sublist_append_right _ _)
  | @cons_cons first second piece within ih =>
      cases second with
      | nil =>
          rw [List.sublist_nil.mp within]
      | cons next second =>
          rw [List.intercalate_cons_cons]
          cases first with
          | nil =>
              rw [List.intercalate_singleton, List.append_assoc]
              exact List.sublist_append_left _ _
          | cons other first =>
              rw [List.intercalate_cons_cons]
              exact ih.append_left _

theorem utf8ByteSize_le_of_sublist {s t : String} (h : s.toList.Sublist t.toList) :
    s.utf8ByteSize ≤ t.utf8ByteSize := by
  have length (s : String) : s.utf8ByteSize = (s.toList.flatMap String.utf8EncodeChar).length := by
    rw [← bytes_eq]
    rfl
  rw [length, length]
  generalize s.toList = first at h ⊢
  generalize t.toList = second at h ⊢
  induction h with
  | slnil => exact Nat.le_refl _
  | cons c _ ih =>
      rw [List.flatMap_cons, List.length_append]
      omega
  | cons_cons c _ ih =>
      rw [List.flatMap_cons, List.flatMap_cons, List.length_append, List.length_append]
      omega

end Text

namespace FileTree

variable {t : FileTree} {place : Place} {name : String} {node : Node}

/-- An entry that is listed as a child of a place stands there. -/
theorem eq_of_child {entry : Place × Node} {child : String × Node}
    (listed : (match entry.1.getLast? with
      | some name => if entry.1.dropLast = place then some (name, entry.2) else none
      | none => none) = some child) : entry = (place ++ [child.1], child.2) := by
  split at listed
  · rename_i name final
    split at listed
    · rename_i above
      obtain ⟨front, shape⟩ := List.getLast?_eq_some_iff.mp final
      rw [shape, List.dropLast_concat] at above
      rw [← Option.some.inj listed, ← above, ← shape]
    · cases listed
  · cases listed

theorem WellFormed.mem_children_iff (h : t.WellFormed) :
    (name, node) ∈ t.children place ↔ t.get? (place ++ [name]) = some node := by
  rw [children, List.mem_filterMap]
  constructor
  · rintro ⟨entry, member, listed⟩
    rw [eq_of_child listed] at member
    exact h.get?_of_mem member (by simp)
  · intro there
    rw [get?, if_neg (by simp)] at there
    obtain ⟨before, after, split, _⟩ := List.lookup_eq_some_iff.mp there
    exact ⟨(place ++ [name], node), by simp [split], by simp⟩

theorem WellFormed.nodup_children (h : t.WellFormed) (place : Place) :
    ((t.children place).map Prod.fst).Nodup := by
  rw [children, List.Nodup, List.pairwise_map, List.pairwise_filterMap]
  refine (List.pairwise_map.mp h.distinct).imp fun apart child listed child' listed' same => apart ?_
  rw [eq_of_child listed, eq_of_child listed', same]

end FileTree

namespace Path

/-! ### Spellings of one way -/

/-- A name that leads somewhere. -/
def isBusy (name : String) : Bool := name ≠ "" && name ≠ "."

/-- Paths that differ only in single dots and slashes that lead nowhere. -/
structure SameWay (a b : String) : Prop where
  rooted : isAbsolute a = isAbsolute b
  busy : (names a).filter isBusy = (names b).filter isBusy

variable {a b base name : String} {here place : Place} {t : FileTree}

theorem IsOrdinary.isBusy (h : IsOrdinary name) : isBusy name = true := by
  simp [Path.isBusy, h.nonempty, h.ne_dot]

theorem resolve_filter_busy (parts : List String) :
    resolve here (parts.filter isBusy) = resolve here parts := by
  induction parts generalizing here with
  | nil => rfl
  | cons part rest ih =>
      by_cases busy : isBusy part = true
      · rw [List.filter_cons_of_pos busy, resolve_cons, resolve_cons, ih]
      · have idle : advance here part = here := by
          by_cases empty : part = ""
          · simp [advance, empty]
          · have dot : part = "." := by simpa [isBusy, empty] using busy
            simp [advance, dot]
        rw [List.filter_cons_of_neg busy, resolve_cons, idle, ih]

/-- A walk that goes on after idle names passes them only where it goes on. -/
theorem walk_filter_busy (parts : List String) :
    t.walk here (parts.filter isBusy ++ [name]) = t.walk here (parts ++ [name]) := by
  induction parts generalizing here with
  | nil => rfl
  | cons part rest ih =>
      by_cases leads : isBusy part = true
      · rw [List.filter_cons_of_pos leads, List.cons_append, List.cons_append]
        simp only [walk, ih]
      · rw [List.filter_cons_of_neg leads, List.cons_append, ih, walk]
        have idle : (part = "" || part = ".") = true := by
          simpa [isBusy, Decidable.or_iff_not_imp_left] using leads
        by_cases directory : t.isDirectoryAt here = true
        · simp [directory, idle]
        · obtain ⟨first, more, shape⟩ := List.exists_cons_of_ne_nil (l := rest ++ [name]) (by simp)
          rw [shape, walk]
          simp [directory]

/-- The names of a joined path end in the last one, and the idle ones before it do not count. -/
theorem names_join_of_isOrdinary (h : IsOrdinary name) (base : String) :
    ∃ lead idle, names base = lead ++ idle ∧ (∀ part ∈ idle, part = "") ∧
      names (join base name) = lead ++ [name] ∧ lead.filter isBusy = (names base).filter isBusy := by
  obtain ⟨lead, idle, split, empty, joined⟩ := names_join base (isAbsolute_of_single h.single)
  rw [names_of_single h.single] at joined
  have none : idle.filter isBusy = [] :=
    List.filter_eq_nil_iff.mpr fun part member => by simp [isBusy, empty part member]
  exact ⟨lead, idle, split, empty, joined, by rw [split, List.filter_append, none, List.append_nil]⟩

section

variable [User]

theorem SameWay.placeOf (h : SameWay a b) : placeOf a = placeOf b := by
  rw [Path.placeOf, Path.placeOf, outset, outset, h.rooted, ← resolve_filter_busy (names a), h.busy,
    resolve_filter_busy]

theorem SameWay.leadsThrough (h : SameWay a b) (through : LeadsThrough a place) :
    LeadsThrough b place := by
  obtain ⟨lead, first, led⟩ := through
  have shorter := first.filter isBusy
  rw [h.busy] at shorter
  obtain ⟨other, within, same⟩ := List.prefix_filter_iff.mp shorter
  refine ⟨other, within, ?_⟩
  rw [← resolve_filter_busy, ← same, resolve_filter_busy, ← led, outset, outset, h.rooted]

/-- Something in a directory is found in every spelling that can be used. -/
theorem SameWay.find_join (h : SameWay a b) (ordinary : IsOrdinary name)
    (usable : pathFault? (join a name) = none) (usable' : pathFault? (join b name) = none) :
    t.find (join a name) = t.find (join b name) := by
  have relative := isAbsolute_of_single ordinary.single
  obtain ⟨_, _, _, _, first, same⟩ := names_join_of_isOrdinary ordinary a
  obtain ⟨_, _, _, _, second, same'⟩ := names_join_of_isOrdinary ordinary b
  simp only [find, usable, usable', first, second, outset_join relative]
  rw [← walk_filter_busy, same, h.busy, ← same', walk_filter_busy,
    outset, outset, h.rooted]

end

/-! ### The order of paths in one directory -/

theorem orderKey_join (h : IsOrdinary name) (base : String) :
    orderKey (join base name) = orderKey base ++ ["3" ++ name] := by
  obtain ⟨lead, idle, split, empty, joined, busy⟩ := names_join_of_isOrdinary h base
  have dotted : (names (join base name)).head? = some "." ↔ (names base).head? = some "." := by
    rw [joined, split]
    cases lead with
    | cons first rest => rfl
    | nil =>
        cases idle with
        | nil => exact absurd split (names_ne_nil base)
        | cons part rest => simp [h.ne_dot, empty part List.mem_cons_self]
  have all : (names (join base name)).filter isBusy = (names base).filter isBusy ++ [name] := by
    rw [joined, List.filter_append, busy, List.filter_cons_of_pos h.isBusy, List.filter_nil]
  change _ ++ ((names (join base name)).filter isBusy).map _ =
    (_ ++ ((names base).filter isBusy).map _) ++ _
  rw [all, isAbsolute_join (isAbsolute_of_single h.single)]
  simp only [dotted, List.map_append, List.append_assoc, List.map_cons, List.map_nil, h.ne_dots,
    if_false]

theorem append_lt_append_iff (front : List String) :
    front ++ ["3" ++ a] < front ++ ["3" ++ b] ↔ a < b := by
  induction front with
  | nil =>
      rw [List.nil_append, List.nil_append, List.cons_lt_cons_iff, String.lt_iff_toList_lt,
        String.lt_iff_toList_lt, String.toList_append, String.toList_append]
      have digit : "3".toList = ['3'] := by decide
      simp [digit]
  | cons part rest ih => simp [ih]

/-- Paths from one directory are in the order of their last names. -/
theorem orderKey_join_lt (base : String) (first : IsOrdinary a) (second : IsOrdinary b) :
    orderKey (join base a) < orderKey (join base b) ↔ a < b := by
  rw [orderKey_join first, orderKey_join second, append_lt_append_iff]

/-- A path is usable if it is what is left of a usable one when names are left out. -/
theorem pathFault?_of_sublist (filled : a ≠ "") (h : (names a).Sublist (names b))
    (usable : pathFault? b = none) : pathFault? a = none := by
  have spelled (path : String) : path.toList = ['/'].intercalate ((names path).map String.toList) := by
    simp [names, Function.comp_def, Text.intercalate_pieces]
  have shorter : a.toList.Sublist b.toList := by
    rw [spelled a, spelled b]
    exact Text.sublist_intercalate (h.map _)
  unfold pathFault? at usable ⊢
  split at usable
  · cases usable
  · split at usable
    · cases usable
    · rename_i clear
      simp only [Bool.or_eq_true, decide_eq_true_eq, not_or] at clear
      rw [if_neg filled, if_neg]
      simp only [Bool.or_eq_true, decide_eq_true_eq, not_or]
      refine ⟨?_, fun null => clear.2 ?_⟩
      · have size := Text.utf8ByteSize_le_of_sublist shorter
        omega
      · simp only [List.contains_iff_mem] at null ⊢
        exact shorter.subset null

theorem fileName?_join (h : IsOrdinary name) (base : String) :
    fileName? (join base name) = some name := by
  obtain ⟨lead, _, _, _, joined, _⟩ := names_join_of_isOrdinary h base
  have last : reversedNames (join base name) = name :: lead.reverse := by
    rw [reversedNames, joined, List.reverse_append, List.reverse_singleton, List.singleton_append]
    cases lead.reverse with
    | nil => rfl
    | cons second rest => rw [dropIdle, if_neg (by simp [h.nonempty, h.ne_dot])]
  simp [fileName?, last, h.nonempty, h.ne_dot, h.ne_dots]

end Path

/-! ### What is relied on -/

/-- The pattern for R files allows these names. -/
structure Install.IsRFileName (name : String) : Prop where
  ordinary : IsOrdinary name
  ending : ∃ stem, name = stem ++ ".R"

namespace Glob

open Install

variable {glob : Glob} {dir shown name : String} {t : FileTree}

section

variable [User]

/-- What lies in a directory is shown under another spelling of it: the pattern for its R files gives each
of their paths once, perhaps with paths at which nothing is. -/
structure Shows (glob : Glob) (dir shown : String) : Prop where
  way : SameWay shown dir
  usable : ∀ name, IsOrdinary name →
    pathFault? (join dir name) = none → pathFault? (join shown name) = none
  finds : ∀ t : FileTree, t.WellFormed → ∃ names : List String,
    glob.find? t (pattern glob dir) = some (names.map (join shown)) ∧ names.Nodup ∧
      (∀ name ∈ names, IsRFileName name) ∧
      ∀ name, IsRFileName name → t.has (join shown name) = true → name ∈ names

/-- The pattern for the R files of a directory finds nothing, whatever lies there. -/
def Blind (glob : Glob) (dir : String) : Prop :=
  ∀ t : FileTree, t.WellFormed → glob.find? t (pattern glob dir) = some []

/-- What is relied on when R files are found by a pattern: of every directory, all of them are shown or
none. -/
def Lawful (glob : Glob) : Prop := ∀ dir, dir ≠ "" → (∃ shown, glob.Shows dir shown) ∨ glob.Blind dir

end

/-! ### The finder of single directories -/

theorem unescape_escape (s : List Char) : unescape (s.flatMap escapeChar) = s := by
  induction s with
  | nil => rfl
  | cons c s ih =>
      rw [List.flatMap_cons, escapeChar]
      split
      · simp only [List.cons_append, List.nil_append, unescape, ih]
      · rename_i plain
        have other : c ≠ '[' := fun same => plain (by simp [same])
        rw [List.singleton_append, unescape, ih]
        simp [other]

theorem filter_busy_dropWhile (parts : List String) :
    (parts.dropWhile (· = ".")).filter isBusy = parts.filter isBusy := by
  induction parts with
  | nil => rfl
  | cons part rest ih =>
      by_cases dot : part = "."
      · rw [List.dropWhile_cons_of_pos (by simpa using dot), ih,
          List.filter_cons_of_neg (by simp [dot, isBusy])]
      · rw [List.dropWhile_cons_of_neg (by simpa using dot)]

theorem filter_busy_filled (parts : List String) :
    (parts.filter (· ≠ "")).filter isBusy = parts.filter isBusy := by
  rw [List.filter_filter]
  congr 1
  funext part
  by_cases empty : part = "" <;> simp [isBusy, empty]

/-- Filled names among others stay when empty ones at the end are left out. -/
theorem sublist_of_sublist_append {parts lead idle : List String} (filled : ∀ part ∈ parts, part ≠ "")
    (empty : ∀ part ∈ idle, part = "") (within : parts.Sublist (lead ++ idle)) : parts.Sublist lead := by
  have all : parts.filter (· ≠ "") = parts := List.filter_eq_self.mpr fun part member => by
    simpa using filled part member
  have none : idle.filter (· ≠ "") = [] := List.filter_eq_nil_iff.mpr fun part member => by
    simpa using empty part member
  have shorter := within.filter (· ≠ "")
  rw [all, List.filter_append, none, List.append_nil] at shorter
  exact shorter.trans List.filter_sublist

theorem names_join_intercalate {parts : List String} (ordinary : IsOrdinary name)
    (filled : ∀ part ∈ parts, part ≠ "") (single : ∀ part ∈ parts, '/' ∉ part.toList) :
    names (join ("/".intercalate parts) name) = parts ++ [name] := by
  by_cases none : parts = []
  · rw [none, show join ("/".intercalate []) name = name by simp [join],
      names_of_single ordinary.single, List.nil_append]
  · obtain ⟨lead, idle, split, empty, joined, _⟩ :=
      names_join_of_isOrdinary ordinary ("/".intercalate parts)
    rw [names_intercalate none single] at split
    have whole : idle = [] := List.eq_nil_iff_forall_not_mem.mpr fun part member =>
      filled part (split ▸ List.mem_append_right lead member) (empty part member)
    rw [joined, split, whole, List.append_nil]

theorem names_slash (path : String) : names ("/" ++ path) = "" :: names path :=
  names_append_slash "" path

theorem isAbsolute_intercalate {parts : List String} (filled : ∀ part ∈ parts, part ≠ "")
    (single : ∀ part ∈ parts, '/' ∉ part.toList) : isAbsolute ("/".intercalate parts) = false := by
  by_contra rooted
  obtain ⟨second, more, shape⟩ := isAbsolute_iff.mp (by simpa using rooted)
  by_cases none : parts = []
  · rw [none] at shape
    cases shape
  · rw [names_intercalate none single] at shape
    exact filled "" (shape ▸ List.mem_cons_self) rfl

theorem join_slash (relative : isAbsolute name = false) (base : String) :
    join ("/" ++ base) name = "/" ++ join base name := by
  by_cases empty : base = ""
  · simp [join, relative, empty]
  · obtain ⟨front, last, shape⟩ : ∃ front last, base.toList = front ++ [last] :=
      ⟨_, _, (List.dropLast_append_getLast (by simpa using empty)).symm⟩
    have longer : "/" ++ base ≠ "" := by simp
    simp only [join, relative, empty, longer, Bool.false_or, decide_false, Bool.false_eq_true, if_false,
      String.toList_append, shape, List.getLast?_append, List.getLast?_singleton, Option.some_or]
    split <;> simp [String.append_assoc]

/-- Of the way to a directory, filled names are enough. -/
theorem names_join_sublist {parts : List String} (ordinary : IsOrdinary name)
    (filled : ∀ part ∈ parts, part ≠ "") (within : parts.Sublist (names dir)) :
    (names (join ("/".intercalate parts) name)).Sublist (names (join dir name)) := by
  obtain ⟨lead, idle, split, empty, joined, _⟩ := names_join_of_isOrdinary ordinary dir
  rw [joined, names_join_intercalate ordinary filled fun part member =>
    single_of_mem_names (within.subset member)]
  exact (sublist_of_sublist_append filled empty (split ▸ within)).append_right [name]

theorem filter_busy_intercalate {parts : List String} (single : ∀ part ∈ parts, '/' ∉ part.toList) :
    (names ("/".intercalate parts)).filter isBusy = parts.filter isBusy := by
  by_cases none : parts = []
  · rw [none]
    rfl
  · rw [names_intercalate none single]

/-- The path by which a directory is shown spells the way to it, without some of the names. -/
theorem shown_of_shownDir? (h : shownDir? dir = some shown) : SameWay shown dir ∧
    ∀ name, IsOrdinary name → (names (join shown name)).Sublist (names (join dir name)) := by
  have filled (rest : List String) : ∀ part ∈ rest.filter (· ≠ ""), part ≠ "" := fun part member => by
    simpa using (List.mem_filter.mp member).2
  unfold shownDir? at h
  generalize parted : (names dir).dropWhile (· = ".") = parts at h
  split at h
  · rename_i rest
    split at h
    · rename_i rooted
      obtain rfl := Option.some.inj h
      obtain ⟨below, rfl⟩ : ∃ below, dir = "/" ++ below := by
        obtain ⟨more, shape⟩ := List.head?_eq_some_iff.mp (of_decide_eq_true rooted)
        exact ⟨.ofList more, by rw [← String.toList_inj]; simpa using shape⟩
      rw [names_slash, List.dropWhile_cons_of_neg (by simp)] at parted
      obtain rfl := (List.cons.inj parted).2
      have within : ((names below).filter (· ≠ "")).Sublist (names below) := List.filter_sublist
      refine ⟨⟨by simp [isAbsolute], ?_⟩, fun name ordinary => ?_⟩
      · rw [names_slash, names_slash, List.filter_cons_of_neg (by decide),
          List.filter_cons_of_neg (by decide),
          filter_busy_intercalate fun part member => single_of_mem_names (within.subset member),
          filter_busy_filled]
      · have relative := isAbsolute_of_single ordinary.single
        rw [join_slash relative, join_slash relative, names_slash, names_slash]
        exact (names_join_sublist ordinary (filled _) within).cons_cons ""
    · cases h
  · rename_i unrooted
    have relative : isAbsolute dir = false := by
      by_contra rooted
      obtain ⟨second, more, shape⟩ := isAbsolute_iff.mp (by simpa using rooted)
      rw [shape, List.dropWhile_cons_of_neg (by simp)] at parted
      exact unrooted _ parted.symm
    obtain rfl := Option.some.inj h
    have within : (parts.filter (· ≠ "")).Sublist (names dir) :=
      List.filter_sublist.trans (parted ▸ (List.dropWhile_suffix _).sublist)
    have single : ∀ part ∈ parts.filter (· ≠ ""), '/' ∉ part.toList := fun part member =>
      single_of_mem_names (within.subset member)
    refine ⟨⟨?_, ?_⟩, fun name ordinary => names_join_sublist ordinary (filled _) within⟩
    · rw [isAbsolute_intercalate (filled _) single, relative]
    · rw [filter_busy_intercalate single, filter_busy_filled, ← parted, filter_busy_dropWhile]

section

variable [User]

theorem find?_inDirectory (filled : dir ≠ "") (t : FileTree) :
    (inDirectory ".R").find? t (pattern (inDirectory ".R") dir) =
      some (match shownDir? dir with
        | none => []
        | some shown => (namesIn t (if shown = "" then "." else shown) ".R").map (join shown)) := by
  have lead : Text.stripSuffix? ("/*" ++ ".R").toList (pattern (inDirectory ".R") dir).toList =
      some (dir.toList.flatMap escapeChar) :=
    Text.stripSuffix?_eq_some_iff.mpr (by simp [pattern, inDirectory])
  have several : dir.toList.flatMap escapeChar ≠ [] := by
    intro none
    have empty := unescape_escape dir.toList
    rw [none] at empty
    exact filled (String.toList_eq_nil_iff.mp empty.symm)
  simp only [inDirectory] at lead ⊢
  cases visible : shownDir? dir <;>
    simp only [lead, Option.map_some, if_neg several, unescape_escape, String.ofList_toList, visible]

theorem mem_namesIn_iff (h : t.WellFormed) : name ∈ namesIn t dir ".R" ↔
    IsRFileName name ∧ ∃ place, t.find dir = .ok place ∧ t.get? (place ++ [name]) ≠ none := by
  unfold namesIn
  cases found : t.find dir with
  | error fault => simp
  | ok place =>
      rw [List.mem_filter, List.mem_map]
      constructor
      · rintro ⟨⟨⟨_, node⟩, child, rfl⟩, ending⟩
        have there := (h.mem_children_iff).mp child
        have present := Option.ne_none_iff_exists'.mpr ⟨_, there⟩
        refine ⟨⟨(h.standing present).2 _ (by simp), ?_⟩, place, rfl, present⟩
        obtain ⟨stem, shape⟩ := Option.isSome_iff_exists.mp ending
        have shape := Text.stripSuffix?_eq_some_iff.mp shape
        exact ⟨.ofList stem, String.toList_injective (by simpa using shape)⟩
      · rintro ⟨⟨_, stem, ending⟩, other, same, there⟩
        obtain rfl := Except.ok.inj same
        obtain ⟨node, there⟩ := Option.ne_none_iff_exists'.mp there
        refine ⟨⟨(name, node), h.mem_children_iff.mpr there, rfl⟩, ?_⟩
        exact Option.isSome_iff_exists.mpr
          ⟨stem.toList, Text.stripSuffix?_eq_some_iff.mpr (by rw [ending, String.toList_append])⟩

theorem nodup_namesIn (h : t.WellFormed) (dir : String) : (namesIn t dir ".R").Nodup := by
  unfold namesIn
  split
  · exact List.nodup_nil
  · exact (h.nodup_children _).filter _

/-- A directory in which something is found by a joined path is found itself, the working directory by a
dot. -/
theorem find_of_find_join (ordinary : IsOrdinary name) {place : Place}
    (found : t.find (join shown name) = .ok place) :
    t.find (if shown = "" then "." else shown) = .ok (placeOf shown) := by
  obtain ⟨top, walked, directory⟩ := exists_walk_of_find_join (isAbsolute_of_single ordinary.single) found
  obtain rfl := resolve_of_walk walked
  split
  · rename_i empty
    subst empty
    refine find_eq_ok_iff.mpr ⟨by decide, ?_⟩
    change t.walk (outset "") ["."] = _
    have here : t.isDirectoryAt (outset "") = true := directory
    simp [walk, here]
    rfl
  · rename_i filled
    exact find_eq_ok_iff.mpr
      ⟨pathFault?_of_join ordinary filled (find_eq_ok_iff.mp found).1, walked⟩

theorem shows_inDirectory (filled : dir ≠ "") (visible : shownDir? dir = some shown) :
    (inDirectory ".R").Shows dir shown := by
  obtain ⟨way, names⟩ := shown_of_shownDir? visible
  refine ⟨way, fun name ordinary => pathFault?_of_sublist ?_ (names name ordinary), fun t h => ?_⟩
  · intro empty
    obtain ⟨lead, _, _, _, joined, _⟩ := names_join_of_isOrdinary ordinary shown
    rw [empty] at joined
    have last := congrArg List.getLast? joined
    rw [List.getLast?_concat] at last
    exact ordinary.nonempty (Option.some.inj last).symm
  · refine ⟨namesIn t (if shown = "" then "." else shown) ".R", ?_, nodup_namesIn h _, ?_, ?_⟩
    · rw [find?_inDirectory filled, visible]
    · intro name member
      exact ((mem_namesIn_iff h).mp member).1
    · intro name named there
      obtain ⟨node, there⟩ := Option.isSome_iff_exists.mp there
      obtain ⟨place, found, there⟩ := node?_eq_some there
      refine (mem_namesIn_iff h).mpr ⟨named, _, find_of_find_join named.ordinary found, ?_⟩
      rw [← placeOf_join_of_isOrdinary named.ordinary, placeOf_of_find found, there]
      simp

theorem lawful_inDirectory : (inDirectory ".R").Lawful := by
  intro dir filled
  cases visible : shownDir? dir with
  | none =>
      right
      intro t _
      rw [find?_inDirectory filled, visible]
  | some shown => exact .inl ⟨shown, shows_inDirectory filled visible⟩

end

end Glob

end ToolWrappers
