import Mathlib.Order.Defs.Unbundled
import ToolWrappers.FileTree.Action
import ToolWrappers.Proofs.LineBreaks

/-! The place that a path means. Dots and idle slashes are resolved name by name, whatever a tree
holds; where a walk through a tree arrives, it arrives at that place. -/

namespace ToolWrappers

namespace Path

/-- Where one name leads from a place. Two dots lead nowhere from the root. -/
def advance (here : Place) (name : String) : Place :=
  if name = "" || name = "." then here
  else if name = ".." then here.dropLast
  else here ++ [name]

/-- Where names lead from a place, one after the other. -/
def resolve (here : Place) (names : List String) : Place := names.foldl advance here

section

variable [User]

/-- The place that a path means. -/
def placeOf (path : String) : Place := resolve (outset path) (names path)

/-- A path leads through every place to which some of its names lead, from the first one on, also if a
later name leads back out of it. -/
def LeadsThrough (path : String) (place : Place) : Prop :=
  ∃ lead, lead <+: names path ∧ resolve (outset path) lead = place

/-- The place of a path, and everything below it. -/
def Covers (path : String) (place : Place) : Prop := placeOf path <+: place

end

/-- A name that leads from a directory to what is in it. -/
structure IsOrdinary (name : String) : Prop where
  nonempty : name ≠ ""
  ne_dot : name ≠ "."
  ne_dots : name ≠ ".."
  single : '/' ∉ name.toList

instance (name : String) : Decidable (IsOrdinary name) :=
  decidable_of_iff (name ≠ "" ∧ name ≠ "." ∧ name ≠ ".." ∧ '/' ∉ name.toList)
    ⟨fun ⟨a, b, c, d⟩ => ⟨a, b, c, d⟩, fun ⟨a, b, c, d⟩ => ⟨a, b, c, d⟩⟩

variable {path base name : String} {here there place : Place} {first second lead : List String}

theorem advance_of_isOrdinary (h : IsOrdinary name) : advance here name = here ++ [name] := by
  simp [advance, h.nonempty, h.ne_dot, h.ne_dots]

@[simp] theorem resolve_nil : resolve here [] = here := rfl

theorem resolve_cons (rest : List String) :
    resolve here (name :: rest) = resolve (advance here name) rest := rfl

theorem resolve_append : resolve here (first ++ second) = resolve (resolve here first) second :=
  List.foldl_append

theorem resolve_concat : resolve here (first ++ [name]) = advance (resolve here first) name := by
  rw [resolve_append, resolve_cons, resolve_nil]

/-- Names that lead on but never back: what the names of a place below another one are. -/
theorem resolve_of_forward (forward : ∀ name ∈ first, name ≠ "..") :
    resolve here first = here ++ first.filter fun name => name ≠ "" && name ≠ "." := by
  induction first generalizing here with
  | nil => simp
  | cons name rest ih =>
      have onward : ∀ name ∈ rest, name ≠ ".." := fun other member =>
        forward other (List.mem_cons_of_mem _ member)
      by_cases idle : name = "" ∨ name = "."
      · rcases idle with rfl | rfl <;> simp [resolve_cons, advance, ih onward]
      · simp only [not_or] at idle
        simp [resolve_cons, advance, idle, forward name List.mem_cons_self, ih onward]

theorem prefix_of_forward (forward : ∀ name ∈ first, name ≠ "..") : here <+: resolve here first := by
  rw [resolve_of_forward forward]
  exact List.prefix_append here _

/-! ### Names of joined paths -/

theorem names_append_slash (a b : String) : names (a ++ "/" ++ b) = names a ++ names b := by
  simp only [names, String.toList_append, List.append_assoc, ← List.map_append]
  exact congrArg _ (Text.pieces_append_sep '/' a.toList b.toList)

theorem names_of_single (h : '/' ∉ name.toList) : names name = [name] := by
  simp [names, Text.pieces_of_not_mem h]

theorem names_ne_nil (path : String) : names path ≠ [] := by
  simpa [names] using Text.pieces_ne_nil '/' path.toList

theorem single_of_mem_names (h : name ∈ names path) : '/' ∉ name.toList := by
  obtain ⟨piece, member, rfl⟩ := List.mem_map.mp h
  simpa using Text.not_mem_of_mem_pieces member

theorem names_intercalate {parts : List String} (nonempty : parts ≠ [])
    (single : ∀ name ∈ parts, '/' ∉ name.toList) : names ("/".intercalate parts) = parts := by
  induction parts with
  | nil => exact absurd rfl nonempty
  | cons name rest ih =>
      have alone := names_of_single (single name List.mem_cons_self)
      cases rest with
      | nil => simpa using alone
      | cons second rest =>
          have later := ih (by simp) fun other member => single other (List.mem_cons_of_mem _ member)
          rw [String.intercalate_cons_cons, names_append_slash, alone, later]
          rfl

/-- The names of a joined path are those of its base, apart from idle ones at their end, and then
those of the second path. -/
theorem names_join (base : String) (relative : isAbsolute name = false) :
    ∃ lead idle, names base = lead ++ idle ∧ (∀ name ∈ idle, name = "") ∧
      names (join base name) = lead ++ names name := by
  unfold join
  by_cases empty : base = ""
  · exact ⟨[], [""], by subst empty; rfl, by simp, by simp [empty]⟩
  · simp only [relative, empty, Bool.false_or, decide_false, Bool.false_eq_true, if_false]
    by_cases slash : base.toList.getLast? = some '/'
    · obtain ⟨front, spelled⟩ : ∃ front, base = front ++ "/" := by
        obtain ⟨front, shape⟩ := List.getLast?_eq_some_iff.mp slash
        exact ⟨.ofList front, by rw [← String.toList_inj]; simpa using shape⟩
      have whole : names base = names front ++ [""] := by
        rw [spelled, ← String.append_empty (s := front ++ "/"), names_append_slash]
        rfl
      exact ⟨names front, [""], whole, by simp, by rw [if_pos slash, spelled, names_append_slash]⟩
    · exact ⟨names base, [], by simp, by simp, by rw [if_neg slash, names_append_slash]⟩

theorem resolve_of_idle (idle : ∀ name ∈ first, name = "") : resolve here first = here := by
  have forward : ∀ name ∈ first, name ≠ ".." := fun name member => by
    rw [idle name member]
    decide
  rw [resolve_of_forward forward, List.filter_eq_nil_iff.mpr fun name member => by
    simp [idle name member], List.append_nil]

theorem resolve_names_join (relative : isAbsolute name = false) :
    resolve here (names (join base name)) = resolve (resolve here (names base)) (names name) := by
  obtain ⟨lead, idle, split, empty, joined⟩ := names_join base relative
  rw [joined, split, resolve_append, resolve_append, resolve_of_idle empty]

theorem isAbsolute_join (relative : isAbsolute name = false) :
    isAbsolute (join base name) = isAbsolute base := by
  unfold join
  by_cases empty : base = ""
  · rw [if_pos (by simp [empty]), relative, empty]
    rfl
  · obtain ⟨c, rest, spelled⟩ := List.exists_cons_of_ne_nil (l := base.toList) (by simpa using empty)
    rw [if_neg (by simp [relative, empty])]
    split <;> simp [isAbsolute, spelled]

theorem isAbsolute_of_single (h : '/' ∉ name.toList) : isAbsolute name = false := by
  cases spelled : name.toList with
  | nil => simp [isAbsolute, spelled]
  | cons c rest =>
      have other : c ≠ '/' := fun same => h (by simp [spelled, same])
      simp [isAbsolute, spelled, other]

theorem eq_empty_of_join (empty : join base name = "") : name = "" := by
  unfold join at empty
  split at empty
  · exact empty
  · rename_i filled
    simp only [Bool.or_eq_true, decide_eq_true_eq, not_or] at filled
    split at empty
    · exact absurd (String.append_eq_empty_iff.mp empty).1 filled.2
    · exact (String.append_eq_empty_iff.mp empty).2

theorem join_ne_empty (filled : name ≠ "") : join base name ≠ "" := fun empty =>
  filled (eq_empty_of_join empty)

section

variable [User]

theorem outset_join (relative : isAbsolute name = false) : outset (join base name) = outset base := by
  rw [outset, isAbsolute_join relative, outset]

theorem placeOf_join (relative : isAbsolute name = false) :
    placeOf (join base name) = resolve (placeOf base) (names name) := by
  rw [placeOf, outset_join relative, resolve_names_join relative, placeOf]

/-- Joining a path with a name of something in its directory. -/
theorem placeOf_join_of_isOrdinary (h : IsOrdinary name) :
    placeOf (join base name) = placeOf base ++ [name] := by
  rw [placeOf_join (isAbsolute_of_single h.single), names_of_single h.single, resolve_cons,
    advance_of_isOrdinary h, resolve_nil]

theorem leadsThrough_placeOf (path : String) : LeadsThrough path (placeOf path) :=
  ⟨names path, List.prefix_refl _, rfl⟩

theorem LeadsThrough.of_join (relative : isAbsolute name = false)
    (h : LeadsThrough (join base name) place) :
    LeadsThrough base place ∨ ∃ lead, lead <+: names name ∧ resolve (placeOf base) lead = place := by
  obtain ⟨before, idle, split, empty, joined⟩ := names_join base relative
  obtain ⟨lead, first, led⟩ := h
  rw [outset_join relative] at led
  rw [joined] at first
  rcases List.prefix_or_prefix_of_prefix first (List.prefix_append before _) with inside | ⟨tail, rfl⟩
  · exact .inl ⟨lead, inside.trans (split ▸ List.prefix_append before idle), led⟩
  · have later := (List.prefix_append_right_inj before).mp first
    refine .inr ⟨tail, later, ?_⟩
    rw [placeOf, split, resolve_append, resolve_of_idle empty, ← resolve_append, led]

theorem LeadsThrough.of_join_ordinary (h : IsOrdinary name)
    (through : LeadsThrough (join base name) place) :
    LeadsThrough base place ∨ place = placeOf base ++ [name] := by
  rcases through.of_join (isAbsolute_of_single h.single) with outside | ⟨lead, first, rfl⟩
  · exact .inl outside
  · rw [names_of_single h.single] at first
    rcases List.prefix_concat_iff.mp (show lead <+: [] ++ [name] from first) with rfl | none
    · exact .inr (advance_of_isOrdinary h)
    · obtain rfl := List.prefix_nil.mp none
      exact .inl (leadsThrough_placeOf base)

theorem LeadsThrough.join (relative : isAbsolute name = false) (first : lead <+: names name) :
    LeadsThrough (join base name) (resolve (placeOf base) lead) := by
  obtain ⟨before, idle, split, empty, joined⟩ := names_join base relative
  refine ⟨before ++ lead, ?_, ?_⟩
  · rw [joined]
    exact (List.prefix_append_right_inj before).mpr first
  · rw [outset_join relative, placeOf, split, resolve_append, resolve_append, resolve_of_idle empty]

/-- A path without a way back leads only through the places above its own. -/
theorem LeadsThrough.above (forward : ∀ name ∈ names path, name ≠ "..")
    (through : LeadsThrough path place) : place <+: placeOf path := by
  obtain ⟨lead, ⟨rest, split⟩, rfl⟩ := through
  rw [placeOf, ← split, resolve_append]
  exact prefix_of_forward fun name member => forward name (split ▸ List.mem_append_right lead member)

theorem covers_of_join (ordinary : IsOrdinary name)
    (inside : Covers (join base name) place) : Covers base place := by
  rw [Covers, placeOf_join_of_isOrdinary ordinary] at inside
  exact (List.prefix_append _ [name]).trans inside

end

/-! ### Parents -/

theorem dropIdle_suffix (parts : List String) : dropIdle parts <:+ parts := by
  fun_induction dropIdle parts with
  | case1 name second rest idle ih => exact ih.trans (List.suffix_cons name _)
  | case2 => exact List.suffix_refl _
  | case3 => exact List.suffix_refl _

theorem dropIdle_ne_nil {parts : List String} (nonempty : parts ≠ []) : dropIdle parts ≠ [] := by
  fun_induction dropIdle parts with
  | case1 name second rest idle ih => exact ih (by simp)
  | case2 => exact nonempty
  | case3 => exact nonempty

theorem getLast?_dropIdle (parts : List String) : (dropIdle parts).getLast? = parts.getLast? := by
  fun_induction dropIdle parts with
  | case1 name second rest idle ih => rw [ih, List.getLast?_cons_cons]
  | case2 => rfl
  | case3 => rfl

theorem exists_eq_append_dropIdle (parts : List String) :
    ∃ idle, parts = idle ++ dropIdle parts ∧ ∀ name ∈ idle, name = "" ∨ name = "." := by
  fun_induction dropIdle parts with
  | case1 name second rest idle ih =>
      obtain ⟨more, split, all⟩ := ih
      refine ⟨name :: more, by rw [List.cons_append, ← split], ?_⟩
      rintro other (_ | ⟨_, member⟩)
      · simpa using idle
      · exact all other member
  | case2 => exact ⟨[], rfl, by simp⟩
  | case3 => exact ⟨[], rfl, by simp⟩

/-- Idle names at the end, which are dropped in reverse, change nothing. -/
theorem resolve_dropIdle (parts : List String) :
    resolve here (dropIdle parts).reverse = resolve here parts.reverse := by
  obtain ⟨idle, split, all⟩ := exists_eq_append_dropIdle parts
  have stays (top : Place) : resolve top idle.reverse = top := by
    rw [resolve_of_forward (fun name member => by
        rcases all name (List.mem_reverse.mp member) with rfl | rfl <;> decide),
      List.filter_eq_nil_iff.mpr fun name member => by
        rcases all name (List.mem_reverse.mp member) with rfl | rfl <;> simp,
      List.append_nil]
  have whole := congrArg (fun all => resolve here all.reverse) split
  simp only [List.reverse_append, resolve_append, stays] at whole
  exact whole.symm

theorem names_ofReversed {parts : List String} (nonempty : parts ≠ [])
    (single : ∀ name ∈ parts, '/' ∉ name.toList) : names (ofReversed parts) = parts.reverse :=
  names_intercalate (by simpa using nonempty) fun name member =>
    single name (List.mem_reverse.mp member)

/-- What `parent?` takes from a path: its names up to the last one that is not idle, and before it
once more without idle names at the end. -/
theorem names_parent? {parent : String} (h : parent? path = some parent) :
    (∃ name, reversedNames path = [name] ∧ name ≠ "" ∧ parent = "") ∨
      ∃ name rest, reversedNames path = name :: rest ∧ rest ≠ [] ∧
        (dropIdle rest = [""] ∧ parent = "/" ∨
          dropIdle rest ≠ [""] ∧ names parent = (dropIdle rest).reverse) := by
  have single : ∀ name ∈ reversedNames path, '/' ∉ name.toList := fun name member =>
    single_of_mem_names (List.mem_reverse.mp ((dropIdle_suffix _).subset member))
  unfold parent? at h
  split at h
  · cases h
  · rename_i name shape
    refine .inl ⟨name, shape, ?_⟩
    split at h
    · cases h
    · exact ⟨‹_›, (Option.some.inj h).symm⟩
  · rename_i name rest several shape
    have nonempty : rest ≠ [] := fun empty => several empty
    refine .inr ⟨name, rest, shape, nonempty, ?_⟩
    split at h
    · rename_i root
      exact .inl ⟨root, (Option.some.inj h).symm⟩
    · rename_i inner
      rw [← Option.some.inj h]
      refine .inr ⟨inner, names_ofReversed (dropIdle_ne_nil nonempty) fun other member =>
        single other ?_⟩
      rw [shape]
      exact List.mem_cons_of_mem name ((dropIdle_suffix rest).subset member)

theorem isAbsolute_iff : isAbsolute path = true ↔ ∃ second more, names path = "" :: second :: more := by
  cases spelled : path.toList with
  | nil => simp [isAbsolute, names, spelled]
  | cons c rest =>
      by_cases slash : c = '/'
      · obtain ⟨piece, more, shape⟩ := List.exists_cons_of_ne_nil (Text.pieces_ne_nil '/' rest)
        simp [isAbsolute, names, spelled, slash, shape]
      · obtain ⟨piece, more, _, shape⟩ := Text.pieces_cons_of_ne slash rest
        simp [isAbsolute, names, spelled, slash, shape]

/-- Of a path that is not empty, the names up to some point tell whether it is absolute, if they are more
than an empty one. -/
theorem isAbsolute_of_upper {upper : String} (above : names upper <+: names path)
    (inner : names upper ≠ [""]) : isAbsolute upper = isAbsolute path := by
  obtain ⟨tail, split⟩ := above
  rw [Bool.eq_iff_iff, isAbsolute_iff, isAbsolute_iff, ← split]
  constructor
  · rintro ⟨second, more, shape⟩
    exact ⟨second, more ++ tail, by rw [shape]; rfl⟩
  · rintro ⟨second, more, shape⟩
    cases parts : names upper with
    | nil => exact absurd parts (names_ne_nil upper)
    | cons first rest =>
        rw [parts, List.cons_append] at shape
        obtain ⟨rfl, _⟩ := List.cons.inj shape
        cases rest with
        | nil => exact absurd parts inner
        | cons next onward => exact ⟨next, onward, rfl⟩

/-- The names of a parent are names of the path, up to some point; the empty path and the root are
parents as well. -/
theorem parent?_cases {parent : String} (h : parent? path = some parent) :
    isAbsolute parent = isAbsolute path ∧
      (parent = "" ∨ parent = "/" ∨ names parent <+: names path) := by
  rcases names_parent? h with ⟨name, only, nonempty, rfl⟩ | ⟨name, rest, shape, several, both⟩
  · refine ⟨?_, .inl rfl⟩
    cases rooted : isAbsolute path with
    | false => rfl
    | true =>
        obtain ⟨second, more, parted⟩ := isAbsolute_iff.mp rooted
        have last : (reversedNames path).getLast? = some "" := by
          rw [reversedNames, getLast?_dropIdle, parted]
          simp
        rw [only] at last
        exact absurd (Option.some.inj last) nonempty
  · have below : (name :: rest) <:+ (names path).reverse := shape ▸ dropIdle_suffix _
    have above : (dropIdle rest).reverse <+: names path := by
      rw [← List.reverse_suffix, List.reverse_reverse]
      exact (dropIdle_suffix rest).trans ((List.suffix_cons name rest).trans below)
    rcases both with ⟨root, rfl⟩ | ⟨inner, spelled⟩
    · refine ⟨Eq.symm ?_, .inr (.inl rfl)⟩
      obtain ⟨tail, split⟩ := above
      rw [root, List.reverse_singleton] at split
      have long := below.length_le
      rw [isAbsolute_iff.mpr]
      · rfl
      · cases tail with
        | nil =>
            obtain ⟨first, more, two⟩ := List.exists_cons_of_ne_nil several
            rw [← split, two] at long
            simp at long
        | cons next onward => exact ⟨next, onward, split.symm⟩
    · have nested : names parent <+: names path := spelled ▸ above
      refine ⟨isAbsolute_of_upper nested fun alone => inner ?_, .inr (.inr nested)⟩
      rw [spelled] at alone
      simpa using congrArg List.reverse alone

section

variable [User]

theorem outset_parent? {parent : String} (h : parent? path = some parent) :
    outset parent = outset path := by
  rw [outset, (parent?_cases h).1, outset]

theorem LeadsThrough.of_parent? {parent : String} (h : parent? path = some parent)
    (through : LeadsThrough parent place) : LeadsThrough path place := by
  obtain ⟨lead, first, led⟩ := through
  rw [outset_parent? h] at led
  have idle (all : ∀ name ∈ names parent, name = "") : LeadsThrough path place := by
    rw [resolve_of_idle fun name member => all name (first.subset member)] at led
    exact ⟨[], List.nil_prefix, led⟩
  rcases (parent?_cases h).2 with rfl | rfl | nested
  · exact idle (by decide)
  · exact idle (by decide)
  · exact ⟨lead, first.trans nested, led⟩

end

theorem exists_lineage (path : String) : ∃ above, lineage path = path :: above := by
  unfold lineage
  cases path.length with
  | zero => exact ⟨[], rfl⟩
  | succ fuel =>
      rw [lineageFrom]
      split
      · exact ⟨[], rfl⟩
      · exact ⟨_, rfl⟩

theorem LeadsThrough.of_mem_lineage [User] {dir : String} (member : dir ∈ lineage path)
    (through : LeadsThrough dir place) : LeadsThrough path place := by
  have general : ∀ fuel path, dir ∈ lineageFrom fuel path → LeadsThrough path place := by
    intro fuel
    induction fuel with
    | zero =>
        intro path member
        rwa [← List.mem_singleton.mp member]
    | succ fuel ih =>
        intro path member
        rw [lineageFrom] at member
        split at member
        · rwa [← List.mem_singleton.mp member]
        · rename_i parent above
          rcases List.mem_cons.mp member with rfl | later
          · exact through
          · exact (ih parent later).of_parent? above
  exact general _ path member

section

variable [User]

/-- Where a path with a last name leads: from its parent on by that name. -/
theorem placeOf_of_fileName? (named : fileName? path = some name) :
    IsOrdinary name ∧ ∃ parent, parent? path = some parent ∧
      placeOf path = placeOf parent ++ [name] := by
  obtain ⟨rest, shape, ordinary⟩ : ∃ rest, reversedNames path = name :: rest ∧ IsOrdinary name := by
    unfold fileName? at named
    split at named
    · cases named
    · rename_i last rest shape
      split at named
      · cases named
      · rename_i usable
        obtain rfl := Option.some.inj named
        simp only [Bool.or_eq_true, decide_eq_true_eq, not_or] at usable
        have member : last ∈ names path := by
          apply List.mem_reverse.mp
          apply (dropIdle_suffix (names path).reverse).subset
          rw [← reversedNames, shape]
          exact List.mem_cons_self
        exact ⟨rest, shape, usable.1.1, usable.1.2, usable.2, single_of_mem_names member⟩
  refine ⟨ordinary, ?_⟩
  obtain ⟨parent, above⟩ : ∃ parent, parent? path = some parent := by
    unfold parent?
    rw [shape]
    split
    · rename_i none
      cases none
    · rename_i only
      rw [if_neg fun empty => ordinary.nonempty ((List.cons.inj only).1.trans empty)]
      exact ⟨_, rfl⟩
    · split <;> exact ⟨_, rfl⟩
  refine ⟨parent, above, ?_⟩
  have shown : resolve (outset path) (dropIdle (names path).reverse).reverse = placeOf path := by
    rw [resolve_dropIdle, List.reverse_reverse, placeOf]
  rw [← reversedNames, shape, List.reverse_cons, resolve_concat, advance_of_isOrdinary ordinary] at shown
  rw [← shown, placeOf, outset_parent? above]
  rcases names_parent? above with ⟨_, only, _, rfl⟩ | ⟨_, _, again, _, ⟨root, rfl⟩ | ⟨_, spelled⟩⟩
  · rw [shape] at only
    obtain ⟨rfl, rfl⟩ := List.cons.inj only
    rfl
  · obtain ⟨rfl, rfl⟩ := List.cons.inj (shape.symm.trans again)
    rw [← resolve_dropIdle rest, root]
    rfl
  · obtain ⟨rfl, rfl⟩ := List.cons.inj (shape.symm.trans again)
    rw [spelled, resolve_dropIdle]

end

end Path

end ToolWrappers
