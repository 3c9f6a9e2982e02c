import ToolWrappers.Proofs.Places

/-! Walks through a tree: what they pass, where they arrive, and which other trees they still lead
through. Every entry of a well-formed tree stands in a directory. -/

namespace ToolWrappers

namespace FileTree

/-- Every entry stands in a directory and has a name of its own there. -/
structure WellFormed (t : FileTree) : Prop where
  anchored : ∀ entry ∈ t.entries, t.isDirectoryAt entry.1.dropLast = true ∧
    ∀ name ∈ entry.1.getLast?, Path.IsOrdinary name
  distinct : (t.entries.map Prod.fst).Nodup

instance (t : FileTree) : Decidable t.WellFormed :=
  decidable_of_iff ((∀ entry ∈ t.entries, t.isDirectoryAt entry.1.dropLast = true ∧
    ∀ name ∈ entry.1.getLast?, Path.IsOrdinary name) ∧ (t.entries.map Prod.fst).Nodup)
    ⟨fun ⟨a, b⟩ => ⟨a, b⟩, fun ⟨a, b⟩ => ⟨a, b⟩⟩

variable {t u : FileTree} {path name : String} {here there place other : Place}
  {names lead idle : List String} {node : Node}

theorem isDirectoryAt_iff : t.isDirectoryAt place = true ↔ t.get? place = some .directory :=
  decide_eq_true_iff

theorem get?_put_of_ne (away : other ≠ place) : (t.put place node).get? other = t.get? other := by
  rw [get?_put, if_neg away]
  split
  · rename_i root
    rw [root]
    rfl
  · rfl

/-- Putting something where there is no directory leaves every directory. -/
theorem isDirectoryAt_put_of_free (free : t.isDirectoryAt place = false) (other : Place)
    (directory : t.isDirectoryAt other = true) : (t.put place node).isDirectoryAt other = true := by
  rw [isDirectoryAt_iff, get?_put_of_ne, isDirectoryAt_iff.mp directory]
  rintro rfl
  rw [free] at directory
  cases directory

/-- What the first step of a walk that arrives says: it starts from a directory, and any tree that
has this directory and where it leads takes the same step. -/
theorem walk_cons_eq_ok (h : t.walk here (name :: names) = .ok there) :
    t.isDirectoryAt here = true ∧ t.walk (Path.advance here name) names = .ok there ∧
      ∀ {u : FileTree}, u.isDirectoryAt here = true → u.get? (Path.advance here name) ≠ none →
        u.walk here (name :: names) = u.walk (Path.advance here name) names := by
  rw [walk] at h
  split at h
  · cases h
  · rename_i standing
    refine ⟨by simpa using standing, ?_⟩
    unfold Path.advance
    split at h
    · rename_i idle
      rw [if_pos idle]
      refine ⟨h, fun there _ => ?_⟩
      rw [walk, if_neg (by simp [there]), if_pos idle]
    · rename_i busy
      rw [if_neg busy]
      split at h
      · rename_i back
        rw [if_pos back]
        refine ⟨h, fun there _ => ?_⟩
        rw [walk, if_neg (by simp [there]), if_neg busy, if_pos back]
      · rename_i onward
        rw [if_neg onward]
        split at h
        · cases h
        · rename_i fits
          split at h
          · cases h
          · refine ⟨h, fun there known => ?_⟩
            rw [walk, if_neg (by simp [there]), if_neg busy, if_neg onward, if_neg fits]
            split
            · rename_i unknown
              exact absurd unknown known
            · rfl

/-- A walk that arrives, arrives where its names lead. -/
theorem resolve_of_walk (h : t.walk here names = .ok there) :
    Path.resolve here names = there := by
  induction names generalizing here with
  | nil => exact Except.ok.inj h
  | cons name names ih => exact ih (walk_cons_eq_ok h).2.1

/-- A walk passes directories only. -/
theorem isDirectoryAt_of_walk (h : t.walk here (lead ++ names) = .ok there) (onward : names ≠ []) :
    t.isDirectoryAt (Path.resolve here lead) = true := by
  rw [walk_append] at h
  cases first : t.walk here lead with
  | error fault =>
      rw [first] at h
      cases h
  | ok middle =>
      obtain ⟨name, names, rfl⟩ := List.exists_cons_of_ne_nil onward
      rw [first] at h
      rw [resolve_of_walk first]
      exact (walk_cons_eq_ok (t := t) h).1

/-- A walk arrives also in a tree that has directories wherever it passes, and something at its end. -/
theorem walk_of_passes (h : t.walk here names = .ok there)
    (passes : ∀ lead rest, lead ++ rest = names → rest ≠ [] →
      u.isDirectoryAt (Path.resolve here lead) = true)
    (last : u.get? there ≠ none) : u.walk here names = .ok there := by
  induction names generalizing here with
  | nil => exact h
  | cons name names ih =>
      obtain ⟨_, onward, same⟩ := walk_cons_eq_ok h
      have known : u.get? (Path.advance here name) ≠ none := by
        cases names with
        | nil => rwa [Except.ok.inj onward]
        | cons second names =>
            have directory : u.isDirectoryAt (Path.advance here name) = true :=
              passes [name] (second :: names) rfl (by simp)
            simp [isDirectoryAt_iff.mp directory]
      rw [same (passes [] (name :: names) rfl (by simp)) known]
      apply ih onward
      intro lead rest split filled
      exact passes (name :: lead) rest (by rw [List.cons_append, split]) filled

/-- A walk arrives also in a tree that has the same directories, and something at its end. -/
theorem walk_kept (h : t.walk here names = .ok there)
    (kept : ∀ place, t.isDirectoryAt place = true → u.isDirectoryAt place = true)
    (last : u.get? there ≠ none) : u.walk here names = .ok there :=
  walk_of_passes h (fun _ _ split filled =>
    kept _ (isDirectoryAt_of_walk (split.symm ▸ h) filled)) last

/-- Two trees with the same at every place on a way are walked alike. -/
theorem walk_congr (same : ∀ lead, lead <+: names →
    u.get? (Path.resolve here lead) = t.get? (Path.resolve here lead)) :
    u.walk here names = t.walk here names := by
  induction names generalizing here with
  | nil => rfl
  | cons name names ih =>
      have standing : u.isDirectoryAt here = t.isDirectoryAt here := by
        rw [isDirectoryAt, isDirectoryAt, show u.get? here = _ from same [] List.nil_prefix]
        rfl
      have later : u.walk (Path.advance here name) names = t.walk (Path.advance here name) names :=
        ih fun lead first => same (name :: lead) (List.cons_prefix_cons.mpr ⟨rfl, first⟩)
      have there : u.get? (Path.advance here name) = t.get? (Path.advance here name) :=
        same [name] (List.cons_prefix_cons.mpr ⟨rfl, List.nil_prefix⟩)
      unfold Path.advance at later there
      simp only [walk, standing]
      split
      · rfl
      · split
        · rename_i idle
          rwa [if_pos idle] at later
        · rename_i busy
          rw [if_neg busy] at later there
          split
          · rename_i back
            rwa [if_pos back] at later
          · rename_i forward
            rw [if_neg forward] at later there
            rw [there, later]

/-- The names of a path up to idle slashes at its end. -/
theorem exists_eq_append_slashes (parts : List String) :
    ∃ slashes, parts = (parts.reverse.dropWhile (· = "")).reverse ++ slashes ∧
      ∀ slash ∈ slashes, slash = "" := by
  refine ⟨(parts.reverse.takeWhile (· = "")).reverse, ?_, fun slash member => ?_⟩
  · rw [← List.reverse_append, List.takeWhile_append_dropWhile, List.reverse_reverse]
  · simpa using List.all_eq_true.mp List.all_takeWhile slash (List.mem_reverse.mp member)

section

variable [User]

theorem find_eq_ok_iff :
    t.find path = .ok place ↔
      pathFault? path = none ∧ t.walk (Path.outset path) (Path.names path) = .ok place := by
  unfold find
  cases pathFault? path <;> simp

theorem placeOf_of_find (h : t.find path = .ok place) : Path.placeOf path = place :=
  resolve_of_walk (find_eq_ok_iff.mp h).2

/-- What is at a path that is found lies at the place of the path. -/
theorem node?_eq_some (h : t.node? path = some node) :
    ∃ place, t.find path = .ok place ∧ t.get? place = some node := by
  unfold node? at h
  split at h
  · exact ⟨_, ‹_›, h⟩
  · cases h

/-- A path leads where it led, as long as the directories on the way stay and something is there. -/
theorem find_kept (found : t.find path = .ok place)
    (kept : ∀ place, t.isDirectoryAt place = true → u.isDirectoryAt place = true)
    (there : u.get? place ≠ none) : u.find path = .ok place := by
  obtain ⟨usable, walked⟩ := find_eq_ok_iff.mp found
  exact find_eq_ok_iff.mpr ⟨usable, walk_kept walked kept there⟩

theorem read?_eq_some_iff {bytes : ByteArray} : t.read? path = some bytes ↔
    ∃ place mode, t.find path = .ok place ∧ t.get? place = some (.file mode bytes) := by
  constructor
  · intro h
    unfold read? at h
    split at h
    · rename_i mode held there
      obtain ⟨place, found, file⟩ := node?_eq_some there
      exact ⟨place, mode, found, Option.some.inj h ▸ file⟩
    · cases h
  · rintro ⟨place, mode, found, there⟩
    simp [read?, node?, found, there]

theorem read?_of_find {mode : Nat} {bytes : ByteArray} (found : t.find path = .ok place)
    (there : t.get? place = some (.file mode bytes)) : t.read? path = some bytes :=
  read?_eq_some_iff.mpr ⟨place, mode, found, there⟩

theorem isFile_iff : t.isFile path = true ↔ ∃ bytes, t.read? path = some bytes := by
  unfold isFile read?
  split <;> simp

/-- A file that is still read is the one that was there, when nothing else has come. -/
theorem read?_of_kept {bytes held : ByteArray}
    (kept : ∀ place node, u.get? place = some node → t.get? place = some node)
    (before : t.read? path = some bytes) (now : u.read? path = some held) : held = bytes := by
  obtain ⟨place, mode, found, file⟩ := read?_eq_some_iff.mp before
  obtain ⟨place', mode', found', file'⟩ := read?_eq_some_iff.mp now
  obtain rfl := (placeOf_of_find found).symm.trans (placeOf_of_find found')
  exact (Node.file.inj (Option.some.inj ((kept place _ file').symm.trans file))).2

/-- A path that is found leads through directories only before its last place. -/
theorem passes_directories_of_find (found : t.find path = .ok place)
    (through : Path.LeadsThrough path other) : other = place ∨ t.isDirectoryAt other = true := by
  obtain ⟨_, walked⟩ := find_eq_ok_iff.mp found
  obtain ⟨lead, ⟨rest, split⟩, rfl⟩ := through
  by_cases whole : rest = []
  · rw [← split, whole, List.append_nil] at walked
    exact .inl (resolve_of_walk walked)
  · exact .inr (isDirectoryAt_of_walk (split ▸ walked) whole)

/-- Everything that a path leads through is a directory. -/
def Opens (t : FileTree) (path : String) : Prop :=
  ∀ place, Path.LeadsThrough path place → t.isDirectoryAt place = true

/-- When something is found by a joined path, the first path leads through directories only. -/
theorem opens_of_find_join (relative : Path.isAbsolute name = false)
    (found : t.find (Path.join path name) = .ok place) : t.Opens path := by
  obtain ⟨_, walked⟩ := find_eq_ok_iff.mp found
  obtain ⟨before, slashes, split, empty, joined⟩ := Path.names_join path relative
  rw [joined, Path.outset_join relative] at walked
  rintro other ⟨lead, first, rfl⟩
  rw [split] at first
  rcases List.prefix_or_prefix_of_prefix first (List.prefix_append before _) with
    ⟨rest, shape⟩ | ⟨tail, rfl⟩
  · rw [← shape, List.append_assoc] at walked
    exact isDirectoryAt_of_walk walked (by simp [Path.names_ne_nil])
  · have later := (List.prefix_append_right_inj before).mp first
    rw [Path.resolve_append,
      Path.resolve_of_idle fun slash member => empty slash (later.subset member)]
    exact isDirectoryAt_of_walk walked (Path.names_ne_nil name)

/-- A path at which something can be made: its names are a walk to a directory, one more name, and
idle slashes. -/
structure Vacancy (t : FileTree) (path : String) (idle : List String) (place : Place) : Prop where
  usable : pathFault? path = none
  empty : ∀ slash ∈ idle, slash = ""
  reached : ∃ above name parent, Path.names path = above ++ name :: idle ∧
    t.walk (Path.outset path) above = .ok parent ∧ t.isDirectoryAt parent = true ∧ Path.IsOrdinary name ∧
    fitsName name = true ∧ place = parent ++ [name]

theorem Vacancy.of_spot {reversed : List String}
    (split : Path.names path = reversed.reverse ++ idle) (empty : ∀ slash ∈ idle, slash = "")
    (h : t.spot path reversed = .ok place) : t.Vacancy path idle place := by
  unfold spot at h
  split at h
  · cases h
  · rename_i usable
    split at h
    · cases h
    · rename_i name above
      cases walked : t.walk (Path.outset path) above.reverse with
      | error fault =>
          rw [walked] at h
          cases h
      | ok parent =>
          rw [walked] at h
          simp only [bind, Except.bind] at h
          split at h
          · cases h
          · rename_i free
            simp only [Bool.or_eq_true, Bool.not_eq_true', decide_eq_true_eq, not_or,
              Bool.not_eq_false] at free
            obtain ⟨⟨⟨⟨directory, nonempty⟩, dot⟩, dots⟩, fits⟩ := free
            have single : '/' ∉ name.toList :=
              Path.single_of_mem_names (show name ∈ Path.names path by simp [split])
            exact ⟨usable, empty, above.reverse, name, parent, by simp [split], walked, directory,
              ⟨nonempty, dot, dots, single⟩, fits, (Except.ok.inj h).symm⟩

theorem Vacancy.placeOf (h : t.Vacancy path idle place) : Path.placeOf path = place := by
  obtain ⟨above, name, parent, split, walked, _, ordinary, _, rfl⟩ := h.reached
  rw [Path.placeOf, split, Path.resolve_append, resolve_of_walk walked, Path.resolve_cons,
    Path.advance_of_isOrdinary ordinary, Path.resolve_of_idle h.empty]

theorem Vacancy.isDirectoryAt_dropLast (h : t.Vacancy path idle place) :
    t.isDirectoryAt place.dropLast = true := by
  obtain ⟨_, _, parent, _, _, directory, _, _, rfl⟩ := h.reached
  rwa [List.dropLast_concat]

theorem Vacancy.exists_name (h : t.Vacancy path idle place) :
    ∃ name, place = place.dropLast ++ [name] ∧ Path.IsOrdinary name := by
  obtain ⟨_, name, parent, _, _, _, ordinary, _, rfl⟩ := h.reached
  exact ⟨name, by rw [List.dropLast_concat], ordinary⟩

theorem Vacancy.ne_root (h : t.Vacancy path idle place) : place ≠ [] := by
  obtain ⟨_, _, _, _, _, _, _, _, rfl⟩ := h.reached
  simp

/-- What is put there lies there. -/
theorem Vacancy.get?_put (h : t.Vacancy path idle place) :
    (u.put place node).get? place = some node := by
  rw [FileTree.get?_put, if_neg h.ne_root, if_pos rfl]

/-- Up to where something can be made, a path leads through directories only. -/
theorem Vacancy.passes_directories (h : t.Vacancy path idle place)
    (through : Path.LeadsThrough path other) : other = place ∨ t.isDirectoryAt other = true := by
  obtain ⟨above, name, parent, split, walked, directory, ordinary, _, rfl⟩ := h.reached
  obtain ⟨lead, first, rfl⟩ := through
  rw [split] at first
  rcases List.prefix_or_prefix_of_prefix first (List.prefix_append above _) with
    ⟨rest, shape⟩ | ⟨tail, rfl⟩
  · by_cases whole : rest = []
    · rw [← shape, whole, List.append_nil] at walked
      rw [resolve_of_walk walked]
      exact .inr directory
    · exact .inr (isDirectoryAt_of_walk (shape ▸ walked) whole)
  · rw [Path.resolve_append, resolve_of_walk walked]
    have later := (List.prefix_append_right_inj above).mp first
    cases tail with
    | nil => exact .inr directory
    | cons next tail =>
        obtain ⟨rfl, rest⟩ := List.cons_prefix_cons.mp later
        rw [Path.resolve_cons, Path.advance_of_isOrdinary ordinary,
          Path.resolve_of_idle fun slash member => h.empty slash (rest.subset member)]
        exact .inl rfl

/-- What has been made at a path is found there, as long as the directories on the way stay. -/
theorem Vacancy.find (h : t.Vacancy path [] place)
    (kept : ∀ place, t.isDirectoryAt place = true → u.isDirectoryAt place = true)
    (made : u.get? place ≠ none) : u.find path = .ok place := by
  obtain ⟨above, name, parent, split, walked, directory, ordinary, fits, rfl⟩ := h.reached
  have there := kept parent directory
  have known : u.get? parent ≠ none := by simp [isDirectoryAt_iff.mp there]
  rw [find_eq_ok_iff, split, walk_append, walk_kept walked kept known]
  refine ⟨h.usable, ?_⟩
  obtain ⟨node, present⟩ := Option.ne_none_iff_exists'.mp made
  simp [walk, there, ordinary.nonempty, ordinary.ne_dot, ordinary.ne_dots, fits, present, bind,
    Except.bind]

theorem vacancy_of_fileSpot (h : t.fileSpot path = .ok place) :
    t.Vacancy path [] place ∧ t.isDirectoryAt place = false := by
  unfold fileSpot at h
  cases spotted : t.spot path (Path.names path).reverse with
  | error fault =>
      rw [spotted] at h
      cases h
  | ok found =>
      rw [spotted] at h
      simp only [bind, Except.bind] at h
      split at h
      · cases h
      · rename_i free
        obtain rfl := Except.ok.inj h
        exact ⟨.of_spot (by simp) (by simp) spotted, by simpa using free⟩

theorem vacancy_of_directorySpot (h : t.directorySpot path = .ok place) :
    (∃ idle, t.Vacancy path idle place) ∧ t.get? place = none := by
  unfold directorySpot at h
  cases spotted : t.spot path ((Path.names path).reverse.dropWhile (· = "")) with
  | error fault =>
      rw [spotted] at h
      cases h
  | ok found =>
      rw [spotted] at h
      simp only [bind, Except.bind] at h
      split at h
      · cases h
      · rename_i free
        obtain rfl := Except.ok.inj h
        obtain ⟨slashes, split, empty⟩ := exists_eq_append_slashes (Path.names path)
        exact ⟨⟨slashes, .of_spot split empty spotted⟩, by simpa using free⟩

/-- A file may be written where it has its place, unless one is there that forbids it. -/
theorem writeSpot_eq_ok (h : t.writeSpot path = .ok place) : t.fileSpot path = .ok place ∧
    ∀ mode bytes, t.get? place = some (.file mode bytes) → mayWrite mode = true := by
  unfold writeSpot at h
  cases spotted : t.fileSpot path with
  | error fault =>
      rw [spotted] at h
      cases h
  | ok spot =>
      simp only [spotted, bind, Except.bind] at h
      split at h
      · rename_i mode bytes there
        split at h
        · rename_i allowed
          obtain rfl := Except.ok.inj h
          refine ⟨rfl, fun mode' bytes' file => ?_⟩
          rw [there] at file
          cases file
          exact allowed
        · cases h
      · rename_i other
        obtain rfl := Except.ok.inj h
        exact ⟨rfl, fun mode bytes file => (other mode bytes file).elim⟩

theorem writeSpot_of_fileSpot (h : t.fileSpot path = .ok place)
    (allowed : ∀ mode bytes, t.get? place = some (.file mode bytes) → mayWrite mode = true) :
    t.writeSpot path = .ok place := by
  simp only [writeSpot, h, bind, Except.bind]
  split
  · rename_i mode bytes there
    rw [if_pos (allowed mode bytes there)]
    rfl
  · rfl

end

end FileTree

end ToolWrappers
