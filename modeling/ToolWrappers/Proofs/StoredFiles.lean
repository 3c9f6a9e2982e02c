import ToolWrappers.Proofs.Confinement

/-! Files at the places of their paths. A file that has been written or copied can be found, read and
written again by the same path, for as long as the directories on its way stay. -/

namespace ToolWrappers

open ToolWrappers.Action ToolWrappers.Path

namespace FileTree

variable {t u v : FileTree} {path base name : String} {place top other : Place} {node : Node}
  {mode : Nat} {bytes : ByteArray} {idle : List String}

/-! ### Directories that stay -/

def KeepsDirectories (t u : FileTree) : Prop :=
  ∀ place, t.isDirectoryAt place = true → u.isDirectoryAt place = true

instance : IsPreorder FileTree KeepsDirectories where
  refl _ _ := id
  trans _ _ _ first second place := second place ∘ first place

/-- Nothing that is put where a path has room for it takes a directory away. -/
theorem puts_keepsDirectories [User] : Puts KeepsDirectories path node := by
  intro t idle place _ room
  refine isDirectoryAt_put_of_free ?_
  split at room
  · simp [isDirectoryAt, room]
  · exact room

/-- A path from which a usable path leads on is usable itself. -/
theorem pathFault?_of_join (ordinary : IsOrdinary name) (nonempty : base ≠ "")
    (usable : pathFault? (join base name) = none) : pathFault? base = none := by
  have relative := isAbsolute_of_single ordinary.single
  obtain ⟨rest, spelled⟩ : ∃ rest, join base name = base ++ rest := by
    unfold join
    rw [if_neg (by simp [relative, nonempty])]
    split
    · exact ⟨name, rfl⟩
    · exact ⟨"/" ++ name, String.append_assoc⟩
  unfold pathFault? at usable ⊢
  rw [spelled] at usable
  split at usable
  · cases usable
  · split at usable
    · cases usable
    · rename_i clear
      simp only [String.utf8ByteSize_append, String.toList_append, List.contains_append,
        Bool.or_eq_true, decide_eq_true_eq, not_or] at clear
      rw [if_neg nonempty, if_neg]
      simp only [Bool.or_eq_true, decide_eq_true_eq, not_or]
      exact ⟨by omega, clear.2.1⟩

theorem walk_of_idle (directory : t.isDirectoryAt place = true) (empty : ∀ slash ∈ idle, slash = "") :
    t.walk place idle = .ok place := by
  induction idle with
  | nil => rfl
  | cons slash rest ih =>
      rw [walk, if_neg (by simp [directory]), if_pos (by simp [empty slash List.mem_cons_self])]
      exact ih fun other member => empty other (List.mem_cons_of_mem slash member)

section

variable [User]

theorem Vacancy.kept (h : t.Vacancy path idle place) (kept : KeepsDirectories t u) :
    u.Vacancy path idle place := by
  obtain ⟨above, name, parent, split, walked, directory, rest⟩ := h.reached
  have there := kept parent directory
  exact ⟨h.usable, h.empty, above, name, parent, split,
    walk_kept walked kept (by simp [isDirectoryAt_iff.mp there]), there, rest⟩

theorem Vacancy.fileSpot (h : t.Vacancy path [] place) (free : t.isDirectoryAt place = false) :
    t.fileSpot path = .ok place := by
  obtain ⟨above, name, parent, split, walked, directory, ordinary, fits, rfl⟩ := h.reached
  have spotted : t.spot path (names path).reverse = .ok (parent ++ [name]) := by
    simp [spot, h.usable, split, walked, directory, ordinary.nonempty, ordinary.ne_dot,
      ordinary.ne_dots, fits, bind, Except.bind]
    rfl
  simp [FileTree.fileSpot, spotted, free, bind, Except.bind]
  rfl

/-- Where a file goes is a matter of the directories on its way. -/
theorem fileSpot_kept (h : t.fileSpot path = .ok place) (kept : KeepsDirectories t u)
    (free : u.isDirectoryAt place = false) : u.fileSpot path = .ok place :=
  ((vacancy_of_fileSpot h).1.kept kept).fileSpot free

/-! ### Stored files -/

/-- A file lies where its path leads, and a file written by this path goes there. -/
structure Stored (t : FileTree) (path : String) (place : Place) (mode : Nat) (bytes : ByteArray) :
    Prop where
  spotted : t.fileSpot path = .ok place
  file : t.get? place = some (.file mode bytes)

theorem Stored.placeOf (h : t.Stored path place mode bytes) : Path.placeOf path = place :=
  (vacancy_of_fileSpot h.spotted).1.placeOf

theorem Stored.find (h : t.Stored path place mode bytes) : t.find path = .ok place :=
  (vacancy_of_fileSpot h.spotted).1.find (fun _ => id) (by simp [h.file])

theorem Stored.read? (h : t.Stored path place mode bytes) : t.read? path = some bytes :=
  read?_of_find h.find h.file

theorem Stored.kept (h : t.Stored path place mode bytes) (kept : KeepsDirectories t u)
    (same : u.get? place = t.get? place) : u.Stored path place mode bytes := by
  have file := same.trans h.file
  exact ⟨fileSpot_kept h.spotted kept (by simp [isDirectoryAt, file]), file⟩

theorem Stored.of_confined {free made : Place → Prop} (h : t.Stored path place mode bytes)
    (kept : KeepsDirectories t u) (within : Confined free made t u) (outside : ¬free place) :
    u.Stored path place mode bytes := by
  apply h.kept kept
  rw [(within.file_iff outside).mpr h.file, h.file]

/-! ### Paths from a directory -/

/-- When something is found by a joined path, the names of the first path are a walk to a directory. -/
theorem exists_walk_of_find_join (relative : isAbsolute name = false)
    (found : t.find (join base name) = .ok place) :
    ∃ top, t.walk (outset base) (names base) = .ok top ∧ t.isDirectoryAt top = true := by
  obtain ⟨_, walked⟩ := find_eq_ok_iff.mp found
  obtain ⟨before, slashes, split, empty, joined⟩ := names_join base relative
  rw [joined, outset_join relative, walk_append] at walked
  cases reached : t.walk (outset base) before with
  | error fault =>
      rw [reached] at walked
      cases walked
  | ok top =>
      rw [reached] at walked
      obtain ⟨part, parts, shape⟩ := List.exists_cons_of_ne_nil (names_ne_nil name)
      rw [shape] at walked
      have directory := (walk_cons_eq_ok (t := t) walked).1
      refine ⟨top, ?_, directory⟩
      rw [split, walk_append, reached]
      exact walk_of_idle directory empty

/-- What lies in a directory is found by the joined path. -/
theorem find_join (ordinary : IsOrdinary name) (fits : fitsName name = true)
    (usable : pathFault? (join base name) = none) (walked : t.walk (outset base) (names base) = .ok top)
    (directory : t.isDirectoryAt top = true) (there : t.get? (top ++ [name]) ≠ none) :
    t.find (join base name) = .ok (top ++ [name]) := by
  have relative := isAbsolute_of_single ordinary.single
  obtain ⟨before, slashes, split, empty, joined⟩ := names_join base relative
  have stays := walk_of_idle directory empty
  rw [split, walk_append] at walked
  cases reached : t.walk (outset base) before with
  | error fault =>
      rw [reached] at walked
      cases walked
  | ok middle =>
      rw [reached] at walked
      obtain rfl : middle = top :=
        (resolve_of_idle empty).symm.trans (resolve_of_walk (t := t) walked)
      rw [find_eq_ok_iff, joined, outset_join relative, walk_append, reached,
        names_of_single ordinary.single]
      refine ⟨usable, ?_⟩
      obtain ⟨node, present⟩ := Option.ne_none_iff_exists'.mp there
      change t.walk middle [name] = _
      simp [walk, directory, ordinary.nonempty, ordinary.ne_dot, ordinary.ne_dots, fits, present]

/-- What is found by a joined path is found in every tree that has it, if the first path leads through
directories there. -/
theorem find_join_of_opens (ordinary : IsOrdinary name) (found : t.find (join base name) = .ok place)
    (opens : u.Opens base) (there : u.get? place ≠ none) : u.find (join base name) = .ok place := by
  obtain ⟨usable, walked⟩ := find_eq_ok_iff.mp found
  have relative := isAbsolute_of_single ordinary.single
  obtain ⟨before, slashes, split, _, joined⟩ := names_join base relative
  rw [joined, names_of_single ordinary.single, outset_join relative] at walked
  rw [find_eq_ok_iff, joined, names_of_single ordinary.single, outset_join relative]
  refine ⟨usable, walk_of_passes walked (fun lead rest parted filled => ?_) there⟩
  have first : lead <+: before := by
    rcases List.prefix_concat_iff.mp ⟨rest, parted⟩ with whole | inside
    · rw [whole, List.append_right_eq_self] at parted
      exact absurd parted filled
    · exact inside
  exact opens _ ⟨lead, first.trans (split ▸ List.prefix_append before slashes), rfl⟩

/-- The way into a directory leads through directories. -/
theorem Opens.join (opens : t.Opens base) (ordinary : IsOrdinary name)
    (directory : t.isDirectoryAt (Path.placeOf base ++ [name]) = true) : t.Opens (Path.join base name) := by
  intro place through
  rcases through.of_join_ordinary ordinary with above | rfl
  · exact opens place above
  · exact directory

/-- The directory in which a file has its place is found by its own path. -/
theorem find_base (ordinary : IsOrdinary name) (nonempty : base ≠ "")
    (spotted : t.fileSpot (join base name) = .ok place) : t.find base = .ok place.dropLast := by
  obtain ⟨vacant, _⟩ := vacancy_of_fileSpot spotted
  obtain ⟨above, last, parent, split, walked, directory, _, _, rfl⟩ := vacant.reached
  have relative := isAbsolute_of_single ordinary.single
  obtain ⟨before, slashes, whole, empty, joined⟩ := names_join base relative
  rw [joined, names_of_single ordinary.single] at split
  rw [outset_join relative] at walked
  obtain ⟨rfl, _⟩ := List.append_inj' split rfl
  refine find_eq_ok_iff.mpr ⟨pathFault?_of_join ordinary nonempty vacant.usable, ?_⟩
  rw [whole, walk_append, walked, List.dropLast_concat]
  exact walk_of_idle directory empty

/-! ### Writing and copying -/

theorem keepsDirectories_makeDirs : Keeps KeepsDirectories (makeDirs path) :=
  Keeps.makeDirs fun _ _ => puts_keepsDirectories

/-- What is put where a path has its place is stored there. -/
theorem stored_put (spotted : t.fileSpot path = .ok place) :
    KeepsDirectories t (t.put place (.file mode bytes)) ∧
      (t.put place (.file mode bytes)).Stored path place mode bytes := by
  obtain ⟨vacant, free⟩ := vacancy_of_fileSpot spotted
  have kept : KeepsDirectories t (t.put place (.file mode bytes)) := isDirectoryAt_put_of_free free
  have file : (t.put place (.file mode bytes)).get? place = some (.file mode bytes) :=
    vacant.get?_put
  exact ⟨kept, fileSpot_kept spotted kept (by simp [isDirectoryAt, file]), file⟩

theorem stored_of_writeFile (run : (writeFile path bytes).run t = (.ok (), u)) :
    ∃ place, t.fileSpot path = .ok place ∧
      u = t.put place (.file (writtenMode (t.get? place)) bytes) ∧
      mayWrite (writtenMode (t.get? place)) = true ∧ KeepsDirectories t u ∧
      u.Stored path place (writtenMode (t.get? place)) bytes := by
  obtain ⟨place, spotted, rfl, allowed⟩ := run_writeFile_eq_ok run
  exact ⟨place, spotted, rfl, allowed, stored_put spotted⟩

/-- A file that is copied to another place arrives there with its mode; copied onto itself, it is
emptied. -/
theorem stored_of_copyFile {source target : String}
    (run : (copyFile source target).run t = (.ok (), u)) :
    ∃ origin place mode bytes, Copying source target t origin place mode bytes ∧
      u = t.put place (.file mode (if origin = place then .empty else bytes)) ∧
      KeepsDirectories t u ∧ u.Stored target place mode (if origin = place then .empty else bytes) := by
  rcases copyFile_cases source target t with
    ⟨fault, failed⟩ | ⟨origin, place, mode, bytes, copying, copied⟩
  · rw [failed] at run
    cases run
  · rw [copied] at run
    obtain rfl := (Prod.mk.inj run).2
    exact ⟨origin, place, mode, bytes, copying, rfl, stored_put copying.spotted⟩

end

end FileTree

end ToolWrappers
