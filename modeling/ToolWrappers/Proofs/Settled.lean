import ToolWrappers.Proofs.Footprints
import ToolWrappers.Proofs.InstalledFiles

/-! Settled actions: done once more, they succeed and leave everything as it is. A directory that is there
need not be made; a file that holds what is written to it stays the same. -/

namespace ToolWrappers

open ToolWrappers.Action ToolWrappers.FileTree ToolWrappers.Path

namespace FileTree

variable {t u v : FileTree} {path base name : String} {place : Place} {mode : Nat} {bytes : ByteArray}

/-- A well-formed tree that has the same as another one at every place. -/
structure Alike (t u : FileTree) : Prop where
  wellFormed : u.WellFormed
  same : ∀ place, u.get? place = t.get? place

theorem Alike.agree (h : Alike t u) : AgreeOn (fun _ => True) u t := fun place _ => h.same place

theorem Alike.keepsDirectories (h : Alike t u) : KeepsDirectories t u := by
  intro place directory
  rwa [isDirectoryAt, h.same]

/-- Putting a file where the same one is. -/
theorem Alike.put (h : Alike t u) (there : t.get? place = some (.file mode bytes)) :
    Alike t (u.put place (.file mode bytes)) := by
  have within : Confined (· = place) (fun _ => False) u (u.put place (.file mode bytes)) :=
    .put_of_file ((h.same place).trans there) rfl
  refine ⟨within.wellFormed h.wellFormed, fun other => ?_⟩
  by_cases here : other = place
  · subst here
    rw [get?_put, there]
    split
    · rename_i root
      rw [root] at there
      cases there
    · simp
  · rw [get?_put_of_ne here, h.same]

theorem endsInName_join (ordinary : IsOrdinary name) : endsInName (join base name) = true := by
  obtain ⟨lead, _, _, _, joined⟩ := names_join base (isAbsolute_of_single ordinary.single)
  rw [names_of_single ordinary.single] at joined
  rw [endsInName, joined, List.reverse_append, List.reverse_singleton, List.singleton_append,
    List.dropWhile_cons_of_neg (by simp [ordinary.nonempty])]
  simp [ordinary.ne_dot, ordinary.ne_dots]

section

variable [User]

theorem Alike.find (h : Alike t u) : u.find path = t.find path := h.agree.find fun _ _ => trivial

theorem Alike.stored (h : Alike t u) (stored : t.Stored path place mode bytes) :
    u.Stored path place mode bytes :=
  stored.kept h.keepsDirectories (h.same place)

theorem Stored.writeSpot (h : t.Stored path place mode bytes) (allowed : mayWrite mode = true) :
    t.writeSpot path = .ok place := by
  refine writeSpot_of_fileSpot h.spotted fun other held there => ?_
  obtain ⟨rfl, _⟩ := Node.file.inj (Option.some.inj (h.file.symm.trans there))
  exact allowed

/-- The directory of a stored file is found by its own path. -/
theorem Stored.isDirectory_base (ordinary : IsOrdinary name) (nonempty : base ≠ "")
    (h : t.Stored (join base name) place mode bytes) : t.isDirectory base = true := by
  have directory := (vacancy_of_fileSpot h.spotted).1.isDirectoryAt_dropLast
  simp [isDirectory, node?, find_base ordinary nonempty h.spotted, isDirectoryAt_iff.mp directory]

/-- At the path of a directory there is no room for another one. -/
theorem directorySpot_of_isDirectory (h : t.isDirectory path = true) :
    t.directorySpot path = .error .blocked := by
  obtain ⟨place, found, there⟩ := node?_eq_some (of_decide_eq_true h)
  obtain ⟨usable, walked⟩ := find_eq_ok_iff.mp found
  cases spotted : t.directorySpot path with
  | ok other =>
      obtain ⟨⟨idle, vacant⟩, free⟩ := vacancy_of_directorySpot spotted
      obtain rfl := vacant.placeOf.symm.trans (placeOf_of_find found)
      rw [there] at free
      cases free
  | error fault =>
      obtain ⟨slashes, split, empty⟩ := exists_eq_append_slashes (names path)
      unfold directorySpot spot at spotted
      rw [usable] at spotted
      generalize (names path).reverse.dropWhile (· = "") = reversed at spotted split
      cases reversed with
      | nil =>
          cases spotted
          rfl
      | cons name above =>
          rw [split, List.reverse_cons, List.append_assoc, walk_append] at walked
          cases reached : t.walk (outset path) above.reverse with
          | error other =>
              rw [reached] at walked
              cases walked
          | ok parent =>
              simp only [reached, bind, Except.bind] at spotted
              split at spotted
              · rename_i outcome
                split at outcome
                · cases outcome
                  cases spotted
                  rfl
                · cases outcome
              · split at spotted
                · cases spotted
                  rfl
                · cases spotted

theorem run_makeDirs_of_isDirectory (h : t.isDirectory path = true) :
    (makeDirs path).run t = (.ok (), t) := by
  have blocked : (makeDir path).run t = (.error .blocked, t) := by
    rw [run_makeDir, directorySpot_of_isDirectory h]
  obtain ⟨above, shape⟩ := exists_lineage path
  rw [makeDirs, shape, makeLineage]
  split
  · rfl
  · rw [run_tryCatch, blocked]
    dsimp only
    rw [run_bind_of_ok (run_get t), if_pos h]
    rfl

/-- A directory whose path does not lead through what it holds is removed with everything below it. -/
theorem run_removeDir (found : t.find path = .ok place) (directory : t.isDirectoryAt place = true)
    (again : (t.eraseBelow place).find path = .ok place) (ending : endsInName path = true) :
    (removeDir path).run t = (.ok (), (t.eraseBelow place).erase place) := by
  have below : (step (ε := Fault) fun t => do
      let place ← t.find path
      if t.isDirectoryAt place then return t.eraseBelow place else throw .blocked).run t =
        (.ok (), t.eraseBelow place) := by
    simp [run_step, found, directory, bind, Except.bind]
    rfl
  rw [removeDir, run_bind_of_ok below, run_step, again]
  simp [ending]
  rfl

end

end FileTree

/-! ### Settled actions -/

namespace Action

variable {ε ε' α β : Type} {act : Action ε α} {v : FileTree} {path source target : String}
  {place origin : Place} {mode : Nat} {bytes : ByteArray}

/-- From every tree that is like this one, an action succeeds and comes back to such a tree. -/
def Settled (v : FileTree) (act : Action ε α) : Prop :=
  ∀ u, Alike v u → ∃ a w, act.run u = (.ok a, w) ∧ Alike v w

theorem Settled.pure (a : α) : Settled v (Pure.pure a : Action ε α) := fun u alike => ⟨a, u, rfl, alike⟩

theorem Settled.bind {f : α → Action ε β} (first : Settled v act) (next : ∀ a, Settled v (f a)) :
    Settled v (act >>= f) := by
  intro u alike
  obtain ⟨a, w, run, alike⟩ := first u alike
  obtain ⟨b, x, later, alike⟩ := next a w alike
  exact ⟨b, x, (run_bind_of_ok run f).trans later, alike⟩

theorem Settled.orFail (h : Settled v act) (failure : ε') : Settled v (act.orFail failure) := by
  intro u alike
  obtain ⟨a, w, run, alike⟩ := h u alike
  exact ⟨a, w, run_orFail_eq_ok.mpr run, alike⟩

section

variable [User]

theorem settled_makeDirs (h : v.isDirectory path = true) : Settled v (makeDirs path) := by
  intro u alike
  refine ⟨(), u, run_makeDirs_of_isDirectory ?_, alike⟩
  rwa [alike.agree.isDirectory fun _ _ => trivial]

/-- A file has been copied to another place, and it may be copied once more. -/
structure Recopies (v : FileTree) (source target : String) (origin place : Place) (mode : Nat)
    (bytes : ByteArray) : Prop where
  apart : origin ≠ place
  found : v.find source = .ok origin
  file : v.get? origin = some (.file mode bytes)
  readable : mayRead mode = true
  writable : mayWrite mode = true
  stored : v.Stored target place mode bytes

theorem settled_copyFile (h : Recopies v source target origin place mode bytes) :
    Settled v (copyFile source target) := by
  intro u alike
  have run := run_copyFile (alike.find.trans h.found) ((alike.same origin).trans h.file) h.readable
    ((alike.stored h.stored).writeSpot h.writable)
  rw [if_neg h.apart] at run
  exact ⟨(), _, run, alike.put h.stored.file⟩

end

end Action

/-! ### Settled files -/

namespace Install

variable {v u : FileTree} {dir source target shown : String} {files : List GeneratedFile}
  {names : List String} {glob : Glob}

section

variable [User]

/-- Writing succeeds wherever all paths have room for a file, and no file there forbids it. -/
theorem exists_run_writeInto
    (spots : ∀ file ∈ files, ∃ place, u.writeSpot (join dir file.name) = .ok place) :
    ∃ paths w, (writeInto dir files).run u = (.ok paths, w) := by
  induction files generalizing u with
  | nil => exact ⟨[], u, rfl⟩
  | cons file rest ih =>
      obtain ⟨place, spotted⟩ := spots file List.mem_cons_self
      obtain ⟨x, wrote⟩ : ∃ x, (writeFile (join dir file.name) file.contents.toUTF8).run u =
          (.ok (), x) := ⟨_, by rw [run_writeFile, spotted]⟩
      obtain ⟨_, _, put, allowed, kept, stored⟩ := stored_of_writeFile wrote
      have later : ∀ other ∈ rest, ∃ place, x.writeSpot (join dir other.name) = .ok place := by
        intro other member
        obtain ⟨there, room⟩ := spots other (List.mem_cons_of_mem file member)
        obtain ⟨room, free⟩ := writeSpot_eq_ok room
        obtain ⟨vacant, empty⟩ := vacancy_of_fileSpot room
        refine ⟨there, writeSpot_of_fileSpot (fileSpot_kept room kept ?_) fun mode bytes held => ?_⟩
        · rw [put, isDirectoryAt, get?_put, if_neg vacant.ne_root]
          split
          · simp
          · exact empty
        · rw [put, get?_put, if_neg vacant.ne_root] at held
          split at held
          · obtain ⟨rfl, _⟩ := Node.file.inj (Option.some.inj held)
            exact allowed
          · exact free mode bytes held
      obtain ⟨more, w, done⟩ := ih later
      refine ⟨join dir file.name :: more, w, ?_⟩
      rw [writeInto]
      exact (run_bind_of_ok (run_orFail_eq_ok.mpr wrote) _).trans (run_bind_of_ok done _)

/-- Writing files into a directory that holds them already. -/
theorem settled_writeFiles (nonempty : dir ≠ "") (ordinary : ∀ file ∈ files, IsOrdinary file.name)
    (stored : ∀ name contents, contents? files name = some contents →
      ∃ mode, v.Stored (join dir name) (placeOf dir ++ [name]) mode contents.toUTF8 ∧
        mayWrite mode = true) :
    Settled v (writeFiles dir files) := by
  unfold writeFiles
  split
  · exact .pure []
  · rename_i several
    obtain ⟨first, member⟩ := List.exists_mem_of_ne_nil files (by simpa using several)
    obtain ⟨_, last⟩ := contents?_of_mem member
    obtain ⟨_, there, _⟩ := stored first.name _ last
    refine .bind ((settled_makeDirs (there.isDirectory_base (ordinary first member) nonempty)).orFail _)
      fun _ u alike => ?_
    have spots : ∀ file ∈ files, ∃ place, u.writeSpot (join dir file.name) = .ok place := by
      intro file member
      obtain ⟨contents, last⟩ := contents?_of_mem member
      obtain ⟨mode, there, writable⟩ := stored file.name contents last
      exact ⟨_, (alike.stored there).writeSpot writable⟩
    obtain ⟨paths, w, run⟩ := exists_run_writeInto spots
    have within := confined_writeInto dir ordinary (fun _ => False) u
    rw [run] at within
    refine ⟨paths, w, run, within.wellFormed alike.wellFormed, fun place => ?_⟩
    by_cases written : Under (placeOf dir) (files.map (·.name)) place
    · obtain ⟨name, listed, rfl⟩ := written
      obtain ⟨file, member, rfl⟩ := List.mem_map.mp listed
      obtain ⟨contents, last⟩ := contents?_of_mem member
      obtain ⟨mode, there, _⟩ := stored file.name contents last
      rw [(stored_of_writeInto ordinary run last).1.file, alike.same, there.file]
      rfl
    · rw [← alike.same]
      exact (within.elsewhere place written).resolve_right fun made => made.1

theorem settled_copyEach (copied : ∀ name ∈ names, IsOrdinary name ∧ ∃ origin place mode bytes,
      Recopies v (join source name) (join target name) origin place mode bytes) :
    Settled v (copyEach target (names.map (join source))) := by
  induction names with
  | nil => exact .pure []
  | cons name rest ih =>
      obtain ⟨ordinary, _, _, _, _, again⟩ := copied name List.mem_cons_self
      rw [List.map_cons, copyEach_join ordinary]
      refine .bind ((settled_copyFile again).orFail _) fun _ => ?_
      exact .bind (ih fun other member => copied other (List.mem_cons_of_mem name member)) fun _ =>
        .pure _

theorem settled_of_blind (blind : glob.Blind source) (target : String) :
    Settled v (copyRFiles glob source target) := fun u alike =>
  ⟨[], u, run_copyRFiles_of_blind blind alike.wellFormed target, alike⟩

/-- Copying R files to a directory that holds the copies already. -/
theorem settled_copyRFiles (shows : glob.Shows source shown) (nonempty : target ≠ "")
    (copied : ∀ name, IsRFileName name → v.isFile (join shown name) = true → ∃ origin place mode bytes,
      Recopies v (join shown name) (join target name) origin place mode bytes) :
    Settled v (copyRFiles glob source target) := by
  intro u alike
  obtain ⟨names, listed, run⟩ := exists_run_of_shows shows alike.wellFormed target
  have there (name : String) (member : name ∈ names) : IsOrdinary name ∧ ∃ origin place mode bytes,
      Recopies v (join shown name) (join target name) origin place mode bytes := by
    obtain ⟨named, file⟩ := (listed.mem_iff name).mp member
    rw [isFile, alike.agree.node? fun _ _ => trivial] at file
    exact ⟨named.ordinary, copied name named file⟩
  rw [run, copyNames]
  split
  · exact ⟨[], u, rfl, alike⟩
  · rename_i several
    obtain ⟨first, member⟩ := List.exists_mem_of_ne_nil _ (by simpa using several)
    obtain ⟨ordinary, _, _, _, _, again⟩ := there first member
    have directory := again.stored.isDirectory_base ordinary nonempty
    exact (Settled.bind ((settled_makeDirs directory).orFail _) fun _ => settled_copyEach there) u alike

end

end Install

end ToolWrappers
