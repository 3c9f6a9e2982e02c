import ToolWrappers.Proofs.Installation
import ToolWrappers.Proofs.StoredFiles

/-! What writing generated files and copying R files leave behind. Each file is stored under its own
name: a generated one with the contents of the last file of this name, a copy with those of its source.
Nothing else changes, apart from new directories. -/

namespace ToolWrappers

open ToolWrappers.Action ToolWrappers.FileTree ToolWrappers.Path

namespace Install

variable {source target dir shown : String} {t u : FileTree} {name : String}
  {files : List GeneratedFile} {paths names : List String} {glob : Glob}

/-! ### Written files -/

/-- The contents that files leave under a name: those of the last file of this name. -/
def contents? (files : List GeneratedFile) (name : String) : Option String :=
  (files.filter (·.name = name)).getLast?.map (·.contents)

theorem contents?_cons (file : GeneratedFile) (rest : List GeneratedFile) (name : String) :
    contents? (file :: rest) name =
      (contents? rest name).or (if file.name = name then some file.contents else none) := by
  unfold contents?
  by_cases named : file.name = name
  · rw [List.filter_cons_of_pos (by simpa using named), List.getLast?_cons, if_pos named]
    cases (rest.filter (·.name = name)).getLast? <;> rfl
  · rw [List.filter_cons_of_neg (by simpa using named), if_neg named, Option.or_none]

theorem contents?_of_mem {file : GeneratedFile} (member : file ∈ files) :
    ∃ contents, contents? files file.name = some contents := by
  have inside : file ∈ files.filter (·.name = file.name) := List.mem_filter.mpr ⟨member, by simp⟩
  obtain ⟨last, found⟩ := Option.ne_none_iff_exists'.mp
    (mt List.getLast?_eq_none_iff.mp (List.ne_nil_of_mem inside))
  exact ⟨last.contents, by rw [contents?, found, Option.map_some]⟩

/-- The places in a directory under these names. -/
def Under (top : Place) (names : List String) (place : Place) : Prop :=
  ∃ name ∈ names, place = top ++ [name]

section

variable [User]

/-- Putting a file under one of these names. -/
theorem puts_under (ordinary : IsOrdinary name) (member : name ∈ names) (made : Place → Prop) (mode : Nat)
    (bytes : ByteArray) :
    Puts (Confined (Under (placeOf dir) names) made) (join dir name) (.file mode bytes) := by
  intro t idle place vacant room
  apply Confined.put_of_vacancy vacant room
  left
  exact ⟨name, member, vacant.placeOf ▸ placeOf_join_of_isOrdinary ordinary⟩

theorem confined_writeInto (dir : String) (ordinary : ∀ file ∈ files, IsOrdinary file.name)
    (made : Place → Prop) :
    Keeps (Confined (Under (placeOf dir) (files.map (·.name))) made) (writeInto dir files) := by
  apply keeps_writeInto
  intro file member mode bytes
  exact puts_under (ordinary file member) (List.mem_map_of_mem member) made mode bytes

theorem keepsDirectories_writeInto (dir : String) (files : List GeneratedFile) :
    Keeps KeepsDirectories (writeInto dir files) :=
  keeps_writeInto fun _ _ _ _ => puts_keepsDirectories

/-- Every file is stored under its name. A file that was there keeps its mode, which allowed writing. -/
theorem stored_of_writeInto (ordinary : ∀ file ∈ files, IsOrdinary file.name)
    (run : (writeInto dir files).run t = (.ok paths, u)) {contents : String}
    (last : contents? files name = some contents) :
    u.Stored (join dir name) (placeOf dir ++ [name]) (writtenMode (t.get? (placeOf dir ++ [name])))
        contents.toUTF8 ∧
      mayWrite (writtenMode (t.get? (placeOf dir ++ [name]))) = true := by
  induction files generalizing t paths with
  | nil => cases last
  | cons file rest ih =>
      have ordinary' : ∀ other ∈ rest, IsOrdinary other.name := fun other member =>
        ordinary other (List.mem_cons_of_mem file member)
      obtain ⟨_, w, wrote, run⟩ := run_bind_eq_ok run
      obtain ⟨place, _, put, allowed, _, stored⟩ := stored_of_writeFile (run_orFail_eq_ok.mp wrote)
      obtain ⟨more, v, later, done⟩ := run_bind_eq_ok run
      cases done
      obtain rfl : placeOf dir ++ [file.name] = place := by
        rw [← stored.placeOf, placeOf_join_of_isOrdinary (ordinary file List.mem_cons_self)]
      rw [contents?_cons] at last
      cases found : contents? rest name with
      | some c =>
          rw [found] at last
          obtain rfl := Option.some.inj last
          have after := ih ordinary' later found
          -- a file of this name that was written before has the mode that it was given then
          have mode : writtenMode (w.get? (placeOf dir ++ [name])) =
              writtenMode (t.get? (placeOf dir ++ [name])) := by
            by_cases same : name = file.name
            · rw [same, stored.file]
              rfl
            · rw [put, get?_put_of_ne (by simpa using same)]
          rwa [mode] at after
      | none =>
          rw [found, Option.none_or] at last
          split at last
          · rename_i named
            obtain rfl := Option.some.inj last
            subst named
            refine ⟨?_, allowed⟩
            have kept : KeepsDirectories w u := by
              have all := keepsDirectories_writeInto dir rest w
              rwa [later] at all
            apply stored.kept kept
            have within := confined_writeInto dir ordinary' (fun _ => False) w
            rw [later] at within
            refine (within.elsewhere _ ?_).resolve_right fun made => made.1
            rintro ⟨other, member, same⟩
            obtain ⟨again, inside, rfl⟩ := List.mem_map.mp member
            obtain ⟨c, present⟩ := contents?_of_mem inside
            rw [show again.name = file.name by simpa using same.symm, found] at present
            cases present
          · cases last

/-- Files have been written into a directory: each is stored under its name, and nothing else differs but
new directories on the way. -/
structure Wrote (dir : String) (files : List GeneratedFile) (t u : FileTree) : Prop where
  kept : KeepsDirectories t u
  confined : Confined (Under (placeOf dir) (files.map (·.name))) (LeadsThrough dir) t u
  stored : ∀ name contents, contents? files name = some contents →
    ∃ mode, u.Stored (join dir name) (placeOf dir ++ [name]) mode contents.toUTF8 ∧ mayWrite mode = true

theorem wrote_of_writeFiles (ordinary : ∀ file ∈ files, IsOrdinary file.name)
    (run : (writeFiles dir files).run t = (.ok paths, u)) : Wrote dir files t u := by
  unfold writeFiles at run
  split at run
  · rename_i empty
    obtain rfl := (Prod.mk.inj run).2
    obtain rfl := List.isEmpty_iff.mp empty
    exact ⟨refl_of _ t, refl_of _ t, fun name contents last => by cases last⟩
  · obtain ⟨_, w, made, later⟩ := run_bind_eq_ok run
    have made := run_orFail_eq_ok.mp made
    have dirs : KeepsDirectories t ((makeDirs dir).run t).2 := keepsDirectories_makeDirs t
    have grown : Confined (Under (placeOf dir) (files.map (·.name))) (LeadsThrough dir) t
        ((makeDirs dir).run t).2 := confined_makeDirs (fun _ => id) t
    have kept := keepsDirectories_writeInto dir files w
    have within := confined_writeInto dir ordinary (LeadsThrough dir) w
    rw [made] at dirs grown
    rw [later] at kept within
    exact ⟨trans_of _ dirs kept, trans_of _ grown within, fun name contents last =>
      ⟨_, stored_of_writeInto ordinary later last⟩⟩

/-! ### Copied files -/

/-- What is left of bytes that are copied from one directory to another. A file copied onto itself ends
up empty. -/
def afterCopy (origin top : Place) (bytes : ByteArray) : ByteArray :=
  if origin = top then .empty else bytes

/-- Files have been copied from one directory to another: each could be read, and is stored at its target
with the mode of its source and what is left of its bytes; nothing else differs but new directories on the
way, if there is anything to copy. -/
structure Copied (source target : String) (names : List String) (t u : FileTree) : Prop where
  kept : KeepsDirectories t u
  confined : Confined (Under (placeOf target) names)
    (fun place => names ≠ [] ∧ LeadsThrough target place) t u
  stored : ∀ name ∈ names, ∃ mode bytes,
    t.get? (placeOf source ++ [name]) = some (.file mode bytes) ∧ mayRead mode = true ∧
      u.find (join source name) = .ok (placeOf source ++ [name]) ∧
      u.Stored (join target name) (placeOf target ++ [name]) mode
        (afterCopy (placeOf source) (placeOf target) bytes)

/-- From one directory to another, every byte is copied and every source stays. -/
theorem Copied.stored_of_apart (h : Copied source target names t u)
    (apart : placeOf source ≠ placeOf target) (member : name ∈ names) :
    ∃ mode bytes, t.get? (placeOf source ++ [name]) = some (.file mode bytes) ∧ mayRead mode = true ∧
      u.get? (placeOf source ++ [name]) = some (.file mode bytes) ∧
      u.find (join source name) = .ok (placeOf source ++ [name]) ∧
      u.Stored (join target name) (placeOf target ++ [name]) mode bytes := by
  obtain ⟨mode, bytes, there, readable, found, stored⟩ := h.stored name member
  rw [afterCopy, if_neg apart] at stored
  refine ⟨mode, bytes, there, readable, (h.confined.file_iff ?_).mpr there, found, stored⟩
  rintro ⟨second, _, same⟩
  exact apart (List.append_inj' same rfl).1

theorem copied_of_copyEach (ordinary : ∀ name ∈ names, IsOrdinary name) (distinct : names.Nodup)
    (run : (copyEach target (names.map (join source))).run t = (.ok paths, u)) :
    Copied source target names t u ∧ paths = names.map (join target) := by
  induction names generalizing t paths with
  | nil =>
      cases run
      exact ⟨⟨refl_of _ _, refl_of _ _, by simp⟩, rfl⟩
  | cons name rest ih =>
      have ordinary' : ∀ other ∈ rest, IsOrdinary other := fun other member =>
        ordinary other (List.mem_cons_of_mem name member)
      have named := ordinary name List.mem_cons_self
      obtain ⟨once, distinct⟩ := List.nodup_cons.mp distinct
      rw [List.map_cons, copyEach_join named] at run
      obtain ⟨_, w, copied, run⟩ := run_bind_eq_ok run
      obtain ⟨first, place, mode, bytes, copying, put, dirs, stored⟩ :=
        stored_of_copyFile (run_orFail_eq_ok.mp copied)
      obtain ⟨more, v, later, done⟩ := run_bind_eq_ok run
      cases done
      obtain rfl : placeOf source ++ [name] = first := by
        rw [← placeOf_of_find copying.found, placeOf_join_of_isOrdinary named]
      obtain rfl : placeOf target ++ [name] = place := by
        rw [← stored.placeOf, placeOf_join_of_isOrdinary named]
      have onto : placeOf source ++ [name] = placeOf target ++ [name] ↔
          placeOf source = placeOf target := List.append_left_inj [name]
      simp only [onto] at put stored
      obtain ⟨after, rfl⟩ := ih ordinary' distinct later
      have within : Confined (Under (placeOf target) (name :: rest))
          (fun place => name :: rest ≠ [] ∧ LeadsThrough target place) t w := by
        rw [put]
        obtain ⟨vacant, free⟩ := vacancy_of_fileSpot copying.spotted
        exact .put_of_vacancy vacant (by simpa using free) (.inl ⟨name, List.mem_cons_self, rfl⟩)
      have onward : Confined (Under (placeOf target) (name :: rest))
          (fun place => name :: rest ≠ [] ∧ LeadsThrough target place) w u :=
        after.confined.mono (fun _ ⟨other, member, same⟩ =>
          ⟨other, List.mem_cons_of_mem name member, same⟩) fun _ new => ⟨List.cons_ne_nil _ _, new.2⟩
      refine ⟨⟨trans_of _ dirs after.kept, trans_of _ within onward, ?_⟩, rfl⟩
      rintro other (_ | ⟨_, member⟩)
      · -- nothing of this name is copied again
        have outside (dir : Place) : ¬Under (placeOf target) rest (dir ++ [name]) := by
          rintro ⟨second, inside, same⟩
          obtain rfl : name = second := by simpa using (List.append_inj' same rfl).2
          exact once inside
        obtain ⟨held, remains⟩ :
            ∃ held, w.get? (placeOf source ++ [name]) = some (.file mode held) := by
          by_cases same : placeOf source = placeOf target
          · rw [same]
            exact ⟨_, stored.file⟩
          · rw [put, get?_put_of_ne (mt onto.mp same)]
            exact ⟨bytes, copying.file⟩
        have there := (after.confined.file_iff (outside _)).mpr remains
        exact ⟨mode, bytes, copying.file, copying.readable,
          find_kept copying.found (trans_of _ dirs after.kept) (by simp [there]),
          stored.of_confined after.kept after.confined (outside _)⟩
      · obtain ⟨m, b, there, arrived⟩ := after.stored other member
        refine ⟨m, b, ?_, arrived⟩
        rw [← there, put, get?_put_of_ne]
        intro same
        obtain ⟨rfl⟩ : other = name := by simpa using (List.append_inj' same rfl).2
        exact once member

theorem copied_of_copyNames (ordinary : ∀ name ∈ names, IsOrdinary name) (distinct : names.Nodup)
    (run : (copyNames source target names).run t = (.ok paths, u)) :
    Copied source target names t u ∧ paths = names.map (join target) := by
  unfold copyNames at run
  split at run
  · rename_i empty
    cases run
    rw [List.isEmpty_iff.mp empty]
    exact ⟨⟨refl_of _ _, refl_of _ _, by simp⟩, rfl⟩
  · rename_i filled
    obtain ⟨_, w, made, later⟩ := run_bind_eq_ok run
    have made := run_orFail_eq_ok.mp made
    have dirs : KeepsDirectories t ((makeDirs target).run t).2 := keepsDirectories_makeDirs t
    have grown : Confined (fun _ => False) (LeadsThrough target) t ((makeDirs target).run t).2 :=
      confined_makeDirs (fun _ => id) t
    rw [made] at dirs grown
    obtain ⟨copied, listed⟩ := copied_of_copyEach ordinary distinct later
    refine ⟨⟨trans_of _ dirs copied.kept,
      trans_of _ (grown.mono (fun _ => False.elim) fun _ through => ⟨by simpa using filled, through⟩)
        copied.confined, ?_⟩, listed⟩
    intro name member
    obtain ⟨mode, bytes, there, rest⟩ := copied.stored name member
    exact ⟨mode, bytes, (grown.file_iff id).mp there, rest⟩

/-- Copying R files from a directory that is shown copies everything that is listed. -/
theorem copied_of_shows (shows : glob.Shows source shown) (h : t.WellFormed)
    (run : (copyRFiles glob source target).run t = (.ok paths, u)) :
    ∃ names, Listed t shown names ∧ Copied shown target names t u ∧ paths = names.map (join target) := by
  obtain ⟨names, listed, copies⟩ := exists_run_of_shows shows h target
  rw [copies] at run
  have ordinary (name : String) (member : name ∈ names) := (listed.exists_file member).1.ordinary
  exact ⟨names, listed, copied_of_copyNames ordinary listed.distinct run⟩

/-- Nothing is copied from a directory that is not shown. -/
theorem copied_of_copyRFiles (lawful : glob.Lawful) (filled : source ≠ "") (h : t.WellFormed)
    (run : (copyRFiles glob source target).run t = (.ok paths, u)) :
    glob.Blind source ∧ paths = [] ∧ u = t ∨
      ∃ shown names, glob.Shows source shown ∧ Listed t shown names ∧
        Copied shown target names t u ∧ paths = names.map (join target) := by
  rcases lawful source filled with ⟨shown, shows⟩ | blind
  · obtain ⟨names, copied⟩ := copied_of_shows shows h run
    exact .inr ⟨shown, names, shows, copied⟩
  · rw [run_copyRFiles_of_blind blind h] at run
    cases run
    exact .inl ⟨blind, rfl, rfl⟩

end

end Install

end ToolWrappers
