import ToolWrappers.Proofs.Extraction
import ToolWrappers.Proofs.InstalledFiles

/-! What copying the R files of a directory does. The copies are those of a listing in byte order that is
made before anything is copied; each takes the mode of its source and its bytes, and nothing else differs.
Two kinds of paths are apart: a directory that is not shown counts as empty, and what is copied into the
directory that it comes from is lost. -/

namespace ToolWrappers.Install

open ToolWrappers.Action ToolWrappers.Bundle ToolWrappers.FileTree ToolWrappers.Path

/-- The R files directly in a directory, in byte order. -/
structure Listing (t : FileTree) (origin : Place) (names : List String) : Prop where
  sorted : names.Pairwise fun first second => Text.bytes first < Text.bytes second
  mem_iff : ∀ name, name ∈ names ↔ (∃ stem, name = stem ++ ".R") ∧
    ∃ mode bytes, t.get? (origin ++ [name]) = some (.file mode bytes)

section

variable [User]

/-- Files of these names have been copied from one directory to another, and their paths are given.
`left` says what is left of the bytes of a file. -/
structure Copies (left : ByteArray → ByteArray) (origin : Place) (target : String) (names : List String)
    (t u : FileTree) (paths : List String) : Prop where
  listed : paths = names.map (join target)
  stored : ∀ name ∈ names, ∃ mode bytes, t.get? (origin ++ [name]) = some (.file mode bytes) ∧
    u.node? (join target name) = some (.file mode (left bytes))
  elsewhere : ∀ place, (∀ path ∈ paths, placeOf path ≠ place) → u.get? place = t.get? place ∨
    paths ≠ [] ∧ LeadsThrough target place ∧ t.get? place = none ∧ u.get? place = some .directory

variable {source target shown : String} {names paths : List String} {t u : FileTree} {origin : Place}
  {glob : Glob}

/-- What is listed under the spelling that shows a directory are the R files in it, if everything in it
can be found by a path. -/
theorem listing_of_listed (h : t.WellFormed) (shows : glob.Shows source shown)
    (found : t.find source = .ok origin)
    (reached : ∀ child ∈ t.children origin, t.has (join source child.1) = true)
    (listed : Listed t shown names) : Listing t origin names := by
  have lies : placeOf shown = origin := shows.way.placeOf.trans (placeOf_of_find found)
  refine ⟨listed.sorted.imp Text.bytes_lt_of_lt, fun name => ?_⟩
  constructor
  · intro member
    obtain ⟨named, mode, bytes, _, there⟩ := listed.exists_file member
    exact ⟨named.ending, mode, bytes, lies ▸ there⟩
  · rintro ⟨ending, mode, bytes, there⟩
    have ordinary : IsOrdinary name :=
      (h.standing (Option.ne_none_iff_exists'.mpr ⟨_, there⟩)).2 name (by simp)
    obtain ⟨node, held⟩ := Option.isSome_iff_exists.mp (reached _ (h.mem_children_iff.mpr there))
    obtain ⟨place, seen, _⟩ := node?_eq_some held
    obtain rfl : placeOf source ++ [name] = place := by
      rw [← placeOf_of_find seen, placeOf_join_of_isOrdinary ordinary]
    have usable := (find_eq_ok_iff.mp seen).1
    rw [← shows.way.find_join ordinary (shows.usable name ordinary usable) usable,
      placeOf_of_find found] at seen
    exact (listed.mem_iff name).mpr ⟨⟨ordinary, ending⟩, isFile_iff.mpr ⟨bytes, read?_of_find seen there⟩⟩

/-- What has been copied to a directory, by the paths of the copies. -/
theorem Copied.copies (h : Copied shown target names t u)
    (ordinary : ∀ name ∈ names, IsOrdinary name) :
    Copies (afterCopy (placeOf shown) (placeOf target)) (placeOf shown) target names t u
      (names.map (join target)) := by
  refine ⟨rfl, fun name member => ?_, fun place outside => ?_⟩
  · obtain ⟨mode, bytes, there, _, _, stored⟩ := h.stored name member
    refine ⟨mode, bytes, there, ?_⟩
    rw [node?, stored.find]
    exact stored.file
  · have beside : ¬Under (placeOf target) names place := by
      rintro ⟨name, member, rfl⟩
      apply outside (join target name) (List.mem_map_of_mem member)
      exact placeOf_join_of_isOrdinary (ordinary name member)
    rcases h.confined.elsewhere place beside with same | ⟨⟨several, through⟩, new⟩
    · exact .inl same
    · exact .inr ⟨by simpa using several, through, new⟩

/-- Copying gives the paths of the R files that a directory lists, in byte order, and leaves a copy of
each with its mode and its bytes; nothing else differs, but for the target directory and directories on
the way to it. A directory that is not shown counts as empty, and files that are copied into the directory
that they are in, however it is spelled, are all empty afterwards. -/
theorem r_files_copied_exactly (lawful : glob.Lawful) (h : t.WellFormed)
    (found : t.find source = .ok origin)
    (reached : ∀ child ∈ t.children origin, t.has (join source child.1) = true)
    (run : (copyRFiles glob source target).run t = (.ok paths, u)) :
    (glob.Blind source → paths = [] ∧ u = t) ∧
      (¬glob.Blind source → ∃ names, Listing t origin names ∧
        Copies (fun bytes => if placeOf target = origin then .empty else bytes) origin target names t u
          paths) := by
  have filled : source ≠ "" := by
    rintro rfl
    cases (find_eq_ok_iff.mp found).1
  constructor
  · intro blind
    rw [run_copyRFiles_of_blind blind h] at run
    cases run
    exact ⟨rfl, rfl⟩
  · intro seen
    rcases copied_of_copyRFiles lawful filled h run with ⟨blind, _⟩ | ⟨shown, names, shows, listed, copied, rfl⟩
    · exact absurd blind seen
    · refine ⟨names, listing_of_listed h shows found reached listed, ?_⟩
      have lies : placeOf shown = origin := shows.way.placeOf.trans (placeOf_of_find found)
      have left : afterCopy (placeOf shown) (placeOf target) =
          fun bytes => if placeOf target = origin then .empty else bytes := by
        funext bytes
        simp only [afterCopy, lies, eq_comm]
      rw [← left, ← lies]
      exact copied.copies fun name member => (listed.exists_file member).1.ordinary

end

/-- A home directory in which lies a directory with an R file and another file. -/
def scriptsTree : FileTree :=
  ⟨[(["home"], .directory), (["home", "s"], .directory),
    (["home", "s", "a.R"], .file 0o600 "a".toUTF8), (["home", "s", "notes.txt"], .file 0o644 "n".toUTF8)]⟩

theorem r_files_copied_exactly_inward :
    letI := homeUser
    let glob := Glob.inDirectory ".R"
    let u := ((copyRFiles glob "/home/s" "s/in").run scriptsTree).2
    glob.Lawful ∧ ¬glob.Blind "/home/s" ∧ ∃ names, Listing scriptsTree ["home", "s"] names ∧
      Copies (fun bytes => if placeOf "s/in" = ["home", "s"] then .empty else bytes) ["home", "s"] "s/in"
        names scriptsTree u ["s/in/a.R"] := by
  let _ : User := homeUser
  have seen : ¬(Glob.inDirectory ".R").Blind "/home/s" := fun blind =>
    absurd (blind scriptsTree (by decide)) (by decide +kernel)
  exact ⟨Glob.lawful_inDirectory, seen,
    (r_files_copied_exactly Glob.lawful_inDirectory (by decide) (by rfl) (by decide +kernel)
      (run_eq_ok (by decide +kernel))).2 seen⟩

/-- A file that is copied into its own directory has no bytes left. -/
theorem bytes_lost_in_place :
    ¬∀ [User] (glob : Glob) (source target : String) (origin : Place) (paths : List String)
      (t u : FileTree), glob.Lawful → t.WellFormed → t.find source = .ok origin →
        (∀ child ∈ t.children origin, t.has (join source child.1) = true) →
          (copyRFiles glob source target).run t = (.ok paths, u) →
            ∃ names, Listing t origin names ∧ Copies id origin target names t u paths := by
  intro exact
  let _ : User := homeUser
  let glob := Glob.inDirectory ".R"
  let u := ((copyRFiles glob "s" "/home/s").run scriptsTree).2
  have lost : ((copyRFiles glob "s" "/home/s").run scriptsTree).1 = .ok ["/home/s/a.R"] ∧
      u.node? "/home/s/a.R" = some (.file 0o600 .empty) := by decide +kernel
  have there : scriptsTree.get? ["home", "s", "a.R"] = some (.file 0o600 "a".toUTF8) := by decide
  obtain ⟨names, listing, copies⟩ := exact glob "s" "/home/s" ["home", "s"] ["/home/s/a.R"] scriptsTree u
    Glob.lawful_inDirectory (by decide) (by rfl) (by decide +kernel) (run_eq_ok lost.1)
  have listed : "a.R" ∈ names := (listing.mem_iff "a.R").mpr ⟨⟨"a", rfl⟩, _, _, there⟩
  obtain ⟨mode, bytes, before, after⟩ := copies.stored "a.R" listed
  cases there.symm.trans before
  exact absurd (lost.2.symm.trans after) (by decide)

/-- The same directory with a doubled slash behind its leading dot is not shown. -/
example :
    letI := homeUser
    ((copyRFiles (Glob.inDirectory ".R") ".//s" "d").run scriptsTree).1 = .ok [] := by decide +kernel

end ToolWrappers.Install
