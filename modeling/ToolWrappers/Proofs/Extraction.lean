import ToolWrappers.Bundle.Unpack
import ToolWrappers.Proofs.Confinement
import ToolWrappers.Zip.Archive

/-! Where unpacking an archive writes. No name of an entry leads out of the target directory, so what
changes lies in it, in the bundle directory, or on the way to the target. -/

namespace ToolWrappers

open ToolWrappers.Action ToolWrappers.FileTree ToolWrappers.Path

namespace Text

theorem infix_of_mem_pieces {sep : Char} {s piece : List Char} (h : piece ∈ pieces sep s) :
    piece <:+: s := by
  induction s generalizing piece with
  | nil =>
      obtain rfl := List.mem_singleton.mp h
      exact List.infix_refl []
  | cons c s ih =>
      by_cases same : c = sep
      · subst same
        rw [pieces_sep] at h
        rcases List.mem_cons.mp h with rfl | later
        · exact List.nil_infix
        · exact List.infix_cons (ih later)
      · obtain ⟨first, others, tail, whole⟩ := pieces_cons_of_ne same s
        rw [whole] at h
        rcases List.mem_cons.mp h with rfl | later
        · obtain ⟨more, shape⟩ := exists_pieces_eq sep s
          rw [tail] at shape
          obtain rfl := (List.cons.inj shape).1
          exact (List.cons_prefix_cons.mpr ⟨rfl, List.takeWhile_prefix _⟩).isInfix
        · exact List.infix_cons (ih (tail ▸ List.mem_cons_of_mem first later))

end Text

namespace Bundle

variable {name path target : String} {t u : FileTree} {place : Place} {free made : Place → Prop}

/-- A safe name leads on from the directory that it is joined to, and never back. -/
theorem forward_of_isUnsafe_eq_false (safe : isUnsafe name = false) :
    isAbsolute name = false ∧ ∀ part ∈ names name, part ≠ ".." := by
  simp only [isUnsafe, Bool.or_eq_false_iff] at safe
  refine ⟨safe.1.2, fun part member dots => ?_⟩
  obtain ⟨piece, inside, rfl⟩ := List.mem_map.mp member
  have held : Text.contains "..".toList name.toList = true := by
    obtain ⟨before, after, split⟩ := Text.infix_of_mem_pieces inside
    rw [Text.contains_iff]
    refine ⟨before, after, ?_⟩
    rw [← split, ← dots, String.toList_ofList]
  rw [safe.1.1] at held
  cases held

theorem keeps_now {R : FileTree → FileTree → Prop} [IsPreorder FileTree R] (a : Archive) :
    Keeps R a.now :=
  Keeps.bind Keeps.get fun _ => Keeps.pure _

section

variable [User]

/-- Where a path leads through that is joined from a directory and a safe name: also through the
directory, or below it. -/
theorem leadsThrough_of_safe_join (safe : isUnsafe name = false)
    (through : LeadsThrough (join target name) place) :
    LeadsThrough target place ∨ Covers target place := by
  obtain ⟨relative, forward⟩ := forward_of_isUnsafe_eq_false safe
  refine (through.of_join relative).imp_right fun ⟨lead, first, led⟩ => ?_
  rw [Covers, ← led]
  exact prefix_of_forward fun part member => forward part (first.subset member)

theorem covers_of_safe_join (safe : isUnsafe name = false) :
    Covers target (placeOf (join target name)) := by
  obtain ⟨relative, forward⟩ := forward_of_isUnsafe_eq_false safe
  rw [Covers, placeOf_join relative]
  exact prefix_of_forward forward

/-- One entry, whatever its data: nothing changes but its file, and directories that its path leads
through. An unsafe name is refused. -/
theorem confined_extractRecord {r : Zip.Record}
    (inside : isUnsafe r.name = false → free (placeOf (join target r.name)))
    (through : isUnsafe r.name = false → ∀ place, LeadsThrough (join target r.name) place → made place)
    (a : Archive) (read : ByteArray → Zip.Data) :
    Keeps (Confined free made) (extractRecord a target r read) := by
  unfold extractRecord
  dsimp only
  split
  · exact Keeps.throw_bind _ _
  · rename_i allowed
    have safe : isUnsafe r.name = false := by simpa using allowed
    split
    · exact (confined_makeDirs (through safe)).orFail _
    · refine Keeps.bind (confined_makeParents fun parent above place below =>
        through safe place (below.of_parent? above)) fun _ => ?_
      refine Keeps.bind ((confined_writeFile (inside safe)).orFail _) fun _ => ?_
      refine Keeps.bind (keeps_now a) fun bytes => ?_
      refine Keeps.bind ((confined_writeFile (inside safe)).orFail _) fun _ => ?_
      split
      · exact Keeps.throw_bind _ _
      · split
        · exact Keeps.pure ()
        · exact (confined_setMode (inside safe)).orFail _

theorem confined_extractAll {records : List Zip.Record}
    (inside : ∀ r ∈ records, isUnsafe r.name = false → free (placeOf (join target r.name)))
    (through : ∀ r ∈ records, isUnsafe r.name = false →
      ∀ place, LeadsThrough (join target r.name) place → made place)
    (lib : Zip.Library) (a : Archive) (index : Nat) :
    Keeps (Confined free made) (extractAll lib a target index records) := by
  induction records generalizing index with
  | nil => exact Keeps.pure ()
  | cons r rest ih =>
      refine Keeps.bind (keeps_now a) fun bytes => ?_
      split
      · exact Keeps.throw_bind _ _
      · have first := confined_extractRecord (inside r List.mem_cons_self)
          (through r List.mem_cons_self) a
        exact Keeps.bind (first _) fun _ =>
          ih (fun other member => inside other (List.mem_cons_of_mem r member))
            (fun other member => through other (List.mem_cons_of_mem r member)) (index + 1)

/-- An archive that has been opened: the tree is as it was, and the file lies where the path leads. -/
theorem openArchive_eq_ok {lib : Zip.Library} {a : Archive} {records : List Zip.Record}
    (run : (openArchive lib path).run t = (.ok (a, records), u)) :
    u = t ∧ t.find path = .ok a.place ∧ (∃ mode, t.get? a.place = some (.file mode a.bytes)) ∧
      lib.records? a.bytes = some records := by
  rw [openArchive, run_bind_of_ok (run_get t)] at run
  cases found : t.find path with
  | error fault =>
      rw [found] at run
      cases run
  | ok place =>
      rw [found] at run
      dsimp only at run
      split at run
      · rename_i mode bytes there
        split at run
        · split at run
          · cases run
          · rename_i listed
            cases run
            exact ⟨rfl, rfl, ⟨mode, there⟩, listed⟩
        · cases run
      · cases run

theorem keeps_openArchive {R : FileTree → FileTree → Prop} [IsPreorder FileTree R] (lib : Zip.Library)
    (path : String) : Keeps R (openArchive lib path) := by
  refine Keeps.bind Keeps.get fun t => ?_
  split
  · exact Keeps.throw _
  · split
    · split
      · split
        · exact Keeps.throw _
        · exact Keeps.pure _
      · exact Keeps.throw _
    · exact Keeps.throw _

theorem confined_unpack (lib : Zip.Library) (archive target bundleDir : String) :
    Keeps (Confined (fun place => Covers target place ∨ Covers bundleDir place)
      fun place => LeadsThrough target place ∨ Covers target place)
      (unpack lib archive target bundleDir) := by
  have extracted : Keeps (Confined (fun place => Covers target place ∨ Covers bundleDir place)
      fun place => LeadsThrough target place ∨ Covers target place)
      (openArchive lib archive >>= fun opened => extractAll lib opened.1 target 0 opened.2) := by
    refine Keeps.bind (keeps_openArchive lib archive) fun opened => ?_
    exact confined_extractAll (fun r _ safe => .inl (covers_of_safe_join safe))
      (fun r _ safe place => leadsThrough_of_safe_join safe) lib opened.1 0
  refine Keeps.bind Keeps.get fun t => ?_
  split
  · exact Keeps.bind ((confined_removeDir fun _ => Or.inr).orFail _) fun _ => extracted
  · exact extracted

/-- Unpacking changes nothing but what lies at the target, at the bundle directory or below them,
whatever the archive holds, however its entries are decoded and wherever unpacking stops. On the way to
the target it makes directories where there is nothing; for a target path without a way back these are the
ones that the target lies in. -/
theorem unpack_stays_inside (lib : Zip.Library) (archive target bundleDir : String) (t : FileTree)
    (place : Place)
    (changed : ((unpack lib archive target bundleDir).run t).2.get? place ≠ t.get? place) :
    Covers target place ∨ Covers bundleDir place ∨
      LeadsThrough target place ∧ t.get? place = none ∧
        ((unpack lib archive target bundleDir).run t).2.get? place = some .directory ∧
        ((∀ name ∈ names target, name ≠ "..") → place <+: placeOf target) := by
  by_cases inside : Covers target place ∨ Covers bundleDir place
  · exact inside.imp_right .inl
  · rcases (confined_unpack lib archive target bundleDir t).elsewhere place inside with
      same | ⟨through | covered, absent, directory⟩
    · exact absurd same changed
    · exact .inr (.inr ⟨through, absent, directory, fun forward => through.above forward⟩)
    · exact absurd (.inl covered) inside

end

/-- An archive with one entry, the file `WBT/f`, which holds the letter x and carries a mode. -/
def sampleArchive : ByteArray := ⟨#[
  80, 75, 3, 4, 20, 0, 0, 0, 0, 0, 0, 0, 33, 0, 131, 22, 220, 140, 1, 0, 0, 0, 1, 0, 0, 0, 5, 0, 0, 0,
  87, 66, 84, 47, 102, 120,
  80, 75, 1, 2, 20, 3, 20, 0, 0, 0, 0, 0, 0, 0, 33, 0, 131, 22, 220, 140, 1, 0, 0, 0, 1, 0, 0, 0, 5, 0,
  0, 0, 0, 0, 0, 0, 0, 0, 0, 0, 128, 1, 0, 0, 0, 0, 87, 66, 84, 47, 102,
  80, 75, 5, 6, 0, 0, 0, 0, 1, 0, 1, 0, 51, 0, 0, 0, 36, 0, 0, 0, 0, 0]⟩

/-- Somebody without special rights, who works in a directory of the root. -/
abbrev homeUser : User := ⟨["home"], false⟩

/-- A home directory with nothing but this archive. -/
def sampleTree : FileTree :=
  ⟨[(["home"], .directory), (["home", "a.zip"], .file 0o644 sampleArchive)]⟩

theorem unpack_stays_inside_wayBack :
    letI := homeUser
    let after := ((unpack Zip.reader "a.zip" "x/../y" "/home/WBT").run sampleTree).2
    after.get? ["home", "x"] ≠ sampleTree.get? ["home", "x"] ∧
      (Covers "x/../y" ["home", "x"] ∨ Covers "/home/WBT" ["home", "x"] ∨
        LeadsThrough "x/../y" ["home", "x"] ∧ sampleTree.get? ["home", "x"] = none ∧
          after.get? ["home", "x"] = some .directory ∧
          ((∀ name ∈ names "x/../y", name ≠ "..") → ["home", "x"] <+: placeOf "x/../y")) :=
  letI := homeUser
  ⟨by decide +kernel, unpack_stays_inside Zip.reader "a.zip" "x/../y" "/home/WBT" sampleTree
    ["home", "x"] (by decide +kernel)⟩

/-- A target path may lead into a missing directory and back out of it. Nothing lies there that the
target lies in, and still the directory is made. -/
theorem unpack_makes_directory_beside_target :
    ¬∀ [User] (lib : Zip.Library) (archive target bundleDir : String) (t : FileTree) (place : Place),
      ((unpack lib archive target bundleDir).run t).2.get? place ≠ t.get? place →
        Covers target place ∨ Covers bundleDir place ∨
          place <+: placeOf target ∧ t.get? place = none ∧
            ((unpack lib archive target bundleDir).run t).2.get? place = some .directory := by
  intro contained
  let _ : User := homeUser
  rcases contained Zip.reader "a.zip" "x/../y" "WBT" sampleTree ["home", "x"] (by decide +kernel) with
    below | below | ⟨above, _⟩
  · exact absurd below (by unfold Covers; decide)
  · exact absurd below (by unfold Covers; decide)
  · exact absurd above (by decide)

end Bundle

end ToolWrappers
