import Mathlib.Data.List.Induction
import ToolWrappers.Bundle.Download
import ToolWrappers.Proofs.TreeActions

/-! Confined changes: a well-formed tree stays well-formed, and apart from new directories on the way
it differs only at certain places. -/

namespace ToolWrappers

namespace FileTree

variable {t u v : FileTree} {path : String} {idle : List String} {place other above : Place}
  {node : Node} {free free' made made' : Place → Prop}

/-! ### Well-formed trees stay well-formed -/

/-- Places in a well-formed tree stand in directories and have names of their own. -/
theorem WellFormed.standing (h : t.WellFormed) (there : t.get? place ≠ none) :
    t.isDirectoryAt place.dropLast = true ∧ ∀ name ∈ place.getLast?, Path.IsOrdinary name := by
  by_cases root : place = []
  · subst root
    exact ⟨rfl, by simp⟩
  · rw [get?, if_neg root] at there
    obtain ⟨node, found⟩ := Option.ne_none_iff_exists'.mp there
    obtain ⟨before, after, split, _⟩ := List.lookup_eq_some_iff.mp found
    exact h.anchored (place, node) (by simp [split])

/-- What an entry of a well-formed tree says is what is there. -/
theorem WellFormed.get?_of_mem (h : t.WellFormed) (member : (place, node) ∈ t.entries)
    (inner : place ≠ []) : t.get? place = some node := by
  rw [get?, if_neg inner]
  obtain ⟨before, after, split⟩ := List.append_of_mem member
  refine List.lookup_eq_some_iff.mpr ⟨before, after, split, fun entry early => ?_⟩
  have apart := h.distinct
  rw [split, List.map_append, List.nodup_append] at apart
  simpa using (apart.2.2 entry.1 (List.mem_map_of_mem early) place (by simp)).symm

/-- What leads to a place in a well-formed tree are directories. -/
theorem WellFormed.isDirectoryAt_of_prefix (h : t.WellFormed) (there : t.get? place ≠ none)
    (above : other <+: place) (proper : other ≠ place) : t.isDirectoryAt other = true := by
  obtain ⟨rest, rfl⟩ := above
  induction rest using List.reverseRecOn with
  | nil => simp at proper
  | append_singleton rest name ih =>
      have parent := (h.standing there).1
      rw [← List.append_assoc, List.dropLast_concat] at parent
      by_cases last : rest = []
      · rwa [last, List.append_nil] at parent
      · exact ih (by simp [isDirectoryAt_iff.mp parent]) (by simpa using last)

/-- There is nothing below a file or a missing place. -/
theorem WellFormed.get?_below (h : t.WellFormed) (blocked : t.isDirectoryAt other = false)
    (below : other <+: place) (proper : other ≠ place) : t.get? place = none := by
  cases there : t.get? place with
  | none => rfl
  | some node =>
      rw [h.isDirectoryAt_of_prefix (by simp [there]) below proper] at blocked
      cases blocked

/-- Names that lead on to a directory and never back are a walk to it. -/
theorem WellFormed.walk_of_forward {here : Place} {names : List String} (h : t.WellFormed)
    (forward : ∀ name ∈ names, name ≠ ".." ∧ fitsName name = true)
    (led : Path.resolve here names = place) (directory : t.isDirectoryAt place = true) :
    t.walk here names = .ok place := by
  have onward {other : Place} (above : other <+: place) : t.isDirectoryAt other = true := by
    by_cases whole : other = place
    · exact whole ▸ directory
    · exact h.isDirectoryAt_of_prefix (by simp [isDirectoryAt_iff.mp directory]) above whole
  induction names generalizing here with
  | nil => exact congrArg _ led
  | cons name rest ih =>
      have later : ∀ name ∈ rest, name ≠ ".." ∧ fitsName name = true := fun other member =>
        forward other (List.mem_cons_of_mem name member)
      obtain ⟨notBack, fits⟩ := forward name List.mem_cons_self
      have standing := onward
        (led ▸ Path.prefix_of_forward fun name member => (forward name member).1)
      rw [Path.resolve_cons, Path.advance] at led
      rw [walk, if_neg (by simp [standing])]
      by_cases idle : (name = "" || name = ".") = true
      · rw [if_pos idle] at led ⊢
        exact ih later led
      · rw [if_neg idle, if_neg notBack] at led
        have next := onward (led ▸ Path.prefix_of_forward fun name member => (later name member).1)
        rw [if_neg idle, if_neg notBack, if_neg (by simp [fits]), isDirectoryAt_iff.mp next]
        exact ih later led

theorem WellFormed.distinct_filter (h : t.WellFormed) (keep : Place × Node → Bool) :
    ((t.entries.filter keep).map Prod.fst).Nodup :=
  h.distinct.sublist (List.filter_sublist.map Prod.fst)

theorem WellFormed.put (h : t.WellFormed) (standing : t.isDirectoryAt place.dropLast = true)
    (named : ∀ name ∈ place.getLast?, Path.IsOrdinary name) (inner : place ≠ [])
    (room : node = .directory ∨ t.isDirectoryAt place = false) : (t.put place node).WellFormed := by
  have kept {other : Place} (directory : t.isDirectoryAt other = true) :
      (t.put place node).isDirectoryAt other = true := by
    rw [isDirectoryAt_iff, get?_put]
    split
    · rfl
    · split
      · rename_i same
        subst same
        rcases room with rfl | blocked
        · rfl
        · rw [directory] at blocked
          cases blocked
      · exact isDirectoryAt_iff.mp directory
  refine ⟨fun entry member => ?_, ?_⟩
  · rcases List.mem_cons.mp member with rfl | old
    · exact ⟨kept standing, named⟩
    · obtain ⟨directory, ordinary⟩ := h.anchored entry (List.mem_filter.mp old).1
      exact ⟨kept directory, ordinary⟩
  · rw [FileTree.put, List.map_cons, List.nodup_cons]
    refine ⟨fun again => ?_, h.distinct_filter _⟩
    obtain ⟨entry, member, same⟩ := List.mem_map.mp again
    exact absurd same (by simpa using (List.mem_filter.mp member).2)

theorem WellFormed.put_of_vacancy [User] (h : t.WellFormed) (vacant : t.Vacancy path idle place)
    (room : if node = .directory then t.get? place = none else t.isDirectoryAt place = false) :
    (t.put place node).WellFormed := by
  obtain ⟨name, split, ordinary⟩ := vacant.exists_name
  refine h.put vacant.isDirectoryAt_dropLast (fun last member => ?_) vacant.ne_root ?_
  · rw [split, List.getLast?_concat] at member
    exact Option.some.inj member ▸ ordinary
  · by_cases directory : node = .directory
    · exact .inl directory
    · rw [if_neg directory] at room
      exact .inr room

theorem WellFormed.erase (h : t.WellFormed) : (t.erase place).WellFormed := by
  refine ⟨fun entry member => ?_, h.distinct_filter _⟩
  obtain ⟨old, outside⟩ := List.mem_filter.mp member
  obtain ⟨directory, ordinary⟩ := h.anchored entry old
  refine ⟨?_, ordinary⟩
  rw [isDirectoryAt_iff, get?_erase, if_neg, ← isDirectoryAt_iff]
  · exact directory
  · rintro ⟨_, inside⟩
    have shorter := (List.isPrefixOf_iff_prefix.mp inside).trans (List.dropLast_prefix _)
    rw [List.isPrefixOf_iff_prefix.mpr shorter] at outside
    cases outside

theorem WellFormed.eraseBelow (h : t.WellFormed) : (t.eraseBelow place).WellFormed := by
  refine ⟨fun entry member => ?_, h.distinct_filter _⟩
  obtain ⟨old, outside⟩ := List.mem_filter.mp member
  obtain ⟨directory, ordinary⟩ := h.anchored entry old
  refine ⟨?_, ordinary⟩
  rw [isDirectoryAt_iff, get?_eraseBelow, if_neg, ← isDirectoryAt_iff]
  · exact directory
  · rintro ⟨nonempty, inside, _⟩
    have within := List.isPrefixOf_iff_prefix.mp inside
    have proper : entry.1 ≠ place := fun same => by
      have shorter := within.length_le
      have some := List.length_pos_iff.mpr nonempty
      rw [List.length_dropLast] at shorter some
      rw [← same] at shorter
      omega
    simp [List.isPrefixOf_iff_prefix.mpr (within.trans (List.dropLast_prefix _)), proper] at outside

/-! ### Confined changes -/

/-- Whatever a change does, a well-formed tree stays well-formed; outside the places that are free, it
leaves everything as it is, except that directories may be made where there was nothing. -/
structure Confined (free made : Place → Prop) (t u : FileTree) : Prop where
  wellFormed : t.WellFormed → u.WellFormed
  elsewhere : ∀ place, ¬free place → u.get? place = t.get? place ∨
    made place ∧ t.get? place = none ∧ u.get? place = some .directory

instance : IsPreorder FileTree (Confined free made) where
  refl t := ⟨id, fun place _ => .inl rfl⟩
  trans t u v first second := by
    refine ⟨second.wellFormed ∘ first.wellFormed, fun place other => ?_⟩
    rcases first.elsewhere place other with same | ⟨new, absent, directory⟩
    · simpa only [same] using second.elsewhere place other
    · rcases second.elsewhere place other with same | ⟨_, contrary, _⟩
      · exact .inr ⟨new, absent, same.trans directory⟩
      · rw [directory] at contrary
        cases contrary

theorem Confined.mono (h : Confined free made t u) (freer : ∀ place, free place → free' place)
    (more : ∀ place, made place → made' place) : Confined free' made' t u :=
  ⟨h.wellFormed, fun place other =>
    (h.elsewhere place fun inside => other (freer place inside)).imp_right
      fun ⟨new, rest⟩ => ⟨more place new, rest⟩⟩

/-- Directories stay, unless they lie where everything may change. -/
theorem Confined.kept (h : Confined free made t u)
    (fixed : ∀ place, free place → t.isDirectoryAt place = false) (place : Place)
    (directory : t.isDirectoryAt place = true) : u.isDirectoryAt place = true := by
  have outside : ¬free place := fun inside => by simp [fixed place inside] at directory
  rw [isDirectoryAt_iff]
  rcases h.elsewhere place outside with same | ⟨_, _, new⟩
  · rw [same]
    exact isDirectoryAt_iff.mp directory
  · exact new

/-- Where a change is not free, a file is there afterwards if and only if it was there before. -/
theorem Confined.file_iff (h : Confined free made t u) (outside : ¬free place) {mode : Nat}
    {bytes : ByteArray} :
    u.get? place = some (.file mode bytes) ↔ t.get? place = some (.file mode bytes) := by
  rcases h.elsewhere place outside with same | ⟨_, absent, directory⟩
  · rw [same]
  · simp [absent, directory]

/-- Where a change is not free, and new directories could only be those that a path opens already,
everything stays. -/
theorem Confined.get?_of_opens [User] (h : Confined free made t u) (opens : t.Opens path)
    (outside : ¬free place) (known : made place → Path.LeadsThrough path place) :
    u.get? place = t.get? place := by
  rcases h.elsewhere place outside with same | ⟨new, absent, _⟩
  · exact same
  · rw [isDirectoryAt_iff.mp (opens place (known new))] at absent
    cases absent

/-- A file stays, and is still found, where nothing changes but for new directories. -/
theorem Confined.file_kept [User] (h : Confined (fun _ => False) made t u) {mode : Nat} {bytes : ByteArray}
    (found : t.find path = .ok place) (there : t.get? place = some (.file mode bytes)) :
    u.find path = .ok place ∧ u.get? place = some (.file mode bytes) := by
  have same : u.get? place = some (.file mode bytes) := by
    rcases h.elsewhere place id with same | ⟨_, absent, _⟩
    · rw [same, there]
    · rw [there] at absent
      cases absent
  exact ⟨find_kept found (h.kept fun _ => False.elim) (by simp [same]), same⟩

theorem Confined.put_of_vacancy [User] (vacant : t.Vacancy path idle place)
    (room : if node = .directory then t.get? place = none else t.isDirectoryAt place = false)
    (inside : free place ∨ node = .directory ∧ made place) :
    Confined free made t (t.put place node) := by
  refine ⟨fun h => h.put_of_vacancy vacant room, fun other outside => ?_⟩
  by_cases same : other = place
  · subst same
    rcases inside with inside | ⟨rfl, new⟩
    · exact absurd inside outside
    · exact .inr ⟨new, by simpa using room, vacant.get?_put⟩
  · exact .inl (get?_put_of_ne same)

theorem Confined.erase (inside : ∀ other, place <+: other → free other) :
    Confined free made t (t.erase place) := by
  refine ⟨WellFormed.erase, fun other outside => .inl ?_⟩
  rw [get?_erase, if_neg fun both => outside (inside other (List.isPrefixOf_iff_prefix.mp both.2))]

theorem Confined.eraseBelow (inside : ∀ other, place <+: other → free other) :
    Confined free made t (t.eraseBelow place) := by
  refine ⟨WellFormed.eraseBelow, fun other outside => .inl ?_⟩
  rw [get?_eraseBelow,
    if_neg fun both => outside (inside other (List.isPrefixOf_iff_prefix.mp both.2.1))]

theorem Confined.put_of_file {old mode : Nat} {before bytes : ByteArray}
    (there : t.get? place = some (.file old before)) (inside : free place) :
    Confined free made t (t.put place (.file mode bytes)) := by
  have inner : place ≠ [] := by
    rintro rfl
    simp [get?] at there
  refine ⟨fun h => ?_, fun other outside => .inl ?_⟩
  · obtain ⟨directory, ordinary⟩ := h.standing (show t.get? place ≠ none by simp [there])
    exact h.put directory ordinary inner (.inr (by simp [isDirectoryAt, there]))
  · exact get?_put_of_ne fun same => outside (same ▸ inside)

/-- Moving a file in a well-formed tree: it is found where it went, nothing is left where it was, and
nothing else differs. -/
theorem WellFormed.move [User] (h : v.WellFormed) (made : Place → Prop) {origin : Place} {mode : Nat}
    {bytes : ByteArray} {target : String}
    (there : v.get? origin = some (.file mode bytes)) (spotted : v.fileSpot target = .ok place)
    (apart : origin ≠ place) :
    ((v.erase origin).put place (.file mode bytes)).read? target = some bytes ∧
      ((v.erase origin).put place (.file mode bytes)).get? origin = none ∧
      Confined (fun other => other = origin ∨ other = place) made v
        ((v.erase origin).put place (.file mode bytes)) := by
  obtain ⟨vacant, free⟩ := vacancy_of_fileSpot spotted
  obtain ⟨name, split, ordinary⟩ := vacant.exists_name
  have file : v.isDirectoryAt origin = false := by simp [isDirectoryAt, there]
  have gone (other : Place) (away : other ≠ origin) : (v.erase origin).get? other = v.get? other := by
    rw [get?_erase]
    split
    · rename_i below
      exact (h.get?_below file (List.isPrefixOf_iff_prefix.mp below.2) away.symm).symm
    · rfl
  have kept (other : Place) (directory : v.isDirectoryAt other = true) :
      (v.erase origin).isDirectoryAt other = true := by
    rw [isDirectoryAt_iff, gone other fun same => by simp [← same, directory] at file]
    exact isDirectoryAt_iff.mp directory
  have free : (v.erase origin).isDirectoryAt place = false := by
    rw [isDirectoryAt, gone place (Ne.symm apart)]
    exact free
  have moved : ((v.erase origin).put place (.file mode bytes)).get? place = some (.file mode bytes) :=
    vacant.get?_put
  refine ⟨?_, ?_, fun _ => ?_, fun other outside => .inl ?_⟩
  · have found := vacant.find (u := (v.erase origin).put place (.file mode bytes))
      (fun other directory => ?_) (by simp [moved])
    · simp [read?, node?, found, moved]
    · exact isDirectoryAt_put_of_free free other (kept other directory)
  · have leads : origin ≠ [] := by
      rintro rfl
      simp [get?] at there
    rw [get?_put_of_ne apart, get?_erase, if_pos ⟨leads, by simp⟩]
  · refine h.erase.put (kept _ vacant.isDirectoryAt_dropLast) (fun last member => ?_) vacant.ne_root
      (.inr free)
    rw [split, List.getLast?_concat] at member
    exact Option.some.inj member ▸ ordinary
  · rw [get?_put_of_ne fun same => outside (.inr same), gone other fun same => outside (.inl same)]

end FileTree

/-! ### What the steps of the file system confine themselves to -/

namespace Action

open ToolWrappers.FileTree ToolWrappers.Path

variable [User] {free made : Place → Prop} {path source target : String} {bytes : ByteArray} {mode : Nat}

theorem confined_makeDirs (new : ∀ place, LeadsThrough path place → made place) :
    Keeps (Confined free made) (makeDirs path) := by
  refine Keeps.makeDirs fun dir member t idle place vacant room => ?_
  have through := LeadsThrough.of_mem_lineage member (vacant.placeOf ▸ leadsThrough_placeOf dir)
  exact .put_of_vacancy vacant room (.inr ⟨rfl, new place through⟩)

theorem confined_makeParents
    (new : ∀ parent, parent? path = some parent → ∀ place, LeadsThrough parent place → made place) :
    Keeps (Confined free made) (Bundle.makeParents path) := by
  unfold Bundle.makeParents
  split
  · exact Keeps.pure ()
  · exact (confined_makeDirs (new _ ‹_›)).orFail _

theorem confined_writeFile (inside : free (placeOf path)) :
    Keeps (Confined free made) (writeFile path bytes) :=
  Keeps.writeFile fun _ _ _ _ vacant room => .put_of_vacancy vacant room (.inl (vacant.placeOf ▸ inside))

theorem confined_setMode (inside : free (placeOf path)) :
    Keeps (Confined free made) (setMode path mode) :=
  Keeps.setMode fun _ _ _ _ found there => .put_of_file there (placeOf_of_find found ▸ inside)

theorem confined_copyFile (inside : free (placeOf target)) :
    Keeps (Confined free made) (copyFile source target) :=
  Keeps.copyFile fun _ _ _ _ _ vacant room =>
    .put_of_vacancy vacant room (.inl (vacant.placeOf ▸ inside))

theorem confined_removeDir (inside : ∀ place, Covers path place → free place) :
    Keeps (Confined free made) (removeDir path) := by
  have below {t : FileTree} {place : Place} (found : t.find path = .ok place) (other : Place)
      (first : place <+: other) : free other :=
    inside other (by rwa [Covers, placeOf_of_find found])
  exact Keeps.removeDir (fun _ _ found => .eraseBelow (below found)) fun _ _ found => .erase (below found)

end Action

end ToolWrappers
