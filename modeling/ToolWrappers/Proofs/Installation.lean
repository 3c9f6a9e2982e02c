import ToolWrappers.Proofs.Placement
import ToolWrappers.Proofs.ScriptLines
import ToolWrappers.Proofs.ShownPaths
import ToolWrappers.Workflow

/-! What writing and installing change. Generated files go into their own directories; what is installed
has the names of R files in the source directory, and nothing is lost. -/

namespace ToolWrappers

open ToolWrappers.Action ToolWrappers.FileTree ToolWrappers.Path

/-! ### Nothing is lost -/

/-- Directories stay, files stay files, and what is new is a directory or a file at places for it. -/
def FileTree.Grows (dirs files : Place → Prop) (t u : FileTree) : Prop :=
  ∀ place, u.get? place ≠ t.get? place →
    dirs place ∧ t.get? place = none ∧ u.get? place = some .directory ∨
      files place ∧ t.get? place ≠ some .directory ∧ ∃ mode bytes, u.get? place = some (.file mode bytes)

instance {dirs files : Place → Prop} : IsPreorder FileTree (Grows dirs files) where
  refl t place changed := absurd rfl changed
  trans t u v first second place changed := by
    by_cases same : u.get? place = t.get? place
    · rw [← same]
      exact second place (by rwa [same])
    · by_cases kept : v.get? place = u.get? place
      · rw [kept]
        exact first place same
      · rcases first place same with ⟨_, _, directory⟩ | ⟨_, other, mode, bytes, written⟩
        · rcases second place kept with ⟨_, contrary, _⟩ | ⟨_, contrary, _⟩
          · rw [directory] at contrary
            cases contrary
          · exact absurd directory contrary
        · rcases second place kept with ⟨_, contrary, _⟩ | ⟨inside, _, file⟩
          · rw [written] at contrary
            cases contrary
          · exact .inr ⟨inside, other, file⟩

theorem FileTree.Grows.mono {dirs files dirs' files' : Place → Prop} {t u : FileTree}
    (h : Grows dirs files t u) (more : ∀ place, dirs place → dirs' place)
    (wider : ∀ place, files place →
      (∃ mode bytes, u.get? place = some (.file mode bytes)) → files' place) :
    Grows dirs' files' t u := fun place changed =>
  (h place changed).imp (fun ⟨inside, rest⟩ => ⟨more place inside, rest⟩)
    fun ⟨inside, other, file⟩ => ⟨wider place inside file, other, file⟩

theorem FileTree.Grows.puts [User] {dirs files : Place → Prop} {path : String} {node : Node}
    (inside : if node = .directory then dirs (placeOf path) else files (placeOf path)) :
    Puts (Grows dirs files) path node := by
  intro t idle place vacant room other changed
  have here : other = place := by
    by_contra away
    exact changed (get?_put_of_ne away)
  subst here
  rw [vacant.placeOf] at inside
  rw [vacant.get?_put]
  cases node with
  | directory => exact .inl ⟨by simpa using inside, by simpa using room, rfl⟩
  | file mode bytes =>
      refine .inr ⟨by simpa using inside, fun directory => ?_, mode, bytes, rfl⟩
      rw [if_neg (by simp), isDirectoryAt_iff.mpr directory] at room
      cases room

namespace Install

variable {source target dir shown : String} {t u : FileTree} {name : String} {names : List String}
  {free made : Place → Prop} {R : FileTree → FileTree → Prop} [IsPreorder FileTree R] {glob : Glob}

/-! ### Writing generated files -/

section

variable [User]

theorem keeps_writeInto {files : List GeneratedFile}
    (h : ∀ file ∈ files, ∀ mode bytes, Puts R (join dir file.name) (.file mode bytes)) :
    Keeps R (writeInto dir files) := by
  induction files with
  | nil => exact Keeps.pure []
  | cons file rest ih =>
      refine Keeps.bind ((Keeps.writeFile fun mode => h file List.mem_cons_self mode _).orFail _)
        fun _ => ?_
      exact Keeps.bind (ih fun other member => h other (List.mem_cons_of_mem file member))
        fun _ => Keeps.pure _

/-- Files with names of their own go into the directory that they are written to. -/
theorem confined_writeFiles {files : List GeneratedFile}
    (ordinary : ∀ file ∈ files, IsOrdinary file.name)
    (inside : ∀ place, Covers dir place → free place)
    (through : ∀ place, LeadsThrough dir place → made place) :
    Keeps (Confined free made) (writeFiles dir files) := by
  unfold writeFiles
  split
  · exact Keeps.pure []
  · refine Keeps.bind ((confined_makeDirs through).orFail _) fun _ => keeps_writeInto ?_
    intro file member mode bytes t idle place vacant room
    refine .put_of_vacancy vacant room (.inl (inside place ?_))
    rw [Covers, ← vacant.placeOf, placeOf_join_of_isOrdinary (ordinary file member)]
    exact List.prefix_append _ _

end

/-! ### The names of generated files -/

/-- A section of an accepted catalogue has the file name of a toolbox. -/
theorem fileName_mem_toolboxes {settings : Settings} {text : String} {c : Catalogue}
    (h : Catalogue.read settings text = .ok c) {s : Section} (member : s ∈ c.sections) :
    ∃ toolbox ∈ settings.toolboxes, s.fileName = toolbox.fileName := by
  obtain ⟨items, f, reads, reflects, same⟩ := Catalogue.exists_reads h
  obtain ⟨entry, opened, named, _⟩ := reflects.opened s (same ▸ member)
  rw [Item.entries_eq reads.agrees] at opened
  obtain ⟨header, _, mapped⟩ := List.mem_filterMap.mp opened
  exact ⟨entry, List.mem_of_find?_eq_some mapped, named⟩

theorem isOrdinary_testFileName {wrapper : String} (single : '/' ∉ wrapper.toList) :
    IsOrdinary (TestStub.fileName wrapper) := by
  have long : 7 ≤ (TestStub.fileName wrapper).toList.length := by
    simp [TestStub.fileName]
  refine ⟨fun h => ?_, fun h => ?_, fun h => ?_, by simpa [TestStub.fileName] using single⟩ <;>
    exact absurd (h ▸ long) (by decide)

theorem isOrdinary_of_mem_generated {skipLines : Nat} {text : String} {c : Catalogue}
    (h : Catalogue.read (Workflow.settings skipLines) text = .ok c) :
    (∀ file ∈ (Generated.ofCatalogue (Workflow.settings skipLines) c).scripts, IsOrdinary file.name) ∧
      ∀ file ∈ (Generated.ofCatalogue (Workflow.settings skipLines) c).tests, IsOrdinary file.name := by
  constructor
  · intro file member
    obtain ⟨s, inside, rfl⟩ := List.mem_map.mp member
    obtain ⟨toolbox, listed, named⟩ := fileName_mem_toolboxes h inside
    have all : ∀ toolbox ∈ standardToolboxes, IsOrdinary toolbox.fileName := by decide
    change IsOrdinary s.fileName
    rw [named]
    exact all toolbox listed
  · intro file member
    obtain ⟨t, inside, rfl⟩ := List.mem_map.mp member
    obtain ⟨s, opened, tested⟩ := List.mem_flatMap.mp inside
    have filed : t ∈ c.tools := List.mem_flatMap.mpr ⟨s, opened, (List.mem_filter.mp tested).1⟩
    have called := (Catalogue.wellNamed_of_mem_tools h filed).command
    refine isOrdinary_testFileName fun slash => ?_
    have inside : '/' ∈ t.command.toList := by
      simpa [Settings.wrapperName, Workflow.settings] using slash
    exact Text.not_mem_of_named (Text.isName_iff.mp called).2 (by decide) inside

/-! ### Copying R files -/

section

variable [User]

/-- A tree has a file of this name, an R file, directly in a directory. -/
def HasRFile (t : FileTree) (dir name : String) : Prop :=
  IsRFileName name ∧ ∃ mode bytes, t.get? (placeOf dir ++ [name]) = some (.file mode bytes)

/-- The R files of a directory that are found under one spelling of it, in order. -/
structure Listed (t : FileTree) (shown : String) (names : List String) : Prop where
  sorted : names.Pairwise (· < ·)
  mem_iff : ∀ name, name ∈ names ↔ IsRFileName name ∧ t.isFile (join shown name) = true

theorem Listed.distinct (h : Listed t shown names) : names.Nodup := h.sorted.imp ne_of_lt

/-- What is listed is a file in the directory. -/
theorem Listed.exists_file (h : Listed t shown names) (member : name ∈ names) : IsRFileName name ∧
    ∃ mode bytes, t.find (join shown name) = .ok (placeOf shown ++ [name]) ∧
      t.get? (placeOf shown ++ [name]) = some (.file mode bytes) := by
  obtain ⟨named, file⟩ := (h.mem_iff name).mp member
  obtain ⟨bytes, read⟩ := isFile_iff.mp file
  obtain ⟨place, mode, found, there⟩ := read?_eq_some_iff.mp read
  obtain rfl := placeOf_of_find found
  rw [placeOf_join_of_isOrdinary named.ordinary] at found there
  exact ⟨named, mode, bytes, found, there⟩

/-- The files that are shown are copied in the order of their names. -/
theorem exists_listed (shows : glob.Shows source shown) (h : t.WellFormed) :
    ∃ paths names, glob.find? t (pattern glob source) = some paths ∧
      sources t paths = names.map (join shown) ∧ Listed t shown names := by
  obtain ⟨found, given, distinct, named, all⟩ := shows.finds t h
  let names := (found.filter fun name => t.isFile (join shown name)).mergeSort (· ≤ ·)
  have mem_iff (name : String) : name ∈ names ↔ name ∈ found ∧ t.isFile (join shown name) = true := by
    rw [List.mem_mergeSort, List.mem_filter]
  refine ⟨_, names, given, ?_, ?_, fun name => ?_⟩
  · rw [sources, List.filter_map]
    refine (List.map_mergeSort fun a inA b inB => ?_).symm
    have ordinary (name : String) (member : name ∈ found.filter fun name => t.isFile (join shown name)) :=
      (named name (List.mem_filter.mp member).1).ordinary
    have order := orderKey_join_lt shown (ordinary b inB) (ordinary a inA)
    exact decide_eq_decide.mpr (not_lt.symm.trans (not_congr order.symm))
  · have ordered : names.Pairwise fun first second => first ≤ second := by
      refine (List.pairwise_mergeSort ?_ ?_ _).imp of_decide_eq_true
      · intro a b c first second
        exact decide_eq_true ((of_decide_eq_true first).trans (of_decide_eq_true second))
      · intro a b
        simpa using le_total a b
    have apart : names.Nodup := (List.mergeSort_perm _ _).nodup_iff.mpr (distinct.filter _)
    exact (ordered.and apart).imp fun both => lt_of_le_of_ne both.1 both.2
  · rw [mem_iff]
    constructor
    · rintro ⟨member, file⟩
      exact ⟨named name member, file⟩
    · rintro ⟨allowed, file⟩
      refine ⟨all name allowed ?_, file⟩
      obtain ⟨bytes, read⟩ := isFile_iff.mp file
      obtain ⟨place, mode, found, there⟩ := read?_eq_some_iff.mp read
      simp [has, node?, found, there]

/-- Copying files of these names from one directory to another, which is made if there are any. -/
def copyNames (shown target : String) (names : List String) : Action Failure (List String) := do
  if names.isEmpty then return []
  (makeDirs target).orFail (.creatingDirectory target)
  copyEach target (names.map (join shown))

theorem run_copyRFiles_of_blind (blind : glob.Blind source) (h : t.WellFormed) (target : String) :
    (copyRFiles glob source target).run t = (.ok [], t) := by
  rw [copyRFiles, run_bind_of_ok (run_get t), blind t h]
  simp [sources]
  rfl

/-- Copying R files from a directory that is shown is copying those that are listed. -/
theorem exists_run_of_shows (shows : glob.Shows source shown) (h : t.WellFormed) (target : String) :
    ∃ names, Listed t shown names ∧
      (copyRFiles glob source target).run t = (copyNames shown target names).run t := by
  obtain ⟨paths, names, given, taken, listed⟩ := exists_listed shows h
  refine ⟨names, listed, ?_⟩
  rw [copyRFiles, run_bind_of_ok (run_get t), given, copyNames]
  simp only [taken, List.isEmpty_map]

theorem copyEach_join (ordinary : IsOrdinary name) (source target : String) (rest : List String) :
    copyEach target (join source name :: rest) = do
      (copyFile (join source name) (join target name)).orFail
        (.copying (join source name) (join target name))
      return join target name :: (← copyEach target rest) := by
  rw [copyEach, fileName?_join ordinary]

theorem keeps_copyEach (ordinary : ∀ name ∈ names, IsOrdinary name)
    (h : ∀ name ∈ names, ∀ mode bytes, Puts R (join target name) (.file mode bytes)) :
    Keeps R (copyEach target (names.map (join source))) := by
  induction names with
  | nil => exact Keeps.pure []
  | cons name rest ih =>
      rw [List.map_cons, copyEach_join (ordinary name List.mem_cons_self)]
      refine Keeps.bind ((Keeps.copyFile (h name List.mem_cons_self)).orFail _) fun _ => ?_
      exact Keeps.bind (ih (fun other member => ordinary other (List.mem_cons_of_mem name member))
        fun other member => h other (List.mem_cons_of_mem name member)) fun _ => Keeps.pure _

/-- Copying R files is making the target directory and putting files of their names there. -/
theorem keeps_copyRFiles (lawful : glob.Lawful) (filled : source ≠ "") (h : u.WellFormed)
    (dirs : ∀ dir ∈ lineage target, Puts R dir .directory)
    (files : ∀ name, HasRFile u source name →
      ∀ mode bytes, Puts R (join target name) (.file mode bytes)) :
    R u ((copyRFiles glob source target).run u).2 := by
  rcases lawful source filled with ⟨shown, shows⟩ | blind
  case inr =>
    rw [run_copyRFiles_of_blind blind h]
    exact refl_of R u
  case inl =>
    obtain ⟨names, listed, run⟩ := exists_run_of_shows shows h target
    rw [run, copyNames]
    split
    · exact refl_of R u
    · have named (name : String) (member : name ∈ names) : HasRFile u source name := by
        obtain ⟨allowed, mode, bytes, _, there⟩ := listed.exists_file member
        exact ⟨allowed, mode, bytes, shows.way.placeOf ▸ there⟩
      exact Keeps.bind ((Keeps.makeDirs dirs).orFail _) (fun _ =>
        keeps_copyEach (fun name member => (named name member).1.ordinary)
          fun name member => files name (named name member)) u

/-- What differs after R files have been copied: a directory on the way to the target is new, or a file
in the target has the name of one of them. -/
theorem grows_copyRFiles (lawful : glob.Lawful) (filled : source ≠ "") (h : u.WellFormed)
    (target : String) :
    Grows (LeadsThrough target)
      (fun place => ∃ name, place = placeOf target ++ [name] ∧ HasRFile u source name)
      u ((copyRFiles glob source target).run u).2 := by
  refine keeps_copyRFiles lawful filled h (fun dir member => Grows.puts ?_)
    fun name present mode bytes => Grows.puts ?_
  · rw [if_pos rfl]
    exact .of_mem_lineage member (leadsThrough_placeOf dir)
  · rw [if_neg (by simp)]
    exact ⟨name, placeOf_join_of_isOrdinary present.1.ordinary, present⟩

theorem wellFormed_copyRFiles (lawful : glob.Lawful) (filled : source ≠ "") (h : u.WellFormed)
    (target : String) : ((copyRFiles glob source target).run u).2.WellFormed := by
  have kept : Confined (fun _ => True) (fun _ => True) u ((copyRFiles glob source target).run u).2 :=
    keeps_copyRFiles lawful filled h
      (fun _ _ _ _ _ vacant room => .put_of_vacancy vacant room (.inl trivial))
      fun _ _ _ _ _ _ _ vacant room => .put_of_vacancy vacant room (.inl trivial)
  exact kept.wellFormed h

end

end Install

end ToolWrappers
