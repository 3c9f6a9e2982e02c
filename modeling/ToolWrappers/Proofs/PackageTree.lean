import ToolWrappers.Proofs.Extraction
import ToolWrappers.Proofs.Installation

/-! What bringing a package up to date does to its own files. Everything before the install step happens
beside them; the install step puts R files there that were generated, and takes nothing away. -/

namespace ToolWrappers

open ToolWrappers.Action ToolWrappers.FileTree ToolWrappers.Path

/-- The layout of a package with the usual work directory. -/
abbrev PackageLayout.standard (root : String) : PackageLayout := .ofRoot root standardWorkDir

@[simp] theorem PackageLayout.ofRoot_root (root workDir : String) :
    (PackageLayout.ofRoot root workDir).root = root := rfl

namespace Workflow

variable {world : World} {l : PackageLayout} {root workDir url name : String} {skipLines : Nat}
  {t u v : FileTree} {place : Place} {free made : Place → Prop} {lib : Zip.Library}

/-! ### The stages -/

section

variable [User]

/-- The stages up to the one that puts the catalogue of the bundle into the work directory. -/
def fetchCatalogue (world : World) (l : PackageLayout) (url : String) : Action Failure Unit := do
  let name ←
    match Bundle.archiveName url with
    | .ok name => pure name
    | .error failure => throw failure
  let archive := l.archive name
  let _ ← Bundle.ensureArchive (world.fetch url) url archive
  Bundle.unpack world.zip archive l.root l.bundleDir
  (makeDirs l.work).orFail (.creating l.work)
  (copyFile l.bundledCatalogue l.catalogue).orFail (.copying l.bundledCatalogue l.catalogue)

/-- All stages before the install step. -/
def prepare (world : World) (l : PackageLayout) (url : String) (skipLines : Nat) :
    Action Failure Unit := do
  fetchCatalogue world l url
  let _ ← generate l.catalogue l.scriptsDir l.testsDir skipLines

/-- The install step. -/
def install (world : World) (l : PackageLayout) : Action Failure Unit := do
  let _ ← Install.copyRFiles world.glob l.scriptsDir l.packageFunctionsDir
  let _ ← Install.copyRFiles world.glob l.testsDir l.packageTestsDir

theorem sync_eq (world : World) (l : PackageLayout) (url : String) (skipLines : Nat) :
    sync world l url skipLines = (do prepare world l url skipLines; install world l) := by
  unfold sync prepare install fetchCatalogue
  cases Bundle.archiveName url <;> simp [bind_assoc]

end

/-! ### Unpacking a bundle beside the package -/

/-- All entries of an archive lie in the bundle directory. -/
def BundleOnly (lib : Zip.Library) (bytes : ByteArray) : Prop :=
  ∀ r ∈ (lib.records? bytes).getD [], ∃ rest, r.name = "WBT/" ++ rest

theorem names_bundled (rest : String) : names ("WBT/" ++ rest) = "WBT" :: names rest :=
  names_append_slash "WBT" rest

section

variable [User]

theorem placeOf_bundle (root : String) : placeOf (join root "WBT") = placeOf root ++ ["WBT"] :=
  placeOf_join_of_isOrdinary (by decide)

/-- Names that lead into the bundle directory and never back stay in it. -/
theorem covers_of_resolve {lead : List String} (forward : ∀ name ∈ lead, name ≠ "..") :
    Covers (join root "WBT") (resolve (placeOf root) ("WBT" :: lead)) := by
  rw [Covers, placeOf_bundle, resolve_cons, advance_of_isOrdinary (by decide)]
  exact prefix_of_forward forward

/-- Where the path of an entry in the bundle directory leads through. -/
theorem leadsThrough_bundled {rest : String} (safe : Bundle.isUnsafe ("WBT/" ++ rest) = false)
    (through : LeadsThrough (join root ("WBT/" ++ rest)) place) :
    LeadsThrough root place ∨ Covers (join root "WBT") place := by
  obtain ⟨relative, forward⟩ := Bundle.forward_of_isUnsafe_eq_false safe
  rcases through.of_join relative with outside | ⟨lead, first, rfl⟩
  · exact .inl outside
  · rw [names_bundled] at first forward
    cases lead with
    | nil => exact .inl (leadsThrough_placeOf root)
    | cons part lead =>
        obtain ⟨rfl, later⟩ := List.cons_prefix_cons.mp first
        exact .inr (covers_of_resolve fun name member =>
          forward name (List.mem_cons_of_mem _ (later.subset member)))

theorem covers_bundled {rest : String} (safe : Bundle.isUnsafe ("WBT/" ++ rest) = false) :
    Covers (join root "WBT") (placeOf (join root ("WBT/" ++ rest))) := by
  obtain ⟨relative, forward⟩ := Bundle.forward_of_isUnsafe_eq_false safe
  rw [names_bundled] at forward
  rw [placeOf_join relative, names_bundled]
  exact covers_of_resolve fun name member => forward name (List.mem_cons_of_mem _ member)

/-- Unpacking such an archive changes nothing but the bundle directory, and may make the root. -/
theorem confined_unpack_bundle {archive : String} {bytes : ByteArray}
    (cached : t.read? archive = some bytes) (bundled : BundleOnly lib bytes) :
    Confined (Covers (join root "WBT"))
      (fun place => LeadsThrough root place ∨ Covers (join root "WBT") place) t
      ((Bundle.unpack lib archive root (join root "WBT")).run t).2 := by
  -- from a tree that has nothing but what was there before
  have extracted {u : FileTree}
      (kept : ∀ place node, u.get? place = some node → t.get? place = some node) :
      Confined (Covers (join root "WBT"))
        (fun place => LeadsThrough root place ∨ Covers (join root "WBT") place) u
        ((Bundle.openArchive lib archive >>= fun opened =>
          Bundle.extractAll lib opened.1 root 0 opened.2).run u).2 := by
    refine related_bind (Bundle.keeps_openArchive lib archive u) fun opened w run => ?_
    cases opened with | mk a records
    obtain ⟨rfl, found, ⟨mode, file⟩, listed⟩ := Bundle.openArchive_eq_ok run
    have same : a.bytes = bytes := read?_of_kept kept cached (read?_of_find found file)
    have below (r : Zip.Record) (member : r ∈ records) : ∃ rest, r.name = "WBT/" ++ rest :=
      bundled r (by rwa [← same, listed])
    refine Bundle.confined_extractAll (fun r member => ?_) (fun r member => ?_) lib a 0 w
    · obtain ⟨rest, spelled⟩ := below r member
      rw [spelled]
      exact covers_bundled
    · obtain ⟨rest, spelled⟩ := below r member
      rw [spelled]
      exact fun safe place => leadsThrough_bundled safe
  rw [Bundle.unpack, run_bind_of_ok (run_get t)]
  split
  · exact related_bind ((confined_removeDir fun _ => id).orFail _ t) fun _ u removed =>
      extracted fun place node => get?_of_removeDir (run_orFail_eq_ok.mp removed)
  · exact extracted fun _ _ => id

end

/-! ### The stages before the install step -/

theorem not_slash_of_archiveName (h : Bundle.archiveName url = .ok name) : '/' ∉ name.toList := by
  unfold Bundle.archiveName at h
  dsimp only at h
  split at h
  · cases h
  · obtain rfl := Except.ok.inj h
    rw [String.toList_ofList, List.mem_reverse]
    exact fun slash => by simpa using List.all_eq_true.mp List.all_takeWhile '/' slash

section

variable [User]

theorem skips_ensureArchive {response : Bundle.Response} {archive : String} {bytes : ByteArray}
    (cached : t.read? archive = some bytes) :
    (Bundle.ensureArchive response url archive).run t = (.ok false, t) := by
  rw [Bundle.ensureArchive, run_bind_of_ok (run_get t), if_pos (isFile_iff.mpr ⟨bytes, cached⟩)]
  rfl

theorem confined_fetchCatalogue {bytes : ByteArray} (named : Bundle.archiveName url = .ok name)
    (cached : t.read? ((PackageLayout.standard root).archive name) = some bytes)
    (bundled : BundleOnly world.zip bytes) :
    Confined
      (fun place => Covers (join root "WBT") place ∨
        place = placeOf (PackageLayout.standard root).catalogue)
      (fun place => LeadsThrough root place ∨ Covers (join root "WBT") place ∨
        place = placeOf (PackageLayout.standard root).work) t
      ((fetchCatalogue world (.standard root) url).run t).2 := by
  rw [fetchCatalogue, named]
  change Confined _ _ t ((Bundle.ensureArchive (world.fetch url) url
      ((PackageLayout.standard root).archive name) >>= _).run t).2
  rw [run_bind_of_ok (skips_ensureArchive cached)]
  refine related_bind ?_ fun _ u _ => ?_
  · exact (confined_unpack_bundle cached bundled).mono (fun place => Or.inl)
      fun place => Or.imp_right Or.inl
  · refine Keeps.bind ((confined_makeDirs fun place through => ?_).orFail _) (fun _ =>
      (confined_copyFile (.inr rfl)).orFail _) u
    rcases through.of_join_ordinary (by decide) with outside | lies
    · exact .inl outside
    · exact .inr (.inr (lies.trans (placeOf_join_of_isOrdinary (by decide)).symm))

theorem readCatalogue_eq_ok {path : String} {s : Settings} {c : Catalogue}
    (run : (readCatalogue path s).run t = (.ok c, u)) :
    u = t ∧ ∃ place mode bytes text, t.find path = .ok place ∧
      t.get? place = some (.file mode bytes) ∧ mayRead mode = true ∧ Text.decode? bytes = some text ∧
      Catalogue.read s text = .ok c := by
  obtain ⟨bytes, _, read, done⟩ := run_bind_eq_ok run
  obtain ⟨rfl, place, mode, found, there, readable⟩ := run_readFile_eq_ok (run_orFail_eq_ok.mp read)
  split at done
  · cases done
  · rename_i text decoded
    split at done
    · rename_i c' accepted
      obtain ⟨same, rfl⟩ := Prod.mk.inj done
      exact ⟨rfl, place, mode, bytes, text, found, there, readable, decoded,
        Except.ok.inj same ▸ accepted⟩
    · cases done

theorem keeps_readFile {R : FileTree → FileTree → Prop} [IsPreorder FileTree R] (path : String) :
    Keeps R (readFile path) := by
  refine Keeps.bind Keeps.get fun t => ?_
  split
  · split
    · exact Keeps.pure _
    · exact Keeps.throw _
  · exact Keeps.throw _
  · exact Keeps.throw _

theorem keeps_readCatalogue {R : FileTree → FileTree → Prop} [IsPreorder FileTree R] (path : String)
    (s : Settings) : Keeps R (readCatalogue path s) := by
  refine Keeps.bind ((keeps_readFile path).orFail _) fun bytes => ?_
  split
  · exact Keeps.throw _
  · split
    · exact Keeps.pure _
    · exact Keeps.throw _

/-- Generating changes nothing but the directories of generated files. -/
theorem confined_generate {catalogue scriptsDir testsDir : String} (skipLines : Nat)
    (inside : ∀ place, Covers scriptsDir place ∨ Covers testsDir place → free place)
    (through : ∀ place, LeadsThrough scriptsDir place ∨ LeadsThrough testsDir place → made place) :
    Keeps (Confined free made) (generate catalogue scriptsDir testsDir skipLines) := by
  intro t
  refine related_bind (keeps_readCatalogue _ _ t) fun c u read => ?_
  obtain ⟨_, _, _, _, _, _, _, _, _, accepted⟩ := readCatalogue_eq_ok read
  obtain ⟨scripts, tests⟩ := Install.isOrdinary_of_mem_generated accepted
  refine Keeps.bind (Install.confined_writeFiles scripts (fun place => inside place ∘ Or.inl)
    fun place => through place ∘ Or.inl) (fun _ => ?_) u
  exact Keeps.bind (Install.confined_writeFiles tests (fun place => inside place ∘ Or.inr)
    fun place => through place ∘ Or.inr) fun _ => Keeps.pure _

end

/-! ### The directories of a package -/

theorem scriptsDir_ne_empty (l : PackageLayout) : l.scriptsDir ≠ "" := join_ne_empty (by decide)

theorem testsDir_ne_empty (l : PackageLayout) : l.testsDir ≠ "" := join_ne_empty (by decide)

section

variable [User]

theorem placeOf_bundledCatalogue (l : PackageLayout) :
    placeOf l.bundledCatalogue = placeOf l.root ++ ["WBT", catalogueFile] := by
  rw [PackageLayout.bundledCatalogue, placeOf_join_of_isOrdinary (by decide), PackageLayout.bundleDir,
    placeOf_bundle, List.append_assoc]
  rfl

theorem placeOf_work (root : String) :
    placeOf (PackageLayout.standard root).work = placeOf root ++ [standardWorkDir] :=
  placeOf_join_of_isOrdinary (by decide)

theorem placeOf_catalogue (l : PackageLayout) : placeOf l.catalogue = placeOf l.work ++ [catalogueFile] :=
  placeOf_join_of_isOrdinary (by decide)

theorem placeOf_scriptsDir (l : PackageLayout) : placeOf l.scriptsDir = placeOf l.work ++ ["scripts"] :=
  placeOf_join_of_isOrdinary (by decide)

theorem placeOf_testsDir (l : PackageLayout) : placeOf l.testsDir = placeOf l.work ++ ["tests"] :=
  placeOf_join_of_isOrdinary (by decide)

theorem placeOf_packageFunctionsDir (l : PackageLayout) :
    placeOf l.packageFunctionsDir = placeOf l.root ++ ["R"] :=
  placeOf_join_of_isOrdinary (by decide)

theorem placeOf_packageTestsDir (l : PackageLayout) :
    placeOf l.packageTestsDir = placeOf l.root ++ ["tests", "testthat"] := by
  rw [PackageLayout.packageTestsDir, placeOf_join_of_isOrdinary (by decide),
    placeOf_join_of_isOrdinary (by decide), List.append_assoc]
  rfl

/-- A package at whose root the archive of a bundle lies that has been downloaded before. -/
structure Downloaded (lib : Zip.Library) (root url : String) (t : FileTree) : Prop where
  wellFormed : t.WellFormed
  archived : ∃ name bytes, Bundle.archiveName url = .ok name ∧
    t.read? ((PackageLayout.standard root).archive name) = some bytes ∧ BundleOnly lib bytes

/-- The root of such a package is there, with all directories that its path leads through. -/
theorem Downloaded.opens (h : Downloaded lib root url t) : t.Opens root := by
  obtain ⟨name, bytes, named, cached, _⟩ := h.archived
  obtain ⟨place, mode, found, _⟩ := read?_eq_some_iff.mp cached
  exact opens_of_find_join (isAbsolute_of_single (not_slash_of_archiveName named)) found

/-- Of the package and the generated files, nothing is touched until a catalogue is read. -/
theorem untouched_by_fetchCatalogue (h : Downloaded world.zip root url t) {rel : Place}
    (beside : rel ∈ [["R"], ["tests"], ["PY2R", "scripts"], ["PY2R", "tests"]]) (rest : List String) :
    ((fetchCatalogue world (.standard root) url).run t).2.get? (placeOf root ++ (rel ++ rest)) =
      t.get? (placeOf root ++ (rel ++ rest)) := by
  obtain ⟨name, bytes, named, cached, bundled⟩ := h.archived
  have within := confined_fetchCatalogue named cached bundled
  have apart : ¬Covers (join root "WBT") (placeOf root ++ (rel ++ rest)) := by
    rw [Covers, placeOf_bundle, List.prefix_append_right_inj]
    rcases (by simpa using beside) with rfl | rfl | rfl | rfl <;> simp
  have other : placeOf root ++ (rel ++ rest) ≠ placeOf (PackageLayout.standard root).catalogue := by
    rw [placeOf_catalogue, placeOf_work, List.append_assoc, ne_eq, List.append_right_inj]
    rcases (by simpa using beside) with rfl | rfl | rfl | rfl <;> simp [catalogueFile, standardWorkDir]
  apply within.get?_of_opens h.opens (not_or.mpr ⟨apart, other⟩)
  rintro (outside | covered | work)
  · exact outside
  · exact absurd covered apart
  · rw [placeOf_work, List.append_right_inj] at work
    rcases (by simpa using beside) with rfl | rfl | rfl | rfl <;> simp [standardWorkDir] at work

/-- Where a directory in the work directory leads through. -/
theorem leadsThrough_work (ordinary : IsOrdinary name)
    (through : LeadsThrough (join (PackageLayout.standard root).work name) place) :
    LeadsThrough root place ∨ Covers (PackageLayout.standard root).work place := by
  rcases through.of_join_ordinary ordinary with work | rfl
  · rcases LeadsThrough.of_join_ordinary (by decide) work with outside | lies
    · exact .inl outside
    · rw [← placeOf_work] at lies
      exact .inr (lies ▸ List.prefix_rfl)
  · exact .inr (List.prefix_append _ _)

/-- Before the install step, all changes are in the bundle directory and in the work directory. -/
theorem confined_prepare (h : Downloaded world.zip root url t) (skipLines : Nat) :
    Confined
      (fun place => Covers (join root "WBT") place ∨
        Covers (PackageLayout.standard root).work place)
      (fun place => LeadsThrough root place ∨ Covers (join root "WBT") place ∨
        Covers (PackageLayout.standard root).work place) t
      ((prepare world (.standard root) url skipLines).run t).2 := by
  obtain ⟨name, bytes, named, cached, bundled⟩ := h.archived
  refine related_bind ?_ fun _ u _ => Keeps.bind (confined_generate skipLines (fun place covered => ?_)
    fun place through => ?_) (fun _ => Keeps.pure ()) u
  · refine (confined_fetchCatalogue named cached bundled).mono (fun place => Or.imp_right fun lies => ?_)
      fun place => Or.imp_right (Or.imp_right fun lies => ?_)
    · rw [lies, Covers, placeOf_catalogue]
      exact List.prefix_append _ _
    · rw [lies]
      exact List.prefix_refl _
  · exact .inr (covered.elim (covers_of_join (by decide)) (covers_of_join (by decide)))
  · exact (through.elim (leadsThrough_work (by decide)) (leadsThrough_work (by decide))).imp_right .inr

theorem untouched_by_prepare (h : Downloaded world.zip root url t) {result : Except Failure Unit}
    (prepared : (prepare world (.standard root) url skipLines).run t = (result, u)) (first : String)
    (rest : List String) (beside : first ≠ "WBT" ∧ first ≠ "PY2R") :
    u.get? (placeOf root ++ first :: rest) = t.get? (placeOf root ++ first :: rest) := by
  have apart : ¬(Covers (join root "WBT") (placeOf root ++ first :: rest) ∨
      Covers (PackageLayout.standard root).work (placeOf root ++ first :: rest)) := by
    rw [Covers, Covers, placeOf_bundle, placeOf_work, List.prefix_append_right_inj,
      List.prefix_append_right_inj]
    simp [beside.1.symm, standardWorkDir, beside.2.symm]
  have within := confined_prepare h skipLines
  rw [prepared] at within
  exact within.get?_of_opens h.opens apart fun new => new.resolve_right apart

/-! ### Failures of the later stages -/

/-- A stage that says nothing about the catalogue when it fails. -/
abbrev CatalogueAccepted {α : Type} (act : Action Failure α) : Prop :=
  FailsWith (fun failure => ∀ path cause, failure ≠ .invalidCatalogue path cause) act

theorem accepted_writeFiles (dir : String) (files : List GeneratedFile) :
    CatalogueAccepted (Install.writeFiles dir files) := by
  have into : CatalogueAccepted (Install.writeInto dir files) := by
    induction files with
    | nil => exact .pure []
    | cons file rest ih => exact .bind (.orFail _ (by simp)) fun _ => .bind ih fun _ => .pure _
  unfold Install.writeFiles
  split
  · exact .pure []
  · exact .bind (.orFail _ (by simp)) fun _ => into

theorem accepted_writeGenerated (g : Generated) (scriptsDir testsDir : String) :
    CatalogueAccepted (Install.writeGenerated g scriptsDir testsDir) :=
  .bind (accepted_writeFiles _ _) fun _ => .bind (accepted_writeFiles _ _) fun _ => .pure _

theorem accepted_copyRFiles (glob : Glob) (source target : String) :
    CatalogueAccepted (Install.copyRFiles glob source target) := by
  have each (paths : List String) : CatalogueAccepted (Install.copyEach target paths) := by
    induction paths with
    | nil => exact .pure []
    | cons path rest ih =>
        rw [Install.copyEach]
        split
        · exact ih
        · exact .bind (.orFail _ (by simp)) fun _ => .bind ih fun _ => .pure _
  refine .bind .get fun t => ?_
  split
  · exact .throw (by simp)
  · dsimp only
    split
    · exact .pure []
    · exact .bind (.orFail _ (by simp)) fun _ => each _

theorem accepted_install (world : World) (l : PackageLayout) : CatalogueAccepted (install world l) :=
  .bind (accepted_copyRFiles _ _ _) fun _ => .bind (accepted_copyRFiles _ _ _) fun _ => .pure _

/-- When the catalogue is rejected, nothing has been done but to put it into the work directory. -/
theorem tree_of_rejected {path : String} {cause : CatalogueError}
    (run : (sync world l url skipLines).run t = (.error (.invalidCatalogue path cause), v)) :
    v = ((fetchCatalogue world l url).run t).2 := by
  rw [sync_eq] at run
  have prepared :
      (prepare world l url skipLines).run t = (.error (.invalidCatalogue path cause), v) := by
    rcases run_bind_eq_error run with stopped | ⟨_, u, _, failed⟩
    · exact stopped
    · exact absurd rfl (accepted_install world l u _ v failed path cause)
  rcases run_bind_eq_error prepared with stopped | ⟨_, u, fetched, failed⟩
  · rw [stopped]
  · rw [fetched]
    rcases run_bind_eq_error failed with failed | ⟨_, w, _, failed⟩
    · rcases run_bind_eq_error failed with rejected | ⟨c, w, _, failed⟩
      · have kept := keeps_readCatalogue (R := Eq) l.catalogue (settings skipLines) u
        rw [rejected] at kept
        exact kept.symm
      · exact absurd rfl (accepted_writeGenerated _ _ _ w _ v failed path cause)
    · cases failed

/-! ### The install step -/

/-- The places in a directory that get the name of an R file in another one. -/
def Copies (u : FileTree) (source target : String) (place : Place) : Prop :=
  ∃ name, place = placeOf target ++ [name] ∧ Install.HasRFile u source name

/-- What differs after the install step is a new directory or a file named like an R file that was there
when it began. -/
theorem grows_install (lawful : world.glob.Lawful) (h : u.WellFormed) (root : String) :
    Grows
      (fun place => LeadsThrough (PackageLayout.standard root).packageFunctionsDir place ∨
        LeadsThrough (PackageLayout.standard root).packageTestsDir place)
      (fun place =>
        Copies u (PackageLayout.standard root).scriptsDir
            (PackageLayout.standard root).packageFunctionsDir place ∨
          Copies u (PackageLayout.standard root).testsDir
            (PackageLayout.standard root).packageTestsDir place) u
      ((install world (.standard root)).run u).2 := by
  have scripts := scriptsDir_ne_empty (PackageLayout.standard root)
  have tests := testsDir_ne_empty (PackageLayout.standard root)
  have first := Install.grows_copyRFiles lawful scripts h
    (PackageLayout.standard root).packageFunctionsDir
  refine related_bind (first.mono (fun _ => .inl) fun _ copied _ => .inl copied) fun _ w run => ?_
  have ordered := Install.wellFormed_copyRFiles lawful scripts h
    (PackageLayout.standard root).packageFunctionsDir
  rw [run] at first ordered
  refine related_bind ?_ fun _ x _ => refl_of _ x
  refine (Install.grows_copyRFiles lawful tests ordered _).mono (fun _ => .inr)
    fun place copied _ => .inr ?_
  -- the R files among the tests are those from before the scripts were copied
  obtain ⟨name, rfl, named, mode, bytes, file⟩ := copied
  refine ⟨name, rfl, named, mode, bytes, ?_⟩
  by_contra changed
  rw [← file] at changed
  rcases first _ (Ne.symm changed) with ⟨_, _, directory⟩ | ⟨⟨other, same, _⟩, _⟩
  · rw [file] at directory
    cases directory
  · rw [placeOf_testsDir, placeOf_work, placeOf_packageFunctionsDir] at same
    have last := (List.append_inj' same rfl).1
    simp [PackageLayout.ofRoot] at last

/-- In a directory of the package, nothing is removed, and what is made or changed are files named like R
files of a source directory, as the tree `u` has them, and the directory itself if it was missing. -/
def OnlyInstalls (source target : String) (t u v : FileTree) : Prop :=
  ∀ place, Covers target place → v.get? place ≠ t.get? place →
    place = placeOf target ∧ t.get? place = none ∧ v.get? place = some .directory ∨
      Copies u source target place ∧ t.get? place ≠ some .directory ∧
        ∃ mode bytes, v.get? place = some (.file mode bytes)

/-- What bringing a package up to date leaves of its own files. -/
structure ProtectsPackage (world : World) (root url : String) (skipLines : Nat) (t : FileTree) :
    Prop where
  /-- A rejected catalogue leaves the package and the generated files as they were. -/
  rejected : ∀ path cause v,
    (sync world (.standard root) url skipLines).run t =
      (.error (.invalidCatalogue path cause), v) →
    ∀ dir ∈ [(PackageLayout.standard root).packageFunctionsDir,
        (PackageLayout.standard root).packageTestsDir,
        (PackageLayout.standard root).scriptsDir,
        (PackageLayout.standard root).testsDir],
      ∀ place, Covers dir place → v.get? place = t.get? place
  /-- Unless the install step is reached, the package is as it was. -/
  unprepared : ∀ failure u,
    (prepare world (.standard root) url skipLines).run t = (.error failure, u) →
    ∀ dir ∈ [(PackageLayout.standard root).packageFunctionsDir,
        (PackageLayout.standard root).packageTestsDir],
      ∀ place, Covers dir place →
        ((sync world (.standard root) url skipLines).run t).2.get? place = t.get? place
  /-- The install step, which begins with the tree `u`, brings R files that are there by then. -/
  installed : ∀ u,
    (prepare world (.standard root) url skipLines).run t = (.ok (), u) →
    OnlyInstalls (PackageLayout.standard root).scriptsDir
        (PackageLayout.standard root).packageFunctionsDir t u
        ((sync world (.standard root) url skipLines).run t).2 ∧
      OnlyInstalls (PackageLayout.standard root).testsDir
        (PackageLayout.standard root).packageTestsDir t u
        ((sync world (.standard root) url skipLines).run t).2

/-- Directories of the package that are made on the way to an install target. -/
theorem leadsThrough_package (through : LeadsThrough (PackageLayout.standard root).packageFunctionsDir place ∨
      LeadsThrough (PackageLayout.standard root).packageTestsDir place) :
    LeadsThrough root place ∨
      place ∈ [placeOf root ++ ["R"], placeOf root ++ ["tests"], placeOf root ++ ["tests", "testthat"]] := by
  rcases through with functions | tests
  · rcases LeadsThrough.of_join_ordinary (by decide) functions with outside | rfl
    · exact .inl outside
    · exact .inr (by simp)
  · rcases LeadsThrough.of_join_ordinary (by decide) tests with above | rfl
    · rcases LeadsThrough.of_join_ordinary (by decide) above with outside | rfl
      · exact .inl outside
      · exact .inr (by simp)
    · rw [placeOf_join_of_isOrdinary (by decide)]
      exact .inr (by simp)

/-- What the install step does to one of its targets, when nothing has been done there before. -/
theorem onlyInstalls_of_grows {source target : String} {rel : Place} {dirs files : Place → Prop}
    (there : placeOf target = placeOf root ++ rel) (opens : t.Opens root)
    (kept : ∀ rest, u.get? (placeOf root ++ (rel ++ rest)) = t.get? (placeOf root ++ (rel ++ rest)))
    (own : ∀ rest, dirs (placeOf root ++ (rel ++ rest)) →
      LeadsThrough root (placeOf root ++ (rel ++ rest)) ∨ rest = [])
    (copied : ∀ rest, files (placeOf root ++ (rel ++ rest)) →
      Copies u source target (placeOf root ++ (rel ++ rest)))
    (grown : Grows dirs files u v) : OnlyInstalls source target t u v := by
  intro place covered changed
  obtain ⟨rest, rfl⟩ := covered
  rw [there, List.append_assoc] at changed ⊢
  rw [← kept rest] at changed ⊢
  rcases grown _ changed with ⟨inside, absent, directory⟩ | ⟨inside, different, file⟩
  · rcases own rest inside with outside | itself
    · rw [kept, isDirectoryAt_iff.mp (opens _ outside)] at absent
      cases absent
    · exact .inl ⟨by rw [itself, List.append_nil], absent, directory⟩
  · exact .inr ⟨copied rest inside, different, file⟩

/-- Where the directories of generated and of installed files lie. -/
theorem placeOf_outputs {dir : String}
    (member : dir ∈ [(PackageLayout.standard root).packageFunctionsDir,
      (PackageLayout.standard root).packageTestsDir, (PackageLayout.standard root).scriptsDir,
      (PackageLayout.standard root).testsDir]) :
    ∃ first ∈ [["R"], ["tests"], ["PY2R", "scripts"], ["PY2R", "tests"]], ∃ more,
      placeOf dir = placeOf root ++ (first ++ more) := by
  simp only [List.mem_cons, List.not_mem_nil, or_false] at member
  rcases member with rfl | rfl | rfl | rfl
  · exact ⟨["R"], by simp, [], placeOf_packageFunctionsDir _⟩
  · exact ⟨["tests"], by simp, ["testthat"], placeOf_packageTestsDir _⟩
  · refine ⟨["PY2R", "scripts"], by simp, [], ?_⟩
    rw [placeOf_scriptsDir, placeOf_work, List.append_assoc]
    rfl
  · refine ⟨["PY2R", "tests"], by simp, [], ?_⟩
    rw [placeOf_testsDir, placeOf_work, List.append_assoc]
    rfl

/-- A rejected catalogue leaves the package and the generated files as they were. -/
theorem untouched_of_rejected (h : Downloaded world.zip root url t) {path dir : String}
    {cause : CatalogueError}
    (run : (sync world (.standard root) url skipLines).run t = (.error (.invalidCatalogue path cause), v))
    (member : dir ∈ [(PackageLayout.standard root).packageFunctionsDir,
      (PackageLayout.standard root).packageTestsDir, (PackageLayout.standard root).scriptsDir,
      (PackageLayout.standard root).testsDir]) (covered : Covers dir place) :
    v.get? place = t.get? place := by
  obtain ⟨first, beside, more, there⟩ := placeOf_outputs member
  obtain ⟨rest, rfl⟩ := covered
  rw [tree_of_rejected run, there, List.append_assoc, List.append_assoc]
  exact untouched_by_fetchCatalogue h beside (more ++ rest)

/-- An update that stops before the install step leaves the package as it was. -/
theorem untouched_of_unprepared (h : Downloaded world.zip root url t) {failure : Failure} {dir : String}
    (prepared : (prepare world (.standard root) url skipLines).run t = (.error failure, u))
    (member : dir ∈ [(PackageLayout.standard root).packageFunctionsDir,
      (PackageLayout.standard root).packageTestsDir]) (covered : Covers dir place) :
    ((sync world (.standard root) url skipLines).run t).2.get? place = t.get? place := by
  have after : ((sync world (.standard root) url skipLines).run t).2 = u := by
    rw [sync_eq, run_bind, prepared]
  rw [after]
  simp only [List.mem_cons, List.not_mem_nil, or_false] at member
  rcases member with rfl | rfl
  · obtain ⟨rest, rfl⟩ := covered
    rw [placeOf_packageFunctionsDir, List.append_assoc]
    exact untouched_by_prepare h prepared "R" rest (by decide)
  · obtain ⟨rest, rfl⟩ := covered
    rw [placeOf_packageTestsDir, List.append_assoc]
    exact untouched_by_prepare h prepared "tests" ("testthat" :: rest) (by decide)

/-- An update that reaches the install step installs R files that were there when it began. -/
theorem onlyInstalls_of_prepared (lawful : world.glob.Lawful) (h : Downloaded world.zip root url t)
    (prepared : (prepare world (.standard root) url skipLines).run t = (.ok (), u)) :
    OnlyInstalls (PackageLayout.standard root).scriptsDir
        (PackageLayout.standard root).packageFunctionsDir t u
        ((sync world (.standard root) url skipLines).run t).2 ∧
      OnlyInstalls (PackageLayout.standard root).testsDir
        (PackageLayout.standard root).packageTestsDir t u
        ((sync world (.standard root) url skipLines).run t).2 := by
  have after : ((sync world (.standard root) url skipLines).run t).2 =
      ((install world (.standard root)).run u).2 := by
    rw [sync_eq, run_bind_of_ok prepared]
  have ordered := (confined_prepare h skipLines).wellFormed h.wellFormed
  rw [prepared] at ordered
  have grown := grows_install lawful ordered root
  rw [after]
  constructor
  · refine onlyInstalls_of_grows (placeOf_packageFunctionsDir _) h.opens
      (fun rest => untouched_by_prepare h prepared "R" rest (by decide))
      (fun rest inside => ?_) (fun rest inside => ?_) grown
    · simpa [PackageLayout.ofRoot] using leadsThrough_package inside
    · refine inside.resolve_right ?_
      rintro ⟨name, same, _⟩
      rw [placeOf_packageTestsDir] at same
      simp [PackageLayout.ofRoot] at same
  · refine onlyInstalls_of_grows (placeOf_packageTestsDir _) h.opens
      (fun rest => untouched_by_prepare h prepared "tests" ("testthat" :: rest) (by decide))
      (fun rest inside => ?_) (fun rest inside => ?_) grown
    · simpa [PackageLayout.ofRoot] using leadsThrough_package inside
    · refine inside.resolve_left ?_
      rintro ⟨name, same, _⟩
      rw [placeOf_packageFunctionsDir] at same
      simp [PackageLayout.ofRoot] at same

/-- Bringing a package up to date protects its files: whatever comes of it, the package only gets R files
that were generated, and a rejected catalogue changes nothing. -/
theorem sync_protects_package (lawful : world.glob.Lawful) (h : Downloaded world.zip root url t)
    (skipLines : Nat) : ProtectsPackage world root url skipLines t where
  rejected _ _ _ run _ member _ covered := untouched_of_rejected h run member covered
  unprepared _ _ prepared _ member _ covered := untouched_of_unprepared h prepared member covered
  installed _ prepared := onlyInstalls_of_prepared lawful h prepared

end

/-- An archive with one entry, the catalogue `WBT/whitebox_tools.py`, which holds one tool. -/
def catalogueArchive : ByteArray := ⟨#[
  80, 75, 3, 4, 20, 0, 0, 0, 0, 0, 0, 0, 33, 0, 237, 219, 120, 87, 38, 0, 0, 0, 38, 0, 0, 0, 21, 0, 0,
  0, 87, 66, 84, 47, 119, 104, 105, 116, 101, 98, 111, 120, 95, 116, 111, 111, 108, 115, 46, 112, 121,
  35, 32, 68, 97, 116, 97, 32, 84, 111, 111, 108, 115, 32, 35, 10,
  100, 101, 102, 32, 102, 40, 115, 101, 108, 102, 44, 32, 105, 41, 58, 10, 34, 34, 34, 34, 34, 34, 10,
  80, 75, 1, 2, 20, 3, 20, 0, 0, 0, 0, 0, 0, 0, 33, 0, 237, 219, 120, 87, 38, 0, 0, 0, 38, 0, 0, 0,
  21, 0, 0, 0, 0, 0, 0, 0, 0, 0, 0, 0, 164, 1, 0, 0, 0, 0, 87, 66, 84, 47, 119, 104, 105, 116, 101,
  98, 111, 120, 95, 116, 111, 111, 108, 115, 46, 112, 121,
  80, 75, 5, 6, 0, 0, 0, 0, 1, 0, 1, 0, 67, 0, 0, 0, 89, 0, 0, 0, 0, 0]⟩

/-- A package in the home directory with this archive and a script written by hand. -/
def handwrittenTree : FileTree :=
  ⟨[(["home"], .directory), (["home", "a.zip"], .file 0o644 catalogueArchive),
    (["home", "R"], .directory), (["home", "R", "own.R"], .file 0o644 "own".toUTF8)]⟩

def offline [User] : World := ⟨fun _ => .refused, fun _ _ _ => none, Zip.reader, Glob.inDirectory ".R"⟩

theorem bundleOnly_catalogueArchive : BundleOnly Zip.reader catalogueArchive := by
  have listed : (Zip.reader.records? catalogueArchive).getD [] =
      [⟨"WBT/whitebox_tools.py", false, some 0o644⟩] := by decide +kernel
  intro r member
  rw [listed] at member
  obtain rfl := List.mem_singleton.mp member
  exact ⟨"whitebox_tools.py", by decide⟩

theorem sync_protects_package_handwritten :
    letI := Bundle.homeUser
    offline.glob.Lawful ∧ Downloaded offline.zip "/home" "http://h/a.zip" handwrittenTree ∧
      ((sync offline (.standard "/home") "http://h/a.zip" 0).run handwrittenTree).1 = .ok () ∧
      ProtectsPackage offline "/home" "http://h/a.zip" 0 handwrittenTree := by
  let _ : User := Bundle.homeUser
  have downloaded : Downloaded offline.zip "/home" "http://h/a.zip" handwrittenTree :=
    ⟨by decide +kernel, "a.zip", catalogueArchive, by decide +kernel,
      read?_of_find (by decide +kernel) (rfl : handwrittenTree.get? ["home", "a.zip"] = _),
      bundleOnly_catalogueArchive⟩
  exact ⟨Glob.lawful_inDirectory, downloaded, by decide +kernel,
    sync_protects_package Glob.lawful_inDirectory downloaded 0⟩

end Workflow

end ToolWrappers
