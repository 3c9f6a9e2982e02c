import ToolWrappers.Proofs.Settled
import ToolWrappers.Proofs.Signatures
import ToolWrappers.Proofs.UpdatedPackage

/-! Bringing a package up to date twice. The archive is still there after the first run and unpacks to the
same bundle, and every later stage finds its files as it would leave them. -/

namespace ToolWrappers

open ToolWrappers.Action ToolWrappers.FileTree ToolWrappers.Install ToolWrappers.Path

namespace Workflow

variable {world : World} {l : PackageLayout} {root url name : String} {skipLines : Nat}
  {t u v w : FileTree} {place : Place} {bytes : ByteArray} {lib : Zip.Library}

section

variable [User]

/-! ### The archive stays -/

theorem Ready.opens (ready : Ready lib root name bytes t) : t.Opens root := by
  obtain ⟨place, mode, found, _⟩ := read?_eq_some_iff.mp ready.cached
  exact opens_of_find_join (isAbsolute_of_single ready.single) found

/-- The archive of a package has a name of its own and lies at the root. -/
theorem Ready.archived (ready : Ready lib root name bytes t) :
    IsOrdinary name ∧ t.find (join root name) = .ok (placeOf root ++ [name]) ∧
      ∃ mode, t.get? (placeOf root ++ [name]) = some (.file mode bytes) := by
  have relative := isAbsolute_of_single ready.single
  obtain ⟨place, mode, found, there⟩ := read?_eq_some_iff.mp ready.cached
  have directory := ready.opens (placeOf root) (leadsThrough_placeOf root)
  have lies := placeOf_of_find found
  rw [placeOf_join relative, names_of_single ready.single] at lies
  have ordinary : IsOrdinary name := by
    by_contra unusual
    have above : place <+: placeOf root := by
      rw [resolve_cons, advance] at lies
      split at lies
      · exact lies ▸ List.prefix_refl _
      · split at lies
        · exact lies ▸ List.dropLast_prefix _
        · rename_i idle dots
          simp only [Bool.or_eq_true, decide_eq_true_eq, not_or] at idle
          exact absurd ⟨idle.1, idle.2, dots, ready.single⟩ unusual
    have file : t.isDirectoryAt place = false := by simp [isDirectoryAt, there]
    by_cases same : place = placeOf root
    · rw [same, directory] at file
      cases file
    · rw [ready.wellFormed.isDirectoryAt_of_prefix (by simp [isDirectoryAt_iff.mp directory]) above
        same] at file
      cases file
  rw [resolve_cons, advance_of_isOrdinary ordinary, resolve_nil] at lies
  subst lies
  exact ⟨ordinary, found, mode, there⟩

/-- Where the path of the archive leads through. -/
theorem Ready.leadsThrough (ready : Ready lib root name bytes t)
    (through : LeadsThrough (join root name) place) :
    LeadsThrough root place ∨ place = placeOf root ++ [name] :=
  through.of_join_ordinary ready.archived.1

/-! ### Unpacking again -/

/-- An archive that has been unpacked once can be unpacked again over a bundle that is there. -/
theorem exists_run_unpack (done : Bundle.Unpacked lib (join root name) root bytes t v)
    (ready : Ready lib root name bytes u) (usable : pathFault? (join root "WBT") = none)
    (bundle : u.get? (placeOf root ++ ["WBT"]) = some .directory)
    (same : u.get? (placeOf root ++ [name]) = t.get? (placeOf root ++ [name])) :
    ∃ w, (Bundle.unpack lib (join root name) root (join root "WBT")).run u = (.ok (), w) := by
  obtain ⟨ordinary, found, mode, there⟩ := ready.archived
  have apart := done.apart
  have beside : ¬placeOf root ++ ["WBT"] <+: placeOf root ++ [name] := by
    intro below
    rw [List.prefix_append_right_inj, List.cons_prefix_cons] at below
    rw [← below.1, bundle] at there
    cases there
  have seen := Bundle.find_bundle usable ready.single found (by simp [placeOf_bundle, bundle])
  have removed := run_removeDir seen (isDirectoryAt_iff.mpr (placeOf_bundle root ▸ bundle))
    (Bundle.find_eraseBelow apart seen) (endsInName_join (by decide))
  obtain ⟨_, clear, kept, run⟩ := done.cleared
  rw [placeOf_bundle] at seen removed apart clear
  obtain ⟨⟨a, records⟩, x, opened, extracted⟩ := run_bind_eq_ok run
  obtain ⟨rfl, refound, ⟨mode', file⟩, listed⟩ := Bundle.openArchive_eq_ok opened
  obtain lies : placeOf root ++ [name] = a.place :=
    (placeOf_join_of_isOrdinary ordinary).symm.trans (placeOf_of_find refound)
  have held : a.bytes = bytes := read?_of_kept kept done.cached (read?_of_find refound file)
  -- both trees have the way to the root and the archive, and nothing of a bundle
  have agree : AgreeOn (fun place => LeadsThrough root place ∨ Covers (join root "WBT") place ∨
      place = a.place) x ((u.eraseBelow (placeOf root ++ ["WBT"])).erase (placeOf root ++ ["WBT"])) := by
    have outside {place : Place} (other : ¬placeOf root ++ ["WBT"] <+: place) :
        ((u.eraseBelow (placeOf root ++ ["WBT"])).erase (placeOf root ++ ["WBT"])).get? place =
          u.get? place := by
      rw [get?_erase, if_neg (by simp [other]), get?_eraseBelow, if_neg (by simp [other])]
    rintro place (through | ⟨rest, rfl⟩ | rfl)
    · rw [outside (apart place through), isDirectoryAt_iff.mp (ready.opens place through)]
      exact isDirectoryAt_iff.mp
        (opens_of_find_join (isAbsolute_of_single ready.single) refound place through)
    · rw [placeOf_bundle, clear rest, get?_erase, if_pos (by simp)]
    · rw [← lies, outside beside, same, lies, file, kept _ _ file]
  obtain ⟨_, opened', agree⟩ := (Bundle.local_openArchive lib fun place through =>
    (ready.leadsThrough through).imp_right fun here => .inr (here.trans lies)).exists_run agree opened
  obtain ⟨w, extracted', _⟩ := (Bundle.local_extractAll lib 0 (.inr (.inr rfl))
    fun r member safe place through => by
      obtain ⟨rest, spelled⟩ := ready.bundled r (by rwa [← held, listed])
      rw [spelled] at safe through
      exact (leadsThrough_bundled safe through).imp_right .inl).exists_run agree extracted
  refine ⟨w, ?_⟩
  rw [Bundle.unpack, run_bind_of_ok (run_get u), if_pos (by simp [has, node?, seen, bundle])]
  exact (run_bind_of_ok (run_orFail_eq_ok.mpr removed) _).trans ((run_bind_of_ok opened' _).trans extracted')

/-! ### Installing again -/

/-- Copying R files changes nothing outside the target directory, but for directories on the way. -/
theorem confined_copyRFiles {glob : Glob} {source : String} (lawful : glob.Lawful) (filled : source ≠ "")
    (h : u.WellFormed) (target : String) :
    Confined (Covers target) (LeadsThrough target) u ((copyRFiles glob source target).run u).2 := by
  apply keeps_copyRFiles lawful filled h
  · intro dir member t idle place vacant room
    have through := LeadsThrough.of_mem_lineage member (leadsThrough_placeOf dir)
    exact .put_of_vacancy vacant room (.inr ⟨rfl, vacant.placeOf ▸ through⟩)
  · intro name present mode bytes t idle place vacant room
    apply Confined.put_of_vacancy vacant room
    left
    rw [Covers, ← vacant.placeOf, placeOf_join_of_isOrdinary present.1.ordinary]
    exact List.prefix_append _ _

/-- Copying R files once more, when nothing has come to the source since, and no file there forbids that
its copy is written over. -/
theorem settled_copyRFiles_again {glob : Glob} {source target : String} {a b : FileTree}
    {paths : List String} {dirs : List Place} (lawful : glob.Lawful) (filled : source ≠ "")
    (nonempty : target ≠ "") (h : a.WellFormed)
    (run : (copyRFiles glob source target).run a = (.ok paths, b)) (later : AddsRFiles dirs b v)
    (opens : a.isDirectoryAt (placeOf source) = true → a.Opens source)
    (beside : ∀ dir ∈ placeOf target :: dirs, dir ≠ placeOf source)
    (outside : ∀ dir ∈ dirs, dir ≠ placeOf target)
    (writable : ∀ name mode bytes, IsRFileName name →
      v.get? (placeOf source ++ [name]) = some (.file mode bytes) → mayWrite mode = true) :
    Settled v (copyRFiles glob source target) := by
  have apart : placeOf source ≠ placeOf target := (beside _ List.mem_cons_self).symm
  have copies := (addsRFiles_of_copyRFiles lawful filled h run).trans later
  rcases lawful source filled with ⟨shown, shows⟩ | blind
  case inr => exact settled_of_blind blind target
  case inl =>
    obtain ⟨names, listed, copied, _⟩ := copied_of_shows shows h run
    refine settled_copyRFiles shows nonempty fun name named visible => ?_
    obtain ⟨_, read⟩ := isFile_iff.mp visible
    obtain ⟨place, mode, found, there⟩ := read?_eq_some_iff.mp read
    obtain rfl : placeOf source ++ [name] = place := by
      rw [← placeOf_of_find found, placeOf_join_of_isOrdinary named.ordinary, shows.way.placeOf]
    -- the file was there before, and was found by the same path
    have before := (copies.confined.file_iff (not_rFilesIn_of_last beside)).mp there
    have directory : a.isDirectoryAt (placeOf source) = true :=
      h.isDirectoryAt_of_prefix (by simp [before]) (List.prefix_append _ [name]) (by simp)
    have way : a.Opens shown := fun place through => opens directory place (shows.way.leadsThrough through)
    have refound := find_join_of_opens named.ordinary found way (by simp [before])
    have member := (listed.mem_iff name).mpr
      ⟨named, isFile_iff.mpr ⟨_, read?_of_find refound before⟩⟩
    rw [← shows.way.placeOf] at apart
    obtain ⟨mode, bytes, first, readable, still, onward, arrived⟩ := copied.stored_of_apart apart member
    rw [shows.way.placeOf] at apart first still onward
    have last := (later.confined.file_iff (not_rFilesIn_of_last fun dir inside =>
      beside dir (List.mem_cons_of_mem _ inside))).mpr still
    refine ⟨_, _, mode, bytes, fun same => apart (List.append_inj' same rfl).1,
      find_kept onward later.kept (by simp [last]), last, readable, writable name mode bytes named last, ?_⟩
    exact later.stored arrived (not_rFilesIn_of_last outside)

/-! ### What the first run leaves -/

/-- What is copied keeps its mode: the catalogue of the bundle and the R files of the work directory may
be written, so that their copies may be written over. -/
def Rewritable (l : PackageLayout) (v : FileTree) : Prop :=
  ∀ place mode bytes, v.get? place = some (.file mode bytes) →
    place = placeOf l.bundledCatalogue ∨ RFilesIn [placeOf l.scriptsDir, placeOf l.testsDir] place →
      mayWrite mode = true

/-- Nothing stops a superuser. -/
theorem rewritable_of_superuser (super : User.superuser = true) : Rewritable l v := by
  intro place mode bytes _ _
  rw [mayWrite, super, Bool.true_or]

/-- Nothing stops anyone where every file may be written. -/
theorem rewritable_of_all (all : (v.entries.all fun entry => match entry.2 with
    | .file mode _ => mayWrite mode
    | .directory => true) = true) : Rewritable l v := by
  intro place mode bytes there _
  unfold FileTree.get? at there
  split at there
  · cases there
  · obtain ⟨before, after, split, _⟩ := List.lookup_eq_some_iff.mp there
    exact List.all_eq_true.mp all (place, .file mode bytes) (by simp [split])

namespace Course

variable (c : Course world (.standard root) ((PackageLayout.standard root).archive name) skipLines t v)
  (decodes : world.zip.Lawful) (finds : world.glob.Lawful) (ready : Ready world.zip root name bytes t)

include c decodes finds ready

theorem keepsDirectories : KeepsDirectories c.unpacked v := by
  have housed : KeepsDirectories c.unpacked
      ((makeDirs (PackageLayout.standard root).work).run c.unpacked).2 := keepsDirectories_makeDirs _
  rw [c.house] at housed
  obtain ⟨_, _, _, _, _, _, _, delivered, _⟩ := c.delivers decodes ready
  exact trans_of _ housed (trans_of _ delivered (c.addsAfterDelivery finds ready).kept)

omit decodes in
theorem wellFormed : v.WellFormed :=
  (c.addsPackageTests finds ready).confined.wellFormed (c.wellFormed_equipped finds ready)

/-- The way to the root stays. -/
theorem opens : v.Opens root := by
  intro place through
  apply c.keepsDirectories decodes finds ready
  have directory := isDirectoryAt_iff.mp (ready.opens place through)
  rw [isDirectoryAt_iff]
  rcases (c.confined_unpacked ready).elsewhere place ((c.isUnpacked ready).apart place through) with
    same | ⟨_, absent, _⟩
  · exact same.trans directory
  · rw [directory] at absent
    cases absent

omit decodes finds in
/-- The archive is no bundle, since it is still there when the bundle has been cleared away. -/
theorem archive_beside_bundle : ¬Covers (join root "WBT") (placeOf root ++ [name]) := by
  rintro ⟨rest, same⟩
  obtain ⟨_, clear, _, run⟩ := (c.isUnpacked ready).cleared
  obtain ⟨⟨a, _⟩, _, opened, _⟩ := run_bind_eq_ok run
  obtain ⟨rfl, found, ⟨_, there⟩, _⟩ := Bundle.openArchive_eq_ok opened
  have lies : placeOf root ++ [name] = a.place :=
    (placeOf_join_of_isOrdinary ready.archived.1).symm.trans (placeOf_of_find found)
  have cleared := clear rest
  rw [show placeOf (join (PackageLayout.standard root).root "WBT") ++ rest = a.place from same.trans lies,
    there] at cleared
  cases cleared

/-- The archive stays. -/
theorem get?_archive : v.get? (placeOf root ++ [name]) = t.get? (placeOf root ++ [name]) := by
  obtain ⟨ordinary, _, mode, there⟩ := ready.archived
  have outside : ∀ dir ∈ [placeOf (PackageLayout.standard root).work ++ ["scripts"],
      placeOf (PackageLayout.standard root).work ++ ["tests"], placeOf root ++ ["R"],
      placeOf root ++ ["tests", "testthat"]], dir ≠ placeOf root := by
    simp [placeOf_work]
  rw [there, (c.addsAfterDelivery finds ready).confined.file_iff (not_rFilesIn_of_last outside),
    c.delivered_file_iff decodes ready (c.archive_beside_bundle ready) (by simp [placeOf_work])]
  exact there

/-- A second run finds the package ready. -/
theorem ready_again : Ready world.zip root name bytes v := by
  refine ⟨c.wellFormed finds ready, ready.single, ?_, ready.bundled⟩
  have agree : AgreeOn (fun place => LeadsThrough root place ∨ place = placeOf root ++ [name]) v t := by
    rintro place (through | rfl)
    · rw [isDirectoryAt_iff.mp (c.opens decodes finds ready place through)]
      exact (isDirectoryAt_iff.mp (ready.opens place through)).symm
    · exact c.get?_archive decodes finds ready
  rw [agree.read? fun place => ready.leadsThrough]
  exact ready.cached

/-- The bundle stays as it has been unpacked. -/
theorem get?_bundle (rel : List String) :
    v.get? (placeOf root ++ "WBT" :: rel) = c.unpacked.get? (placeOf root ++ "WBT" :: rel) := by
  have apart : ¬LeadsThrough root (placeOf root ++ "WBT" :: rel) := fun through =>
    (c.isUnpacked ready).apart _ through ⟨rel, by simp [placeOf_bundle]⟩
  have away : ¬Covers (PackageLayout.standard root).work (placeOf root ++ "WBT" :: rel) := by
    rw [Covers, placeOf_work, List.prefix_append_right_inj]
    simp [standardWorkDir]
  have working {name : String} (ordinary : IsOrdinary name) :
      ¬LeadsThrough (join (PackageLayout.standard root).work name) (placeOf root ++ "WBT" :: rel) :=
    fun through => (leadsThrough_work ordinary through).elim apart away
  have packaged : ¬(LeadsThrough (PackageLayout.standard root).packageFunctionsDir
        (placeOf root ++ "WBT" :: rel) ∨
      LeadsThrough (PackageLayout.standard root).packageTestsDir (placeOf root ++ "WBT" :: rel)) := by
    intro through
    rcases leadsThrough_package through with outside | member
    · exact apart outside
    · simp at member
  have stays {free made : Place → Prop} {a b : FileTree} (within : Confined free made a b)
      (outside : ¬free (placeOf root ++ "WBT" :: rel)) (unmade : ¬made (placeOf root ++ "WBT" :: rel)) :
      b.get? (placeOf root ++ "WBT" :: rel) = a.get? (placeOf root ++ "WBT" :: rel) :=
    (within.elsewhere _ outside).resolve_right fun new => unmade new.1
  have functions := confined_copyRFiles finds (scriptsDir_ne_empty (.standard root))
    (c.wellFormed_generated ready) (PackageLayout.standard root).packageFunctionsDir
  have tests := confined_copyRFiles finds (testsDir_ne_empty (.standard root))
    (c.wellFormed_equipped finds ready) (PackageLayout.standard root).packageTestsDir
  rw [c.installsFunctions] at functions
  rw [c.installsTests] at tests
  obtain ⟨_, _, _, _, _, _, put, _, _⟩ := c.delivers decodes ready
  calc
    v.get? (placeOf root ++ "WBT" :: rel) = c.equipped.get? (placeOf root ++ "WBT" :: rel) :=
      stays tests (by simp [Covers, placeOf_packageTestsDir, List.prefix_append_right_inj])
        fun through => packaged (.inr through)
    _ = c.generated.get? (placeOf root ++ "WBT" :: rel) :=
      stays functions (by simp [Covers, placeOf_packageFunctionsDir, List.prefix_append_right_inj])
        fun through => packaged (.inl through)
    _ = c.scripted.get? (placeOf root ++ "WBT" :: rel) :=
      stays c.wroteTests.confined
        (by simp [Under, placeOf_testsDir, placeOf_work, standardWorkDir]) (working (by decide))
    _ = c.delivered.get? (placeOf root ++ "WBT" :: rel) :=
      stays c.wroteScripts.confined
        (by simp [Under, placeOf_scriptsDir, placeOf_work, standardWorkDir]) (working (by decide))
    _ = c.housed.get? (placeOf root ++ "WBT" :: rel) := by
      rw [put, get?_put_of_ne (by simp [placeOf_work, standardWorkDir])]
    _ = c.unpacked.get? (placeOf root ++ "WBT" :: rel) := by
      refine stays c.confined_house id fun through => ?_
      rcases LeadsThrough.of_join_ordinary (by decide) through with outside | itself
      · exact apart outside
      · rw [← placeOf_work] at itself
        exact away (itself ▸ List.prefix_rfl)

/-- The catalogue of the bundle stays. -/
theorem get?_bundledCatalogue :
    ∃ mode held, mayRead mode = true ∧
      Zip.laidOut (Zip.entries world.zip bytes) ["WBT", catalogueFile] = some (.file mode held) ∧
      v.find (PackageLayout.standard root).bundledCatalogue = .ok (placeOf root ++ ["WBT", catalogueFile]) ∧
      v.get? (placeOf root ++ ["WBT", catalogueFile]) = some (.file mode held) := by
  obtain ⟨mode, held, readable, laid, found, _, _, kept, _⟩ := c.delivers decodes ready
  have there : v.get? (placeOf root ++ ["WBT", catalogueFile]) = some (.file mode held) := by
    have unpacked := (c.isUnpacked ready).get?_bundle decodes [catalogueFile]
    rw [placeOf_bundle, List.append_assoc, List.singleton_append, laid] at unpacked
    exact (c.get?_bundle decodes finds ready [catalogueFile]).trans unpacked
  have later : KeepsDirectories c.housed v := trans_of _ kept (c.addsAfterDelivery finds ready).kept
  exact ⟨mode, held, readable, laid, find_kept found later (by simp [there]), there⟩

/-! ### Every stage is settled -/

theorem settled_unpack : Settled v (Bundle.unpack world.zip (join root name) root (join root "WBT")) := by
  intro u alike
  have first := c.isUnpacked ready
  have again := c.ready_again decodes finds ready
  have ready' : Ready world.zip root name bytes u := by
    refine ⟨alike.wellFormed, ready.single, ?_, ready.bundled⟩
    rw [alike.agree.read? fun _ _ => trivial]
    exact again.cached
  have bundle : u.get? (placeOf root ++ ["WBT"]) = some .directory := by
    obtain ⟨_, _, _, _, _, there⟩ := c.get?_bundledCatalogue decodes finds ready
    have present : v.get? (placeOf root ++ ["WBT", catalogueFile]) ≠ none := by simp [there]
    rw [alike.same, ← isDirectoryAt_iff]
    exact again.wellFormed.isDirectoryAt_of_prefix present (by simp) (by simp)
  obtain ⟨w, run⟩ : ∃ w, (Bundle.unpack world.zip (join root name) root (join root "WBT")).run u =
      (.ok (), w) := exists_run_unpack first ready' c.pathFault?_bundle bundle
    ((alike.same _).trans (c.get?_archive decodes finds ready))
  have second : Bundle.Unpacked world.zip (join root name) root bytes u w :=
    .of_archived ready'.wellFormed c.pathFault?_bundle ready.single ready'.cached run
  have within : Confined _ _ u
      ((Bundle.unpack world.zip (join root name) root (join root "WBT")).run u).2 :=
    confined_unpack_bundle ready'.cached ready.bundled
  rw [run] at within
  refine ⟨(), w, run, within.wellFormed alike.wellFormed, fun place => ?_⟩
  by_cases covered : Covers (join root "WBT") place
  · obtain ⟨rel, rfl⟩ := covered
    have kept := c.get?_bundle decodes finds ready rel
    rw [List.append_cons, ← placeOf_bundle] at kept
    rw [kept, second.get?_bundle decodes]
    exact (first.get?_bundle decodes rel).symm
  · rw [← alike.same]
    exact within.get?_of_opens ready'.opens covered fun new => new.resolve_right covered

variable (writable : Rewritable (.standard root) v)

include writable in
theorem settled_deliver :
    Settled v (makeDirs (PackageLayout.standard root).work) ∧
      Settled v (copyFile (PackageLayout.standard root).bundledCatalogue
        (PackageLayout.standard root).catalogue) := by
  obtain ⟨_, _, _, laid, stored⟩ := c.stored_catalogue decodes ready finds
  obtain ⟨_, _, readable, laid', found, there⟩ := c.get?_bundledCatalogue decodes finds ready
  obtain ⟨rfl, rfl⟩ := Node.file.inj (Option.some.inj (laid.symm.trans laid'))
  rw [if_neg (bundleDir_ne_work root)] at stored
  have copied := (placeOf_bundledCatalogue (.standard root)).symm
  have allowed := writable _ _ _ there (.inl copied)
  refine ⟨settled_makeDirs (stored.isDirectory_base (by decide) (join_ne_empty (by decide))),
    settled_copyFile ⟨?_, found, there, readable, allowed, stored⟩⟩
  simp [placeOf_work, standardWorkDir]

theorem settled_generate :
    Settled v (generate (PackageLayout.standard root).catalogue (PackageLayout.standard root).scriptsDir
      (PackageLayout.standard root).testsDir skipLines) := by
  intro u alike
  have reads : Reads u (PackageLayout.standard root).catalogue c.text := by
    obtain ⟨mode, held, readable, laid, stored⟩ := c.stored_catalogue decodes ready finds
    obtain ⟨_, _, laid', decoded⟩ := c.delivered_text decodes ready (bundleDir_ne_work root)
    obtain ⟨rfl, rfl⟩ := Node.file.inj (Option.some.inj (laid.symm.trans laid'))
    rw [if_neg (bundleDir_ne_work root)] at stored
    have arrived := alike.stored stored
    exact ⟨held, by rw [run_readFile, node?, arrived.find]; simp [arrived.file, readable], decoded⟩
  obtain ⟨scripts, tests⟩ := isOrdinary_of_mem_generated c.accepts
  rw [generate_run reads c.accepts]
  refine (Settled.bind (settled_writeFiles (scriptsDir_ne_empty _) scripts ?_)
    fun _ => .bind (settled_writeFiles (testsDir_ne_empty _) tests ?_) fun _ => .pure _) u alike
  · intro file contents last
    obtain ⟨mode, scripted, allowed⟩ := c.wroteScripts.stored file contents last
    refine ⟨mode, (c.addsAfterScripts finds ready).stored scripted (not_rFilesIn_of_last ?_), allowed⟩
    simp [placeOf_scriptsDir, placeOf_work, standardWorkDir]
  · intro file contents last
    obtain ⟨mode, generated, allowed⟩ := c.wroteTests.stored file contents last
    refine ⟨mode, (c.addsInstalled finds ready).stored generated (not_rFilesIn_of_last ?_), allowed⟩
    simp [placeOf_testsDir, placeOf_work, standardWorkDir]

include writable in
theorem settled_installs :
    Settled v (copyRFiles world.glob (PackageLayout.standard root).scriptsDir
        (PackageLayout.standard root).packageFunctionsDir) ∧
      Settled v (copyRFiles world.glob (PackageLayout.standard root).testsDir
        (PackageLayout.standard root).packageTestsDir) := by
  obtain ⟨_, _, _, _, _, _, _, _, delivered⟩ := c.delivers decodes ready
  have generated := (c.addsScripts.trans c.addsStubs).stored delivered not_rFilesIn_catalogueFile
  have equipped := (c.addsFunctions finds ready).stored generated not_rFilesIn_catalogueFile
  have relative : isAbsolute catalogueFile = false := by decide
  have way {a : FileTree} {sub : String} (ordinary : IsOrdinary sub)
      {mode : Nat} {held : ByteArray} {place : Place}
      (stored : a.Stored (PackageLayout.standard root).catalogue place mode held)
      (directory : a.isDirectoryAt (placeOf (join (PackageLayout.standard root).work sub)) = true) :
      a.Opens (join (PackageLayout.standard root).work sub) :=
    (opens_of_find_join relative stored.find).join ordinary
      (placeOf_join_of_isOrdinary ordinary ▸ directory)
  constructor
  · refine settled_copyRFiles_again finds (scriptsDir_ne_empty _) (join_ne_empty (by decide))
      (c.wellFormed_generated ready) c.installsFunctions (c.addsPackageTests finds ready)
      (way (by decide) generated) ?_ ?_ fun name mode bytes named there =>
        writable _ mode bytes there (.inr ⟨_, List.mem_cons_self, name, named, rfl⟩)
    · simp [placeOf_scriptsDir, placeOf_packageFunctionsDir, placeOf_work, standardWorkDir]
    · simp [placeOf_packageFunctionsDir]
  · have last : AddsRFiles [] v v := ⟨refl_of _ _, refl_of _ _⟩
    refine settled_copyRFiles_again finds (testsDir_ne_empty _) (join_ne_empty (by decide))
      (c.wellFormed_equipped finds ready) c.installsTests last
      (way (by decide) equipped) ?_ ?_ fun name mode bytes named there =>
        writable _ mode bytes there
          (.inr ⟨_, List.mem_cons_of_mem _ (List.mem_singleton_self _), name, named, rfl⟩)
    · simp [placeOf_testsDir, placeOf_packageTestsDir, placeOf_work, standardWorkDir]
    · simp

end Course

end

end Workflow

end ToolWrappers
