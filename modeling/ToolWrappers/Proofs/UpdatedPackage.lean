import ToolWrappers.Proofs.UpdateCourse

/-! What a package holds after it has been brought up to date: the files that its catalogue generates, and
copies of R files that had been left among them before. -/

namespace ToolWrappers

open ToolWrappers.Action ToolWrappers.FileTree ToolWrappers.Install ToolWrappers.Path

namespace Workflow

variable {world : World} {l : PackageLayout} {root workDir url name text : String} {skipLines : Nat}
  {t u v : FileTree} {place : Place} {bytes : ByteArray} {lib : Zip.Library}

section

variable [User]

/-- The archive that lies at the root of a package holds nothing but a bundle, with this catalogue. -/
structure Delivers (lib : Zip.Library) (root url text : String) (t : FileTree) : Prop where
  wellFormed : t.WellFormed
  archived : ∃ name bytes mode held, Bundle.archiveName url = .ok name ∧
    t.read? (join root name) = some bytes ∧ BundleOnly lib bytes ∧
    Zip.laidOut (Zip.entries lib bytes) ["WBT", catalogueFile] = some (.file mode held) ∧
    Text.decode? held = some text

theorem Delivers.downloaded (h : Delivers lib root url text t) : Downloaded lib root url t := by
  obtain ⟨name, bytes, _, _, named, cached, bundled, _, _⟩ := h.archived
  exact ⟨h.wellFormed, name, bytes, named, cached, bundled⟩

/-- A directory holds these files: under the name of each, the contents of the last one of that name. -/
def HoldsFiles (dir : String) (files : List GeneratedFile) (v : FileTree) : Prop :=
  ∀ file ∈ files, ∃ contents, contents? files file.name = some contents ∧
    v.read? (join dir file.name) = some contents.toUTF8

/-- A package holds what its catalogue generates, and the work directory holds the catalogue. -/
structure HoldsCatalogue (root workDir : String) (skipLines : Nat) (text : String) (v : FileTree) :
    Prop where
  catalogue : (v.read? (PackageLayout.ofRoot root workDir).catalogue).bind Text.decode? = some text
  generated : ∃ c, Catalogue.read (settings skipLines) text = .ok c ∧
    HoldsFiles (PackageLayout.ofRoot root workDir).packageFunctionsDir
      (Generated.ofCatalogue (settings skipLines) c).scripts v ∧
    HoldsFiles (PackageLayout.ofRoot root workDir).packageTestsDir
      (Generated.ofCatalogue (settings skipLines) c).tests v

theorem placeOf_scriptsDir_ne (l : PackageLayout) :
    placeOf l.scriptsDir ≠ placeOf l.packageFunctionsDir := by
  rw [placeOf_scriptsDir, placeOf_packageFunctionsDir]
  intro same
  simpa using (List.append_inj' same rfl).2

theorem placeOf_testsDir_ne (l : PackageLayout) : placeOf l.testsDir ≠ placeOf l.packageTestsDir := by
  rw [placeOf_testsDir, placeOf_packageTestsDir]
  intro same
  simpa using congrArg List.getLast? same

namespace Course

variable (c : Course world l (l.archive name) skipLines t v) (decodes : world.zip.Lawful)
  (ready : Ready world.zip l.root name bytes t)

include c decodes ready

/-- The catalogue that is read is the one in the archive, unless it has been copied onto itself. -/
theorem delivered_text (elsewhere : placeOf l.bundleDir ≠ placeOf l.work) :
    ∃ mode held, Zip.laidOut (Zip.entries world.zip bytes) ["WBT", catalogueFile] =
        some (.file mode held) ∧ Text.decode? held = some c.text := by
  obtain ⟨mode, held, _, laid, _, _, _, _, delivered⟩ := c.delivers decodes ready
  obtain ⟨_, _, _, found, there, _, decoded⟩ := c.reads
  obtain rfl := Except.ok.inj (delivered.find.symm.trans found)
  rw [if_neg elsewhere] at delivered
  obtain ⟨_, rfl⟩ := Node.file.inj (Option.some.inj (delivered.file.symm.trans there))
  exact ⟨mode, held, laid, decoded⟩

variable (shows : world.glob.Lawful)

include shows

/-- The catalogue stays in the work directory. -/
theorem stored_catalogue :
    ∃ mode held, mayRead mode = true ∧
      Zip.laidOut (Zip.entries world.zip bytes) ["WBT", catalogueFile] = some (.file mode held) ∧
      v.Stored l.catalogue (placeOf l.work ++ [catalogueFile]) mode
        (if placeOf l.bundleDir = placeOf l.work then .empty else held) := by
  obtain ⟨mode, held, readable, laid, _, _, _, _, stored⟩ := c.delivers decodes ready
  exact ⟨mode, held, readable, laid,
    (c.addsAfterDelivery shows ready).stored stored not_rFilesIn_catalogueFile⟩

omit decodes

/-- A script of the catalogue is a function file of the package. -/
theorem holds_scripts {shown : String} (visible : world.glob.Shows l.scriptsDir shown) :
    HoldsFiles l.packageFunctionsDir c.output.scripts v := by
  intro file member
  obtain ⟨contents, last⟩ := contents?_of_mem member
  obtain ⟨mode, scripted, _⟩ := c.wroteScripts.stored file.name contents last
  have generated := c.addsStubs.stored scripted (not_rFilesIn_of_last (by simp [placeOf_scriptsDir]))
  have equipped := stored_of_copyRFiles visible (c.wellFormed_generated ready)
    (placeOf_scriptsDir_ne l) c.installsFunctions
    ((isRFileName_of_mem_generated c.accepts).1 file member) generated
  have kept := (c.addsPackageTests shows ready).stored equipped
    (not_rFilesIn_of_last (by simp [placeOf_packageFunctionsDir]))
  exact ⟨contents, last, kept.read?⟩

/-- A test file of the catalogue is a test file of the package. -/
theorem holds_tests {shown : String} (visible : world.glob.Shows l.testsDir shown) :
    HoldsFiles l.packageTestsDir c.output.tests v := by
  intro file member
  obtain ⟨contents, last⟩ := contents?_of_mem member
  obtain ⟨mode, generated, _⟩ := c.wroteTests.stored file.name contents last
  have equipped := (c.addsFunctions shows ready).stored generated (not_rFilesIn_of_last fun dir same => ?_)
  · have installed := stored_of_copyRFiles visible (c.wellFormed_equipped shows ready)
      (placeOf_testsDir_ne l) c.installsTests ((isRFileName_of_mem_generated c.accepts).2 file member)
      equipped
    exact ⟨contents, last, installed.read?⟩
  · rw [List.mem_singleton.mp same, placeOf_testsDir]
    exact fun same => by simpa using (List.append_inj' same rfl).2

end Course

/-- Bringing a package up to date installs what its catalogue generates, unless the work directory is the
bundle itself or is not shown. -/
theorem sync_installs_catalogue (decodes : world.zip.Lawful) (finds : world.glob.Lawful)
    (h : Delivers world.zip root url text t)
    (apart : placeOf (PackageLayout.ofRoot root workDir).work ≠
      placeOf (PackageLayout.ofRoot root workDir).bundleDir)
    (visible : ∀ dir ∈ [(PackageLayout.ofRoot root workDir).scriptsDir,
      (PackageLayout.ofRoot root workDir).testsDir], ∃ shown, world.glob.Shows dir shown)
    (run : (sync world (.ofRoot root workDir) url skipLines).run t = (.ok (), v)) :
    HoldsCatalogue root workDir skipLines text v := by
  obtain ⟨name, bytes, mode, held, named, cached, bundled, laid, decoded⟩ := h.archived
  have ready : Ready world.zip root name bytes t :=
    ⟨h.wellFormed, not_slash_of_archiveName named, cached, bundled⟩
  obtain ⟨c, _⟩ := exists_course (l := .ofRoot root workDir) named cached run
  obtain ⟨_, _, same, reads⟩ := c.delivered_text decodes ready apart.symm
  obtain ⟨rfl, rfl⟩ := Node.file.inj (Option.some.inj (same.symm.trans laid))
  obtain rfl := Option.some.inj (decoded.symm.trans reads)
  obtain ⟨_, _, _, same, stored⟩ := c.stored_catalogue decodes ready finds
  obtain ⟨rfl, rfl⟩ := Node.file.inj (Option.some.inj (same.symm.trans laid))
  rw [if_neg apart.symm] at stored
  obtain ⟨_, scripts⟩ := visible _ List.mem_cons_self
  obtain ⟨_, tests⟩ := visible _ (List.mem_cons_of_mem _ (List.mem_singleton_self _))
  refine ⟨?_, c.catalogue, c.accepts, c.holds_scripts ready finds scripts, c.holds_tests ready finds tests⟩
  rw [stored.read?, Option.bind_some, decoded]

end

/-- The catalogue of the sample archive. -/
def sampleCatalogue : String := "# Data Tools #\ndef f(self, i):\n\"\"\"\"\"\"\n"

/-- A tree with the sample archive in the home directory. -/
theorem delivers_sample [User] (h : t.WellFormed) (found : t.find (join root "a.zip") = .ok ["home", "a.zip"])
    (there : t.get? ["home", "a.zip"] = some (.file 0o644 catalogueArchive)) :
    Delivers Zip.reader root "http://h/a.zip" sampleCatalogue t :=
  ⟨h, "a.zip", catalogueArchive, 0o644, sampleCatalogue.toUTF8, by decide +kernel,
    read?_of_find found there, bundleOnly_catalogueArchive, by decide +kernel, by decide +kernel⟩

theorem sync_installs_catalogue_handwritten :
    letI := Bundle.homeUser
    ∃ v, offline.zip.Lawful ∧ offline.glob.Lawful ∧
      Delivers offline.zip "." "http://h/a.zip" sampleCatalogue handwrittenTree ∧
      (sync offline (.ofRoot "." "/gen") "http://h/a.zip" 0).run handwrittenTree = (.ok (), v) ∧
      HoldsCatalogue "." "/gen" 0 sampleCatalogue v := by
  let _ : User := Bundle.homeUser
  have run : (sync offline (.ofRoot "." "/gen") "http://h/a.zip" 0).run handwrittenTree =
      (.ok (), ((sync offline (.ofRoot "." "/gen") "http://h/a.zip" 0).run handwrittenTree).2) :=
    run_eq_ok (by decide +kernel)
  have delivers : Delivers offline.zip "." "http://h/a.zip" sampleCatalogue handwrittenTree :=
    delivers_sample (by decide +kernel) (by decide +kernel) rfl
  have visible : ∀ dir ∈ ["/gen/scripts", "/gen/tests"], ∃ shown, offline.glob.Shows dir shown := by
    intro dir member
    refine ⟨dir, Glob.shows_inDirectory ?_ ?_⟩
    · rintro rfl
      exact absurd member (by decide)
    · revert dir
      decide +kernel
  exact ⟨_, Zip.lawful_reader, Glob.lawful_inDirectory, delivers, run,
    sync_installs_catalogue Zip.lawful_reader Glob.lawful_inDirectory delivers (by decide) visible run⟩

/-- When the work directory is the bundle itself, the catalogue is copied onto itself and lost, and
nothing is generated. -/
theorem catalogue_lost_in_bundle :
    ¬∀ [User] (world : World) (root workDir url text : String) (skipLines : Nat) (t v : FileTree),
      world.zip.Lawful → world.glob.Lawful → Delivers world.zip root url text t →
        (sync world (.ofRoot root workDir) url skipLines).run t = (.ok (), v) →
          HoldsCatalogue root workDir skipLines text v := by
  intro holds
  let _ : User := Bundle.homeUser
  let v := ((sync offline (.ofRoot "." "WBT") "http://h/a.zip" 0).run handwrittenTree).2
  have lost : ((sync offline (.ofRoot "." "WBT") "http://h/a.zip" 0).run handwrittenTree).1 = .ok () ∧
      (v.read? "./WBT/whitebox_tools.py").bind Text.decode? = some "" := by decide +kernel
  have kept := (holds offline "." "WBT" "http://h/a.zip" sampleCatalogue 0 handwrittenTree v
    Zip.lawful_reader Glob.lawful_inDirectory
    (delivers_sample (by decide +kernel) (by decide +kernel) rfl) (run_eq_ok lost.1)).catalogue
  exact absurd (kept.symm.trans lost.2) (by decide)

/-! ### Where installed files come from -/

section

variable [User]

/-- An installed file is a generated one, or, where none of its name is generated, the copy of an R file
that lay in the source directory before. -/
def SourcedFrom (files : List GeneratedFile) (source target : String) (t v : FileTree)
    (path : String) : Prop :=
  ∃ name bytes, path = join target name ∧ v.read? path = some bytes ∧
    ((∃ contents, contents? files name = some contents ∧ bytes = contents.toUTF8) ∨
      contents? files name = none ∧ ∃ mode, t.get? (placeOf source ++ [name]) = some (.file mode bytes))

/-- What has been installed in a package, by the paths that it has been written to: all of it is sourced,
and elsewhere in the package nothing has changed but for new directories. -/
structure InstalledFrom (root : String) (g : Generated) (scripts stubs : List String)
    (t v : FileTree) : Prop where
  functions : ∀ path ∈ scripts, SourcedFrom g.scripts (PackageLayout.standard root).scriptsDir
    (PackageLayout.standard root).packageFunctionsDir t v path
  tests : ∀ path ∈ stubs, SourcedFrom g.tests (PackageLayout.standard root).testsDir
    (PackageLayout.standard root).packageTestsDir t v path
  elsewhere : ∀ place, Covers (PackageLayout.standard root).packageFunctionsDir place ∨
      Covers (PackageLayout.standard root).packageTestsDir place →
    (∀ path ∈ scripts ++ stubs, placeOf path ≠ place) →
      v.get? place = t.get? place ∨ t.get? place = none ∧ v.get? place = some .directory

/-- What is copied from a directory is sourced, if what has been written there is, and what else is there
was there before. -/
theorem sourced_of_copyRFiles {files : List GeneratedFile} {source target path : String}
    {paths : List String} {w : FileTree} {glob : Glob} (lawful : glob.Lawful) (filled : source ≠ "")
    (h : u.WellFormed) (apart : placeOf source ≠ placeOf target)
    (run : (copyRFiles glob source target).run u = (.ok paths, w)) (member : path ∈ paths)
    (written : ∀ name contents, contents? files name = some contents →
      ∃ mode, u.Stored (join source name) (placeOf source ++ [name]) mode contents.toUTF8)
    (leftover : ∀ name mode bytes, contents? files name = none →
      u.get? (placeOf source ++ [name]) = some (.file mode bytes) →
        t.get? (placeOf source ++ [name]) = some (.file mode bytes))
    (kept : ∀ name mode bytes, w.Stored path (placeOf target ++ [name]) mode bytes →
      v.Stored path (placeOf target ++ [name]) mode bytes) :
    SourcedFrom files source target t v path := by
  obtain ⟨name, mode, bytes, rfl, there, arrived⟩ :=
    exists_source_of_copyRFiles lawful filled h apart run member
  refine ⟨name, bytes, rfl, (kept name mode bytes arrived).read?, ?_⟩
  cases found : contents? files name with
  | some contents =>
      left
      obtain ⟨_, stored⟩ := written name contents found
      have same := there.symm.trans stored.file
      exact ⟨contents, rfl, (Node.file.inj (Option.some.inj same)).2⟩
  | none => exact .inr ⟨rfl, mode, leftover name mode bytes found there⟩

end

theorem contents?_eq_none {files : List GeneratedFile} (h : contents? files name = none) :
    name ∉ files.map (·.name) := by
  intro member
  obtain ⟨file, inside, rfl⟩ := List.mem_map.mp member
  obtain ⟨contents, last⟩ := contents?_of_mem inside
  rw [h] at last
  cases last

section

variable [User]

/-- The standard work directory is apart from the bundle. -/
theorem not_covers_work (root : String) (rest : Place) :
    ¬Covers (PackageLayout.standard root).bundleDir (placeOf (PackageLayout.standard root).work ++ rest) := by
  intro within
  change placeOf (join root "WBT") <+: _ at within
  rw [placeOf_bundle, placeOf_work, List.append_assoc, List.prefix_append_right_inj] at within
  simp [standardWorkDir] at within

theorem bundleDir_ne_work (root : String) :
    placeOf (PackageLayout.standard root).bundleDir ≠ placeOf (PackageLayout.standard root).work := by
  intro same
  apply not_covers_work root []
  rw [List.append_nil, ← same]
  exact List.prefix_rfl

namespace Course

variable (c : Course world (.standard root) ((PackageLayout.standard root).archive name) skipLines t v)
  (decodes : world.zip.Lawful) (finds : world.glob.Lawful) (ready : Ready world.zip root name bytes t)

include decodes finds ready

theorem sourced_functions {path : String} (member : path ∈ c.functions) :
    SourcedFrom c.output.scripts (PackageLayout.standard root).scriptsDir
      (PackageLayout.standard root).packageFunctionsDir t v path := by
  refine sourced_of_copyRFiles finds (scriptsDir_ne_empty _) (c.wellFormed_generated ready)
    (placeOf_scriptsDir_ne _) c.installsFunctions member (fun name contents last => ?_)
    (fun name mode bytes missing there => ?_) fun name mode bytes arrived => ?_
  · obtain ⟨mode, scripted, _⟩ := c.wroteScripts.stored name contents last
    exact ⟨mode, c.addsStubs.stored scripted (not_rFilesIn_of_last (by simp [placeOf_scriptsDir]))⟩
  · rw [placeOf_scriptsDir] at there ⊢
    rw [c.addsStubs.confined.file_iff (not_rFilesIn_of_last (by simp)), c.wroteScripts.confined.file_iff,
      c.delivered_file_iff decodes ready] at there
    · exact there
    · rw [List.append_assoc]
      exact not_covers_work root _
    · simp
    · rintro ⟨other, listed, same⟩
      rw [placeOf_scriptsDir] at same
      obtain rfl := List.singleton_inj.mp (List.append_cancel_left same)
      exact contents?_eq_none missing listed
  · exact (c.addsPackageTests finds ready).stored arrived
      (not_rFilesIn_of_last (by simp [placeOf_packageFunctionsDir]))

theorem sourced_tests {path : String} (member : path ∈ c.tests) :
    SourcedFrom c.output.tests (PackageLayout.standard root).testsDir
      (PackageLayout.standard root).packageTestsDir t v path := by
  refine sourced_of_copyRFiles finds (testsDir_ne_empty _) (c.wellFormed_equipped finds ready)
    (placeOf_testsDir_ne _) c.installsTests member (fun name contents last => ?_)
    (fun name mode bytes missing there => ?_) fun name mode bytes arrived => arrived
  · obtain ⟨mode, generated, _⟩ := c.wroteTests.stored name contents last
    exact ⟨mode, (c.addsFunctions finds ready).stored generated
      (not_rFilesIn_of_last (by simp [placeOf_testsDir]))⟩
  · rw [placeOf_testsDir] at there ⊢
    rw [(c.addsFunctions finds ready).confined.file_iff (not_rFilesIn_of_last (by simp)),
      c.wroteTests.confined.file_iff, c.addsScripts.confined.file_iff (not_rFilesIn_of_last (by simp)),
      c.delivered_file_iff decodes ready] at there
    · exact there
    · rw [List.append_assoc]
      exact not_covers_work root _
    · simp
    · rintro ⟨other, listed, same⟩
      rw [placeOf_testsDir] at same
      obtain rfl := List.singleton_inj.mp (List.append_cancel_left same)
      exact contents?_eq_none missing listed

omit decodes

/-- The install step changes nothing but what it writes to, apart from new directories. -/
theorem confined_install :
    Confined (fun place => ∃ path ∈ c.functions ++ c.tests, placeOf path = place) (fun _ => True)
      c.generated v := by
  have first := confined_of_copyRFiles finds (scriptsDir_ne_empty _) (c.wellFormed_generated ready)
    c.installsFunctions
  have second := confined_of_copyRFiles finds (testsDir_ne_empty _) (c.wellFormed_equipped finds ready)
    c.installsTests
  apply trans_of _ (first.mono ?_ fun _ _ => trivial) (second.mono ?_ fun _ _ => trivial)
  · rintro place ⟨path, member, lies⟩
    exact ⟨path, List.mem_append_left _ member, lies⟩
  · rintro place ⟨path, member, lies⟩
    exact ⟨path, List.mem_append_right _ member, lies⟩

end Course

/-- The install step of an update that succeeds writes to these paths. -/
def Installs (world : World) (root url : String) (skipLines : Nat) (t : FileTree)
    (scripts stubs : List String) (v : FileTree) : Prop :=
  ∃ u w, (prepare world (.standard root) url skipLines).run t = (.ok (), u) ∧
    (copyRFiles world.glob (PackageLayout.standard root).scriptsDir
      (PackageLayout.standard root).packageFunctionsDir).run u = (.ok scripts, w) ∧
    (copyRFiles world.glob (PackageLayout.standard root).testsDir
      (PackageLayout.standard root).packageTestsDir).run w = (.ok stubs, v)

/-- Bringing a package up to date installs the scripts and the tests of its catalogue, and what had been
left under other names in their directories before. -/
theorem sync_installs_from_sources (decodes : world.zip.Lawful) (finds : world.glob.Lawful)
    (h : Downloaded world.zip root url t)
    (run : (sync world (.standard root) url skipLines).run t = (.ok (), v)) :
    ∃ text c scripts stubs, Delivers world.zip root url text t ∧
      Catalogue.read (settings skipLines) text = .ok c ∧
      Installs world root url skipLines t scripts stubs v ∧
      InstalledFrom root (.ofCatalogue (settings skipLines) c) scripts stubs t v := by
  obtain ⟨name, bytes, named, cached, bundled⟩ := h.archived
  have ready : Ready world.zip root name bytes t :=
    ⟨h.wellFormed, not_slash_of_archiveName named, cached, bundled⟩
  obtain ⟨c, prepared⟩ := exists_course (l := .standard root) named cached run
  obtain ⟨mode, held, laid, decoded⟩ := c.delivered_text decodes ready (bundleDir_ne_work root)
  refine ⟨c.text, c.catalogue, c.functions, c.tests,
    ⟨h.wellFormed, name, bytes, mode, held, named, cached, bundled, laid, decoded⟩, c.accepts,
    ⟨c.generated, c.equipped, prepared, c.installsFunctions, c.installsTests⟩,
    fun path => c.sourced_functions decodes finds ready, fun path => c.sourced_tests decodes finds ready, ?_⟩
  intro place covered unwritten
  have untouched : c.generated.get? place = t.get? place := by
    rcases covered with ⟨rest, rfl⟩ | ⟨rest, rfl⟩
    · rw [placeOf_packageFunctionsDir, List.append_assoc]
      exact untouched_by_prepare h prepared "R" rest (by decide)
    · rw [placeOf_packageTestsDir, List.append_assoc]
      exact untouched_by_prepare h prepared "tests" ("testthat" :: rest) (by decide)
  rw [← untouched]
  refine ((c.confined_install finds ready).elsewhere place ?_).imp_right fun made => made.2
  rintro ⟨path, member, reached⟩
  exact unwritten path member reached

/-- A package with the sample archive and a test that an earlier catalogue has left behind. -/
def leftoverTree : FileTree :=
  ⟨[(["home"], .directory), (["home", "a.zip"], .file 0o644 catalogueArchive),
    (["home", "PY2R"], .directory), (["home", "PY2R", "tests"], .directory),
    (["home", "PY2R", "tests", "test-old.R"], .file 0o644 "stale".toUTF8)]⟩

end

theorem delivers_leftover :
    letI := Bundle.homeUser
    Delivers offline.zip "../home" "http://h/a.zip" sampleCatalogue leftoverTree := by
  let _ : User := Bundle.homeUser
  exact delivers_sample (by decide +kernel) (by decide +kernel) rfl

theorem exists_installs_leftover :
    letI := Bundle.homeUser
    ∃ v, (sync offline (.standard "../home") "http://h/a.zip" 0).run leftoverTree = (.ok (), v) ∧
      Installs offline "../home" "http://h/a.zip" 0 leftoverTree ["../home/R/data_tools.R"]
        ["../home/tests/testthat/test-old.R"] v := by
  let _ : User := Bundle.homeUser
  let u := ((prepare offline (.standard "../home") "http://h/a.zip" 0).run leftoverTree).2
  let w := ((copyRFiles offline.glob "../home/PY2R/scripts" "../home/R").run u).2
  have stages : ((prepare offline (.standard "../home") "http://h/a.zip" 0).run leftoverTree).1 = .ok () ∧
      ((copyRFiles offline.glob "../home/PY2R/scripts" "../home/R").run u).1 =
        .ok ["../home/R/data_tools.R"] ∧
      ((copyRFiles offline.glob "../home/PY2R/tests" "../home/tests/testthat").run w).1 =
        .ok ["../home/tests/testthat/test-old.R"] := by decide +kernel
  have prepared := run_eq_ok stages.1
  have first := run_eq_ok stages.2.1
  have second := run_eq_ok stages.2.2
  refine ⟨_, ?_, u, w, prepared, first, second⟩
  rw [sync_eq, run_bind_of_ok prepared, install]
  exact (run_bind_of_ok first _).trans (run_bind_of_ok second _)

theorem sync_installs_from_sources_leftover :
    letI := Bundle.homeUser
    ∃ v, offline.zip.Lawful ∧ offline.glob.Lawful ∧
      Downloaded offline.zip "../home" "http://h/a.zip" leftoverTree ∧
      (sync offline (.standard "../home") "http://h/a.zip" 0).run leftoverTree = (.ok (), v) ∧
      ∃ text c scripts stubs, Delivers offline.zip "../home" "http://h/a.zip" text leftoverTree ∧
        Catalogue.read (settings 0) text = .ok c ∧
        Installs offline "../home" "http://h/a.zip" 0 leftoverTree scripts stubs v ∧
        InstalledFrom "../home" (.ofCatalogue (settings 0) c) scripts stubs leftoverTree v := by
  let _ : User := Bundle.homeUser
  obtain ⟨v, run, _⟩ := exists_installs_leftover
  exact ⟨v, Zip.lawful_reader, Glob.lawful_inDirectory, delivers_leftover.downloaded, run,
    sync_installs_from_sources Zip.lawful_reader Glob.lawful_inDirectory delivers_leftover.downloaded run⟩

/-- A test that the catalogue of this run does not generate is installed. -/
theorem leftover_test_installed :
    ¬∀ [User] (world : World) (root url text : String) (skipLines : Nat) (t v : FileTree) (c : Catalogue)
        (scripts stubs : List String),
      world.zip.Lawful → world.glob.Lawful → Delivers world.zip root url text t →
        (sync world (.standard root) url skipLines).run t = (.ok (), v) →
          Catalogue.read (settings skipLines) text = .ok c →
            Installs world root url skipLines t scripts stubs v →
              (∀ path ∈ scripts, ∃ file ∈ (Generated.ofCatalogue (settings skipLines) c).scripts,
                path = join (PackageLayout.standard root).packageFunctionsDir file.name ∧
                  v.read? path = some file.contents.toUTF8) ∧
              ∀ path ∈ stubs, ∃ file ∈ (Generated.ofCatalogue (settings skipLines) c).tests,
                path = join (PackageLayout.standard root).packageTestsDir file.name ∧
                  v.read? path = some file.contents.toUTF8 := by
  intro fresh
  let _ : User := Bundle.homeUser
  obtain ⟨v, run, installs⟩ := exists_installs_leftover
  have tested : (Catalogue.read (settings 0) sampleCatalogue).map
      (fun c => (Generated.ofCatalogue (settings 0) c).tests) = .ok [] := by decide +kernel
  cases read : Catalogue.read (settings 0) sampleCatalogue with
  | error e =>
      rw [read] at tested
      cases tested
  | ok c =>
      rw [read] at tested
      have none : (Generated.ofCatalogue (settings 0) c).tests = [] := Except.ok.inj tested
      obtain ⟨file, member, _⟩ := (fresh offline "../home" "http://h/a.zip" sampleCatalogue 0 leftoverTree v
        c _ _ Zip.lawful_reader Glob.lawful_inDirectory delivers_leftover run read installs).2 _
        (List.mem_singleton_self _)
      rw [none] at member
      cases member

end Workflow

end ToolWrappers
