import ToolWrappers.Proofs.InstalledFiles
import ToolWrappers.Proofs.PackageTree
import ToolWrappers.Proofs.Replay

/-! The course of an update that succeeds: the trees between its stages, and what each stage leaves to
the next one. -/

namespace ToolWrappers

open ToolWrappers.Action ToolWrappers.FileTree ToolWrappers.Path

namespace Install

variable {source target shown dir path : String} {t u v : FileTree} {place : Place} {name : String}
  {files : List GeneratedFile} {paths : List String} {dirs more : List Place} {mode : Nat}
  {bytes : ByteArray} {glob : Glob}

/-! ### Changes by R files only -/

/-- The places of R files directly in some directories. -/
def RFilesIn (dirs : List Place) (place : Place) : Prop :=
  ∃ dir ∈ dirs, ∃ name, IsRFileName name ∧ place = dir ++ [name]

/-- Between two trees, nothing differs but R files directly in some directories and new directories. -/
structure AddsRFiles (dirs : List Place) (t u : FileTree) : Prop where
  kept : KeepsDirectories t u
  confined : Confined (RFilesIn dirs) (fun _ => True) t u

theorem AddsRFiles.trans (first : AddsRFiles dirs t u) (second : AddsRFiles more u v) :
    AddsRFiles (dirs ++ more) t v := by
  refine ⟨trans_of _ first.kept second.kept, trans_of _ (first.confined.mono ?_ fun _ => id)
    (second.confined.mono ?_ fun _ => id)⟩
  · rintro place ⟨dir, member, named⟩
    exact ⟨dir, List.mem_append_left more member, named⟩
  · rintro place ⟨dir, member, named⟩
    exact ⟨dir, List.mem_append_right dirs member, named⟩

theorem not_rFilesIn_of_last {last : String} (other : ∀ dir ∈ dirs, dir ≠ place) :
    ¬RFilesIn dirs (place ++ [last]) := by
  rintro ⟨dir, member, name, _, same⟩
  exact other dir member (List.append_inj' same rfl).1.symm

/-- The catalogue is no R file. -/
theorem not_rFilesIn_catalogueFile : ¬RFilesIn dirs (place ++ [catalogueFile]) := by
  rintro ⟨dir, _, name, ⟨_, stem, ending⟩, same⟩
  have last := congrArg (·.toList.getLast?) ((List.singleton_inj.mp (List.append_inj' same rfl).2).trans ending)
  rw [String.toList_append] at last
  simp [catalogueFile] at last

/-- Everything that is generated is an R file. -/
theorem isRFileName_of_mem_generated {skipLines : Nat} {text : String} {c : Catalogue}
    (h : Catalogue.read (Workflow.settings skipLines) text = .ok c) :
    (∀ file ∈ (Generated.ofCatalogue (Workflow.settings skipLines) c).scripts, IsRFileName file.name) ∧
      ∀ file ∈ (Generated.ofCatalogue (Workflow.settings skipLines) c).tests, IsRFileName file.name := by
  obtain ⟨scripts, tests⟩ := isOrdinary_of_mem_generated h
  constructor
  · intro file member
    refine ⟨scripts file member, ?_⟩
    obtain ⟨s, inside, rfl⟩ := List.mem_map.mp member
    obtain ⟨toolbox, listed, named⟩ := fileName_mem_toolboxes h inside
    have all : ∀ toolbox ∈ standardToolboxes, Text.endsWith ".R".toList toolbox.fileName.toList = true := by
      decide
    obtain ⟨stem, shape⟩ := Option.isSome_iff_exists.mp (all toolbox listed)
    refine ⟨.ofList stem, ?_⟩
    change s.fileName = _
    rw [named, ← String.toList_inj]
    simpa using Text.stripSuffix?_eq_some_iff.mp shape
  · intro file member
    refine ⟨tests file member, ?_⟩
    obtain ⟨t, _, rfl⟩ := List.mem_map.mp member
    exact ⟨_, rfl⟩

section

variable [User]

theorem AddsRFiles.stored (h : AddsRFiles dirs t u) (stored : t.Stored path place mode bytes)
    (outside : ¬RFilesIn dirs place) : u.Stored path place mode bytes :=
  stored.of_confined h.kept h.confined outside

theorem Wrote.addsRFiles (h : Wrote dir files t u) (named : ∀ file ∈ files, IsRFileName file.name) :
    AddsRFiles [placeOf dir] t u := by
  refine ⟨h.kept, h.confined.mono ?_ fun _ _ => trivial⟩
  rintro place ⟨name, member, rfl⟩
  obtain ⟨file, inside, rfl⟩ := List.mem_map.mp member
  exact ⟨_, List.mem_singleton_self _, file.name, named file inside, rfl⟩

/-! ### What is installed from a directory -/

/-- The R files of a directory have been copied to another one, or none of them, since the directory is
not shown. -/
theorem addsRFiles_of_copyRFiles (lawful : glob.Lawful) (filled : source ≠ "") (h : t.WellFormed)
    (run : (copyRFiles glob source target).run t = (.ok paths, u)) : AddsRFiles [placeOf target] t u := by
  rcases copied_of_copyRFiles lawful filled h run with
    ⟨_, _, rfl⟩ | ⟨shown, names, _, listed, copied, _⟩
  · exact ⟨refl_of _ _, refl_of _ _⟩
  · refine ⟨copied.kept, copied.confined.mono ?_ fun _ _ => trivial⟩
    rintro place ⟨name, member, rfl⟩
    exact ⟨_, List.mem_singleton_self _, name, (listed.exists_file member).1, rfl⟩

/-- Nothing differs but at the paths that have been written to, apart from new directories on the way. -/
theorem confined_of_copyRFiles (lawful : glob.Lawful) (filled : source ≠ "") (h : t.WellFormed)
    (run : (copyRFiles glob source target).run t = (.ok paths, u)) :
    Confined (fun place => ∃ path ∈ paths, placeOf path = place) (LeadsThrough target) t u := by
  rcases copied_of_copyRFiles lawful filled h run with
    ⟨_, _, rfl⟩ | ⟨shown, names, _, listed, copied, rfl⟩
  · exact refl_of _ _
  · refine copied.confined.mono ?_ fun _ => And.right
    rintro place ⟨name, member, rfl⟩
    exact ⟨join target name, List.mem_map_of_mem member,
      placeOf_join_of_isOrdinary (listed.exists_file member).1.ordinary⟩

/-- A stored R file of a directory is found under the spelling that shows the directory. -/
theorem isFile_of_shows (shows : glob.Shows source shown) (ordinary : IsOrdinary name)
    (stored : t.Stored (join source name) place mode bytes) : t.isFile (join shown name) = true := by
  have usable := (find_eq_ok_iff.mp stored.find).1
  have found : t.find (join shown name) = .ok place := by
    rw [shows.way.find_join ordinary (shows.usable name ordinary usable) usable, stored.find]
  exact isFile_iff.mpr ⟨bytes, read?_of_find found stored.file⟩

/-- A file in the source directory is installed under its name. -/
theorem stored_of_copyRFiles (shows : glob.Shows source shown) (h : t.WellFormed)
    (apart : placeOf source ≠ placeOf target)
    (run : (copyRFiles glob source target).run t = (.ok paths, u)) (named : IsRFileName name)
    (stored : t.Stored (join source name) (placeOf source ++ [name]) mode bytes) :
    u.Stored (join target name) (placeOf target ++ [name]) mode bytes := by
  obtain ⟨names, listed, copied, _⟩ := copied_of_shows shows h run
  have member := (listed.mem_iff name).mpr ⟨named, isFile_of_shows shows named.ordinary stored⟩
  rw [← shows.way.placeOf] at apart stored
  obtain ⟨_, _, there, _, _, _, arrived⟩ := copied.stored_of_apart apart member
  rw [stored.file] at there
  cases there
  exact arrived

/-- Whatever is installed is the copy of an R file in the source directory. -/
theorem exists_source_of_copyRFiles (lawful : glob.Lawful) (filled : source ≠ "") (h : t.WellFormed)
    (apart : placeOf source ≠ placeOf target)
    (run : (copyRFiles glob source target).run t = (.ok paths, u)) (member : path ∈ paths) :
    ∃ name mode bytes, path = join target name ∧
      t.get? (placeOf source ++ [name]) = some (.file mode bytes) ∧
      u.Stored path (placeOf target ++ [name]) mode bytes := by
  rcases copied_of_copyRFiles lawful filled h run with ⟨_, rfl, _⟩ | ⟨shown, names, shows, _, copied, rfl⟩
  · cases member
  · obtain ⟨name, listed, rfl⟩ := List.mem_map.mp member
    rw [← shows.way.placeOf] at apart ⊢
    obtain ⟨mode, bytes, there, _, _, _, arrived⟩ := copied.stored_of_apart apart listed
    exact ⟨name, mode, bytes, rfl, there, arrived⟩

end

end Install

namespace Workflow

open ToolWrappers.Install

variable {world : World} {l : PackageLayout} {root url name archive : String} {skipLines : Nat}
  {t u v : FileTree} {place : Place} {bytes : ByteArray}

section

variable [User]

/-! ### The trees between the stages -/

/-- The course of an update that succeeds: what it reads, the trees that its stages leave, and the paths
of what it installs. -/
structure Course (world : World) (l : PackageLayout) (archive : String) (skipLines : Nat)
    (t v : FileTree) where
  unpacked : FileTree
  housed : FileTree
  delivered : FileTree
  scripted : FileTree
  generated : FileTree
  equipped : FileTree
  text : String
  catalogue : Catalogue
  functions : List String
  tests : List String
  unpack : (Bundle.unpack world.zip archive l.root l.bundleDir).run t = (.ok (), unpacked)
  house : (makeDirs l.work).run unpacked = (.ok (), housed)
  deliver : (copyFile l.bundledCatalogue l.catalogue).run housed = (.ok (), delivered)
  reads : ∃ place mode bytes, delivered.find l.catalogue = .ok place ∧
    delivered.get? place = some (.file mode bytes) ∧ mayRead mode = true ∧
    Text.decode? bytes = some text
  accepts : Catalogue.read (settings skipLines) text = .ok catalogue
  writesScripts : ∃ paths, (writeFiles l.scriptsDir
    (Generated.ofCatalogue (settings skipLines) catalogue).scripts).run delivered = (.ok paths, scripted)
  writesTests : ∃ paths, (writeFiles l.testsDir
    (Generated.ofCatalogue (settings skipLines) catalogue).tests).run scripted = (.ok paths, generated)
  installsFunctions :
    (copyRFiles world.glob l.scriptsDir l.packageFunctionsDir).run generated = (.ok functions, equipped)
  installsTests : (copyRFiles world.glob l.testsDir l.packageTestsDir).run equipped = (.ok tests, v)

/-- An update that finds its archive and succeeds has a course, and what it has generated is what there is
before the install step. -/
theorem exists_course (named : Bundle.archiveName url = .ok name)
    (cached : t.read? (l.archive name) = some bytes)
    (run : (sync world l url skipLines).run t = (.ok (), v)) :
    ∃ c : Course world l (l.archive name) skipLines t v,
      (prepare world l url skipLines).run t = (.ok (), c.generated) := by
  rw [sync_eq] at run
  obtain ⟨_, g, prepared, installed⟩ := run_bind_eq_ok run
  have stages := prepared
  rw [prepare, fetchCatalogue, named] at stages
  obtain ⟨_, d, fetched, stages⟩ := run_bind_eq_ok stages
  obtain ⟨_, _, skipped, fetched⟩ := run_bind_eq_ok (show (Bundle.ensureArchive (world.fetch url) url
    (l.archive name) >>= _).run t = (.ok (), d) from fetched)
  rw [skips_ensureArchive cached] at skipped
  cases skipped
  obtain ⟨_, a, unpacked, fetched⟩ := run_bind_eq_ok fetched
  obtain ⟨_, b, housed, delivered⟩ := run_bind_eq_ok fetched
  obtain ⟨_, _, generated, done⟩ := run_bind_eq_ok stages
  cases done
  rw [generate] at generated
  obtain ⟨c, _, read, written⟩ := run_bind_eq_ok generated
  obtain ⟨rfl, place, mode, bytes, text, found, there, readable, decoded, accepted⟩ :=
    readCatalogue_eq_ok read
  rw [writeGenerated] at written
  obtain ⟨scripts, f, wrote, written⟩ := run_bind_eq_ok written
  obtain ⟨stubs, _, written, done⟩ := run_bind_eq_ok written
  cases done
  obtain ⟨functions, e, first, installed⟩ := run_bind_eq_ok installed
  obtain ⟨tests, _, second, done⟩ := run_bind_eq_ok installed
  cases done
  exact ⟨⟨a, b, _, f, g, e, text, c, functions, tests, unpacked, run_orFail_eq_ok.mp housed,
    run_orFail_eq_ok.mp delivered, ⟨place, mode, bytes, found, there, readable, decoded⟩, accepted,
    ⟨scripts, wrote⟩, ⟨stubs, written⟩, first, second⟩, prepared⟩

/-- A package that has been made ready: a well-formed tree with an archive at the root that holds
nothing but the bundle. -/
structure Ready (lib : Zip.Library) (root name : String) (bytes : ByteArray) (t : FileTree) : Prop where
  wellFormed : t.WellFormed
  single : '/' ∉ name.toList
  cached : t.read? (join root name) = some bytes
  bundled : BundleOnly lib bytes

namespace Course

/-- What the stages generate. -/
def output (c : Course world l archive skipLines t v) : Generated :=
  .ofCatalogue (settings skipLines) c.catalogue

theorem pathFault?_bundle (c : Course world l archive skipLines t v) : pathFault? l.bundleDir = none := by
  obtain ⟨_, _, _, _, copying, _⟩ := stored_of_copyFile c.deliver
  exact pathFault?_of_join (by decide) (join_ne_empty (by decide)) (find_eq_ok_iff.mp copying.found).1

variable (c : Course world l (l.archive name) skipLines t v)

/-- The bundle has been unpacked from the archive alone. -/
theorem isUnpacked (ready : Ready world.zip l.root name bytes t) :
    Bundle.Unpacked world.zip (l.archive name) l.root bytes t c.unpacked :=
  .of_archived ready.wellFormed c.pathFault?_bundle ready.single ready.cached c.unpack

/-! ### What the stages leave -/

theorem confined_unpacked (ready : Ready world.zip l.root name bytes t) :
    Confined (Covers l.bundleDir)
      (fun place => LeadsThrough l.root place ∨ Covers l.bundleDir place) t c.unpacked := by
  have within : Confined _ _ t ((Bundle.unpack world.zip (l.archive name) l.root l.bundleDir).run t).2 :=
    confined_unpack_bundle ready.cached ready.bundled
  rwa [c.unpack] at within

theorem confined_house :
    Confined (fun _ => False) (LeadsThrough l.work) c.unpacked c.housed := by
  have within : Confined (fun _ => False) (LeadsThrough l.work) c.unpacked
      ((makeDirs l.work).run c.unpacked).2 := confined_makeDirs (fun _ => id) _
  rwa [c.house] at within

/-- The catalogue of the bundle is a file of the archive that may be read. It arrives in the work directory
with its mode, and with its bytes unless the work directory is the bundle itself. -/
theorem delivers (lawful : world.zip.Lawful) (ready : Ready world.zip l.root name bytes t) :
    ∃ mode held, mayRead mode = true ∧
      Zip.laidOut (Zip.entries world.zip bytes) ["WBT", catalogueFile] = some (.file mode held) ∧
      c.housed.find l.bundledCatalogue = .ok (placeOf l.root ++ ["WBT", catalogueFile]) ∧
      c.housed.get? (placeOf l.root ++ ["WBT", catalogueFile]) = some (.file mode held) ∧
      c.delivered = c.housed.put (placeOf l.work ++ [catalogueFile])
        (.file mode (if placeOf l.bundleDir = placeOf l.work then .empty else held)) ∧
      KeepsDirectories c.housed c.delivered ∧
      c.delivered.Stored l.catalogue (placeOf l.work ++ [catalogueFile]) mode
        (if placeOf l.bundleDir = placeOf l.work then .empty else held) := by
  obtain ⟨origin, target, mode, held, copying, put, kept, stored⟩ := stored_of_copyFile c.deliver
  obtain rfl : placeOf l.root ++ ["WBT", catalogueFile] = origin :=
    (placeOf_bundledCatalogue l).symm.trans (placeOf_of_find copying.found)
  obtain rfl : placeOf l.work ++ [catalogueFile] = target :=
    (placeOf_catalogue l).symm.trans stored.placeOf
  have same : placeOf l.root ++ ["WBT", catalogueFile] = placeOf l.work ++ [catalogueFile] ↔
      placeOf l.bundleDir = placeOf l.work := by
    rw [PackageLayout.bundleDir, placeOf_bundle, List.append_cons]
    exact List.append_left_inj _
  simp only [same] at put stored
  refine ⟨mode, held, copying.readable, ?_, copying.found, copying.file, put, kept, stored⟩
  have laid := (c.isUnpacked ready).get?_bundle lawful [catalogueFile]
  rw [placeOf_bundle, List.append_assoc, List.singleton_append] at laid
  rcases c.confined_house.elsewhere _ id with unchanged | ⟨_, _, directory⟩
  · exact (laid.symm.trans unchanged.symm).trans copying.file
  · rw [copying.file] at directory
    cases directory

theorem wellFormed_delivered (ready : Ready world.zip l.root name bytes t) : c.delivered.WellFormed := by
  have housed := c.confined_house.wellFormed ((c.confined_unpacked ready).wellFormed ready.wellFormed)
  obtain ⟨_, place, _, _, copying, put, _, _⟩ := stored_of_copyFile c.deliver
  obtain ⟨vacant, free⟩ := vacancy_of_fileSpot copying.spotted
  rw [put]
  exact housed.put_of_vacancy vacant (by simpa using free)

/-- Up to the delivery of the catalogue, the files outside the bundle are those that were there before. -/
theorem delivered_file_iff (lawful : world.zip.Lawful) (ready : Ready world.zip l.root name bytes t)
    (outside : ¬Covers l.bundleDir place) (other : place ≠ placeOf l.work ++ [catalogueFile]) {mode : Nat}
    {held : ByteArray} :
    c.delivered.get? place = some (.file mode held) ↔ t.get? place = some (.file mode held) := by
  obtain ⟨_, _, _, _, _, _, put, _, _⟩ := c.delivers lawful ready
  rw [put, get?_put_of_ne other, c.confined_house.file_iff id,
    (c.confined_unpacked ready).file_iff outside]

theorem wroteScripts : Wrote l.scriptsDir c.output.scripts c.delivered c.scripted := by
  obtain ⟨_, run⟩ := c.writesScripts
  exact wrote_of_writeFiles (isOrdinary_of_mem_generated c.accepts).1 run

theorem wroteTests : Wrote l.testsDir c.output.tests c.scripted c.generated := by
  obtain ⟨_, run⟩ := c.writesTests
  exact wrote_of_writeFiles (isOrdinary_of_mem_generated c.accepts).2 run

theorem addsScripts : AddsRFiles [placeOf l.work ++ ["scripts"]] c.delivered c.scripted :=
  placeOf_scriptsDir l ▸ c.wroteScripts.addsRFiles (isRFileName_of_mem_generated c.accepts).1

theorem addsStubs : AddsRFiles [placeOf l.work ++ ["tests"]] c.scripted c.generated :=
  placeOf_testsDir l ▸ c.wroteTests.addsRFiles (isRFileName_of_mem_generated c.accepts).2

theorem wellFormed_generated (ready : Ready world.zip l.root name bytes t) : c.generated.WellFormed :=
  (c.addsScripts.trans c.addsStubs).confined.wellFormed (c.wellFormed_delivered ready)

variable (lawful : world.glob.Lawful) (ready : Ready world.zip l.root name bytes t)

include lawful ready

theorem addsFunctions : AddsRFiles [placeOf l.root ++ ["R"]] c.generated c.equipped :=
  placeOf_packageFunctionsDir l ▸ addsRFiles_of_copyRFiles lawful (scriptsDir_ne_empty l)
    (c.wellFormed_generated ready) c.installsFunctions

theorem wellFormed_equipped : c.equipped.WellFormed :=
  (c.addsFunctions lawful ready).confined.wellFormed (c.wellFormed_generated ready)

theorem addsPackageTests : AddsRFiles [placeOf l.root ++ ["tests", "testthat"]] c.equipped v :=
  placeOf_packageTestsDir l ▸ addsRFiles_of_copyRFiles lawful (testsDir_ne_empty l)
    (c.wellFormed_equipped lawful ready) c.installsTests

/-- What follows on what is generated. -/
theorem addsInstalled :
    AddsRFiles [placeOf l.root ++ ["R"], placeOf l.root ++ ["tests", "testthat"]] c.generated v :=
  (c.addsFunctions lawful ready).trans (c.addsPackageTests lawful ready)

/-- What follows on the scripts. -/
theorem addsAfterScripts : AddsRFiles [placeOf l.work ++ ["tests"], placeOf l.root ++ ["R"],
    placeOf l.root ++ ["tests", "testthat"]] c.scripted v :=
  c.addsStubs.trans (c.addsInstalled lawful ready)

/-- What follows on the delivery of the catalogue. -/
theorem addsAfterDelivery : AddsRFiles [placeOf l.work ++ ["scripts"], placeOf l.work ++ ["tests"],
    placeOf l.root ++ ["R"], placeOf l.root ++ ["tests", "testthat"]] c.delivered v :=
  c.addsScripts.trans (c.addsAfterScripts lawful ready)

end Course

end

end Workflow

end ToolWrappers
