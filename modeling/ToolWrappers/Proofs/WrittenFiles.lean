import ToolWrappers.Install
import ToolWrappers.Proofs.StoredFiles

/-! What writing generated files leaves behind, whatever they are called and wherever their directories
lie. A run has written the first files of its order, all of them if it succeeds; at every place the last
file that goes there counts, and nothing else differs but new directories. -/

namespace ToolWrappers.Install

open ToolWrappers.Action ToolWrappers.FileTree ToolWrappers.Path

/-- A generated file and the directory that it is written to. -/
structure Outgoing where
  dir : String
  file : GeneratedFile

def Outgoing.path (o : Outgoing) : String := join o.dir o.file.name

/-- Files on their way to one directory. -/
def outgoing (dir : String) (files : List GeneratedFile) : List Outgoing := files.map fun file => ⟨dir, file⟩

/-- The scripts, then the tests. -/
def inOrder (g : Generated) (scriptsDir testsDir : String) : List Outgoing :=
  outgoing scriptsDir g.scripts ++ outgoing testsDir g.tests

section

variable [User]

/-- The last of these files that goes to a place. -/
def lastAt? (os : List Outgoing) (place : Place) : Option GeneratedFile :=
  (os.filter fun o => placeOf o.path = place).getLast?.map (·.file)

/-- The places of the directories that files are written to, and of all directories that their paths lead
through. Unless its path leads back, a directory lies in all of these. -/
def Above (os : List Outgoing) (place : Place) : Prop :=
  ∃ o ∈ os, LeadsThrough o.dir place ∧
    ((∀ name ∈ names o.dir, name ≠ "..") → place <+: placeOf o.dir)

/-- Files have been written: each path leads to a file with the contents of the last one that goes to the
same place, under the mode of the file that was there before. Elsewhere nothing has changed, but for new
directories. -/
structure Written (made : Place → Prop) (os : List Outgoing) (t u : FileTree) : Prop where
  kept : KeepsDirectories t u
  stored : ∀ o ∈ os, ∃ file, lastAt? os (placeOf o.path) = some file ∧
    u.find o.path = .ok (placeOf o.path) ∧
    u.get? (placeOf o.path) =
      some (.file (writtenMode (t.get? (placeOf o.path))) file.contents.toUTF8)
  elsewhere : ∀ place, lastAt? os place = none → u.get? place = t.get? place ∨
    made place ∧ t.get? place = none ∧ u.get? place = some .directory

/-- How writing files ends of which some have been written: with the paths of all, or at the next one,
which could not be written or whose directory could not be made. -/
def Ends (done rest : List Outgoing) : Except Failure (List String) → Prop
  | .ok paths => rest = [] ∧ paths = done.map Outgoing.path
  | .error failure => ∃ next more, rest = next :: more ∧
      (failure = .creatingOutput next.dir ∨ failure = .writing next.path)

variable {os : List Outgoing} {o : Outgoing} {place : Place} {t u v : FileTree}
  {made : Place → Prop} {dir : String} {files : List GeneratedFile}

/-! ### One more file -/

theorem lastAt?_concat : lastAt? (os ++ [o]) place =
    if placeOf o.path = place then some o.file else lastAt? os place := by
  unfold lastAt?
  rw [List.filter_append]
  split
  · rename_i goes
    rw [List.filter_cons_of_pos (by simpa using goes), List.filter_nil, List.getLast?_concat,
      Option.map_some]
  · rename_i away
    rw [List.filter_cons_of_neg (by simpa using away), List.filter_nil, List.append_nil]

theorem exists_of_lastAt? {file : GeneratedFile} (last : lastAt? os place = some file) :
    ∃ o ∈ os, placeOf o.path = place := by
  obtain ⟨o, final, _⟩ := Option.map_eq_some_iff.mp last
  obtain ⟨member, goes⟩ := List.mem_filter.mp (List.mem_of_getLast? final)
  exact ⟨o, member, by simpa using goes⟩

/-- A file that is written where others were written before gets the mode that was there first. -/
theorem Written.writtenMode (h : Written made os t u) (free : u.isDirectoryAt place = false) :
    writtenMode (u.get? place) = writtenMode (t.get? place) := by
  cases last : lastAt? os place with
  | some file =>
      obtain ⟨o, member, rfl⟩ := exists_of_lastAt? last
      obtain ⟨_, _, _, there⟩ := h.stored o member
      rw [there]
      rfl
  | none =>
      rcases h.elsewhere place last with same | ⟨_, _, directory⟩
      · rw [same]
      · rw [isDirectoryAt_iff.mpr directory] at free
        cases free

theorem Written.write (h : Written made os t u)
    (run : (writeFile o.path o.file.contents.toUTF8).run u = (.ok (), v)) :
    Written made (os ++ [o]) t v := by
  obtain ⟨place, spotted, put, _, dirs, stored⟩ := stored_of_writeFile run
  have mode := h.writtenMode (vacancy_of_fileSpot spotted).2
  have here : v.get? place = some (.file (Action.writtenMode (t.get? place))
      o.file.contents.toUTF8) := by
    rw [stored.file, mode]
  have last : lastAt? (os ++ [o]) place = some o.file := by rw [lastAt?_concat, if_pos stored.placeOf]
  have beside {other : Place} (away : other ≠ place) :
      lastAt? (os ++ [o]) other = lastAt? os other ∧ v.get? other = u.get? other := by
    constructor
    · rw [lastAt?_concat, stored.placeOf, if_neg (Ne.symm away)]
    · rw [put, get?_put_of_ne away]
  refine ⟨trans_of _ h.kept dirs, ?_, ?_⟩
  · intro earlier member
    rcases List.mem_append.mp member with old | new
    · obtain ⟨file, counts, found, there⟩ := h.stored earlier old
      by_cases same : placeOf earlier.path = place
      · rw [same] at found ⊢
        exact ⟨o.file, last, find_kept found dirs (by simp [here]), here⟩
      · obtain ⟨counts', there'⟩ := beside same
        rw [← there'] at there
        exact ⟨file, counts'.trans counts, find_kept found dirs (by simp [there]), there⟩
    · rw [List.mem_singleton.mp new, stored.placeOf]
      exact ⟨o.file, last, stored.find, here⟩
  · intro other none
    have away : other ≠ place := by
      rintro rfl
      rw [last] at none
      cases none
    obtain ⟨counts, there⟩ := beside away
    rw [there]
    exact h.elsewhere other (counts.symm.trans none)

/-- Directories that are made take nothing from what was written. -/
theorem Written.makeDirs (h : Written made os t u)
    (new : ∀ place, LeadsThrough dir place → made place) :
    Written made os t ((makeDirs dir).run u).2 := by
  have dirs : KeepsDirectories u ((Action.makeDirs dir).run u).2 := keepsDirectories_makeDirs u
  have within : Confined (fun _ => False) made u ((Action.makeDirs dir).run u).2 :=
    confined_makeDirs new u
  refine ⟨trans_of _ h.kept dirs, ?_, ?_⟩
  · intro o member
    obtain ⟨file, counts, found, there⟩ := h.stored o member
    obtain ⟨found, there⟩ := within.file_kept found there
    exact ⟨file, counts, found, there⟩
  · intro place none
    rcases within.elsewhere place id with same | ⟨inside, absent, directory⟩
    · rw [same]
      exact h.elsewhere place none
    · rcases h.elsewhere place none with before | ⟨_, _, contrary⟩
      · exact .inr ⟨inside, before.symm.trans absent, directory⟩
      · rw [absent] at contrary
        cases contrary

/-! ### Whole runs -/

/-- Files that are written into a directory follow those that were written before. -/
theorem written_of_writeInto (h : Written made os t u) (dir : String) (files : List GeneratedFile) :
    ∃ done rest, outgoing dir files = done ++ rest ∧
      Written made (os ++ done) t ((writeInto dir files).run u).2 ∧
      Ends done rest ((writeInto dir files).run u).1 := by
  induction files generalizing os u with
  | nil => exact ⟨[], [], rfl, by rwa [List.append_nil], rfl, rfl⟩
  | cons file rest ih =>
      have first := run_writeFile (join dir file.name) file.contents.toUTF8 u
      cases spotted : u.writeSpot (join dir file.name) with
      | error fault =>
          rw [spotted] at first
          have stops : (writeInto dir (file :: rest)).run u =
              (.error (.writing (join dir file.name)), u) := by
            rw [writeInto, run_bind, run_orFail, first]
          rw [stops]
          exact ⟨[], outgoing dir (file :: rest), rfl, by rwa [List.append_nil], ⟨dir, file⟩,
            outgoing dir rest, rfl, .inr rfl⟩
      | ok place =>
          rw [spotted] at first
          have wrote : Written made (os ++ [⟨dir, file⟩]) t _ := h.write first
          obtain ⟨done, later, split, written, ends⟩ := ih wrote
          have goes : (writeInto dir (file :: rest)).run u = (do
              let more ← writeInto dir rest
              return join dir file.name :: more : Action Failure (List String)).run _ :=
            run_bind_of_ok (run_orFail_eq_ok.mpr first) _
          rw [List.append_assoc] at written
          refine ⟨⟨dir, file⟩ :: done, later, congrArg (List.cons _) split, ?_⟩
          rw [goes, run_bind]
          rcases result : (writeInto dir rest).run _ with ⟨failure | paths, w⟩
          · rw [result] at written ends
            exact ⟨written, ends⟩
          · rw [result] at written ends
            exact ⟨written, ends.1, congrArg (List.cons _) ends.2⟩

theorem written_of_writeFiles (h : Written made os t u) (dir : String) (files : List GeneratedFile)
    (new : ∀ o ∈ outgoing dir files, ∀ place, LeadsThrough o.dir place → made place) :
    ∃ done rest, outgoing dir files = done ++ rest ∧
      Written made (os ++ done) t ((writeFiles dir files).run u).2 ∧
      Ends done rest ((writeFiles dir files).run u).1 := by
  unfold writeFiles
  cases files with
  | nil => exact ⟨[], [], rfl, by rwa [List.append_nil], rfl, rfl⟩
  | cons file rest =>
      have dirs := h.makeDirs (new ⟨dir, file⟩ List.mem_cons_self)
      rw [List.isEmpty_cons, if_neg Bool.false_ne_true, run_bind, run_orFail]
      rcases made : (makeDirs dir).run u with ⟨fault | _, w⟩
      · rw [made] at dirs
        exact ⟨[], outgoing dir (file :: rest), rfl, by rwa [List.append_nil], ⟨dir, file⟩,
          outgoing dir rest, rfl, .inl rfl⟩
      · rw [made] at dirs
        exact written_of_writeInto dirs dir (file :: rest)

/-- Whatever the generated files are called and however their directories are spelled, a run writes the
first files of its order, all of them if it succeeds, and gives their paths. Each path then leads to a
file with the contents of the last one that was written to the same place, under the mode of the file
that was there; every other file is as it was. What else is new are directories that receive files, or
that lead to one of these. -/
theorem writing_follows_order (g : Generated) (scriptsDir testsDir : String) (t : FileTree) :
    let order := inOrder g scriptsDir testsDir
    ∃ done rest, order = done ++ rest ∧
      Written (Above order) done t ((writeGenerated g scriptsDir testsDir).run t).2 ∧
      Ends done rest ((writeGenerated g scriptsDir testsDir).run t).1 := by
  intro order
  have start : Written (Above order) [] t t :=
    ⟨refl_of _ t, fun _ member => (List.not_mem_nil member).elim, fun _ _ => .inl rfl⟩
  have new (o : Outgoing) (member : o ∈ order) (place : Place) (through : LeadsThrough o.dir place) :
      Above order place := ⟨o, member, through, through.above⟩
  obtain ⟨scripts, unwritten, split, written, ends⟩ := written_of_writeFiles start scriptsDir g.scripts
    fun o member => new o (List.mem_append_left _ member)
  rw [writeGenerated]
  rcases result : (writeFiles scriptsDir g.scripts).run t with ⟨failure | paths, u⟩
  · rw [result] at written ends
    obtain ⟨next, more, rfl, stops⟩ := ends
    rw [run_bind, result]
    refine ⟨scripts, next :: (more ++ outgoing testsDir g.tests), ?_, written, next, _, rfl, stops⟩
    change outgoing scriptsDir g.scripts ++ _ = _
    rw [split, List.append_assoc, List.cons_append]
  · rw [result] at written ends
    obtain ⟨rfl, rfl⟩ := ends
    rw [List.append_nil] at split
    obtain ⟨tests, unwritten, split', written, ends⟩ := written_of_writeFiles written testsDir g.tests
      fun o member => new o (List.mem_append_right _ member)
    rw [run_bind_of_ok result, run_bind]
    refine ⟨scripts ++ tests, unwritten, ?_, ?_⟩
    · change outgoing scriptsDir g.scripts ++ outgoing testsDir g.tests = _
      rw [split, split', List.append_assoc]
    · rcases result' : (writeFiles testsDir g.tests).run u with ⟨failure | more, w⟩
      · rw [result'] at written ends
        exact ⟨written, ends⟩
      · rw [result'] at written ends
        obtain ⟨rfl, rfl⟩ := ends
        exact ⟨written, rfl, List.map_append.symm⟩

end

/-- One directory in two spellings: a test goes over the script of its name. -/
example : letI : User := ⟨[], false⟩
    ((writeGenerated ⟨[⟨"a.R", "script"⟩], [⟨"a.R", "test"⟩]⟩ "out" "/out/../out").run {}).2.read?
      "out/a.R" = some "test".toUTF8 := by decide +kernel

end ToolWrappers.Install
