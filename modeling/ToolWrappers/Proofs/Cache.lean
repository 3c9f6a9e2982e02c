import ToolWrappers.Proofs.Confinement

/-! The archive as a cache. A call may fail at any stage and leave debris for the next one. At every
point of every call the archive is missing or complete, and once it is there nothing is asked for. -/

namespace ToolWrappers

open ToolWrappers.Action ToolWrappers.FileTree ToolWrappers.Path

/-- The bytes of the file that lies at the place of a path, whether or not the path leads there by
now. -/
def FileTree.stored? [User] (t : FileTree) (path : String) : Option ByteArray :=
  match t.get? (placeOf path) with
  | some (.file _ bytes) => some bytes
  | _ => none

namespace Bundle

/-- One call for an archive: the URL, the body that there is for it, and what asking for it would come
to. -/
structure Call where
  url : String
  body : ByteArray
  response : Response

/-- What is relied on of the client: a body that it reads to its end has arrived in full. A body that is
cut short ends in an error. -/
def Call.Faithful (call : Call) : Prop := ∀ bytes, call.response = .body bytes true → bytes = call.body

section

variable [User]

def Call.act (archive : String) (call : Call) : Action Failure Bool :=
  ensureArchive call.response call.url archive

/-- The tree after calls for one archive, whether or not they fail. -/
def treeAfter (archive : String) (t : FileTree) (calls : List Call) : FileTree :=
  calls.foldl (fun t call => ((call.act archive).run t).2) t

/-- The body behind the first call that says that it downloaded the archive. -/
def delivered? (archive : String) : FileTree → List Call → Option ByteArray
  | _, [] => none
  | t, call :: rest =>
    match (call.act archive).run t with
    | (.ok true, _) => some call.body
    | (_, u) => delivered? archive u rest

/-- The trees that are there at some point of a call: those between the steps, those with some of the
directories that lead to the archive, and those with a first part of the partial file. -/
inductive SeenDuring (archive : String) (t : FileTree) : Call → FileTree → Prop
  | start (call : Call) : SeenDuring archive t call t
  | between (call : Call) (steps : Nat) (missing : t.isFile archive = false) :
      SeenDuring archive t call
        ((inOrder ((downloadSteps call.response call.url archive).take steps)).run t).2
  | onTheWay (url : String) (body bytes : ByteArray) (complete : Bool)
      (missing : t.isFile archive = false) (parent : String) (above : parent? archive = some parent)
      (dirs : List String) (reached : dirs <:+ lineage parent) :
      SeenDuring archive t ⟨url, body, .body bytes complete⟩ ((makeLineage dirs).run t).2
  | writing (url : String) (body bytes : ByteArray) (complete : Bool)
      (missing : t.isFile archive = false) (arrived : Nat) :
      SeenDuring archive t ⟨url, body, .body bytes complete⟩
        ((do
          makeParents archive
          (writeFile (partialPath archive) (bytes.extract 0 arrived)).orFail
            (.creating (partialPath archive))).run t).2

/-- Whether a call asks for its URL: what the call comes to depends on the response. -/
def Asks (archive : String) (t : FileTree) : Prop :=
  ∃ url body first second, ((⟨url, body, first⟩ : Call).act archive).run t ≠
    ((⟨url, body, second⟩ : Call).act archive).run t

/-- Directories on the way to the archive, also such that the way leads back out of. -/
def LeadsToParent (archive : String) (place : Place) : Prop :=
  ∃ parent, parent? archive = some parent ∧ LeadsThrough parent place

/-- The archive is there with these bytes, and no partial file lies beside it. -/
structure Installed (archive : String) (bytes : ByteArray) (t : FileTree) : Prop where
  complete : t.read? archive = some bytes
  no_part : t.get? (placeOf (partialPath archive)) = none

variable {archive name path : String} {t u v : FileTree} {place origin : Place} {call : Call}
  {calls : List Call} {bytes : ByteArray} {free made : Place → Prop} {response : Response} {url : String}

/-! ### The place of the partial file -/

theorem placeOf_partialPath (named : fileName? archive = some name) :
    ∃ parent, placeOf archive = parent ++ [name] ∧
      placeOf (partialPath archive) = parent ++ [name ++ ".part"] := by
  obtain ⟨ordinary, parent, above, reached⟩ := placeOf_of_fileName? named
  have longer : IsOrdinary (name ++ ".part") := by
    have long : 5 ≤ (name ++ ".part").toList.length := by simp
    refine ⟨fun h => ?_, fun h => ?_, fun h => ?_, by simpa using ordinary.single⟩ <;>
      exact absurd (h ▸ long) (by decide)
  refine ⟨placeOf parent, reached, ?_⟩
  rw [partialPath, withFileName, named]
  simp only [above, Option.getD_some]
  exact placeOf_join_of_isOrdinary longer

theorem partial_ne_archive (named : fileName? archive = some name) :
    placeOf (partialPath archive) ≠ placeOf archive := by
  obtain ⟨parent, there, beside⟩ := placeOf_partialPath named
  rw [there, beside]
  intro same
  have last := List.append_cancel_left same
  have long := congrArg (fun other => other.toList.length) (List.cons.inj last).1
  simp at long

/-- Without a way back, what leads to the archive is what it lies in. -/
theorem LeadsToParent.above (forward : ∀ name ∈ names archive, name ≠ "..")
    (leads : LeadsToParent archive place) : place <+: placeOf archive := by
  obtain ⟨parent, above, through⟩ := leads
  exact (through.of_parent? above).above forward

/-! ### One call -/

/-- The steps before the last one, which do not touch the archive. -/
def stagingSteps (archive : String) (bytes : ByteArray) (complete : Bool) :
    List (Action Failure Unit) :=
  let part := partialPath archive
  [makeParents archive,
    (writeFile part bytes).orFail (.creating part),
    if complete then pure () else throw (.writing part)]

theorem downloadSteps_body (complete : Bool) :
    downloadSteps (.body bytes complete) url archive = stagingSteps archive bytes complete ++
      [(moveFile (partialPath archive) archive).orFail (.moving (partialPath archive))] := rfl

theorem confined_stagingSteps (archive : String) (bytes : ByteArray) (complete : Bool) :
    ∀ act ∈ stagingSteps archive bytes complete,
      Keeps (Confined (fun place => placeOf (partialPath archive) = place)
        (LeadsToParent archive)) act := by
  intro act member
  simp only [stagingSteps, List.mem_cons, List.not_mem_nil, or_false] at member
  rcases member with rfl | rfl | rfl
  · exact confined_makeParents fun parent above place through => ⟨parent, above, through⟩
  · exact (confined_writeFile rfl).orFail _
  · split
    · exact Keeps.pure ()
    · exact Keeps.throw _

/-- When the steps before the last one succeed, the whole body lies in the partial file. -/
theorem staged {complete : Bool}
    (h : (inOrder (stagingSteps archive bytes complete)).run t = (.ok (), v)) :
    complete = true ∧ ∃ mode, v.get? (placeOf (partialPath archive)) = some (.file mode bytes) := by
  obtain ⟨_, made, _, h⟩ := run_bind_eq_ok h
  obtain ⟨_, written, write, h⟩ := run_bind_eq_ok h
  obtain ⟨place, spotted, rfl, _⟩ := run_writeFile_eq_ok (run_orFail_eq_ok.mp write)
  obtain ⟨vacant, _⟩ := vacancy_of_fileSpot spotted
  obtain ⟨_, checked, check, h⟩ := run_bind_eq_ok h
  cases complete with
  | false => cases check
  | true =>
      cases check
      cases h
      refine ⟨rfl, writtenMode (made.get? place), ?_⟩
      rw [vacant.placeOf]
      exact vacant.get?_put

/-- What downloading comes to in a well-formed tree: it fails with nothing but a partial file, or the
archive has the whole body. -/
theorem download_cases (response : Response) (url : String) (h : t.WellFormed)
    (named : fileName? archive = some name) :
    (∃ e u, (download response url archive).run t = (.error e, u) ∧
        Confined (fun place => placeOf (partialPath archive) = place) (LeadsToParent archive) t u) ∨
      ∃ bytes u, response = .body bytes true ∧ (download response url archive).run t = (.ok (), u) ∧
        Installed archive bytes u ∧
        Confined (fun place => placeOf (partialPath archive) = place ∨ placeOf archive = place)
          (LeadsToParent archive) t u := by
  cases response with
  | refused => exact .inl ⟨.downloading url, t, rfl, refl_of _ t⟩
  | body bytes complete =>
      have staging := Keeps.inOrder (confined_stagingSteps archive bytes complete) t
      rw [download, downloadSteps_body, run_inOrder_append]
      rcases run : (inOrder (stagingSteps archive bytes complete)).run t with ⟨e | _, v⟩
      · rw [run] at staging
        exact .inl ⟨e, v, rfl, staging⟩
      · rw [run] at staging
        obtain ⟨rfl, mode, there⟩ := staged run
        dsimp only
        rw [inOrder, run_bind, run_orFail]
        rcases moveFile_cases (partialPath archive) archive v with
          ⟨fault, moved⟩ | ⟨origin, place, mode', bytes', found, file, spotted, moved⟩
        · rw [moved]
          exact .inl ⟨_, v, rfl, staging⟩
        · rw [moved]
          obtain rfl := placeOf_of_find found
          obtain ⟨rfl, rfl⟩ := Node.file.inj (Option.some.inj (there.symm.trans file))
          obtain rfl := (vacancy_of_fileSpot spotted).1.placeOf
          obtain ⟨held, gone, within⟩ := (staging.wellFormed h).move (LeadsToParent archive) there
            spotted (partial_ne_archive named)
          refine .inr ⟨bytes, _, rfl, rfl, ⟨held, gone⟩, trans_of _
            (staging.mono (fun place => Or.inl) fun _ => id) (within.mono ?_ fun _ => id)⟩
          rintro other (rfl | rfl)
          · exact .inl rfl
          · exact .inr rfl

theorem act_of_isFile (there : t.isFile archive = true) :
    (call.act archive).run t = (.ok false, t) := by
  rw [Call.act, ensureArchive, run_bind_of_ok (run_get t), if_pos there]
  rfl

theorem act_of_missing (call : Call) (missing : t.isFile archive = false) :
    (call.act archive).run t =
    match (download call.response call.url archive).run t with
    | (.ok (), u) => (.ok true, u)
    | (.error e, u) => (.error e, u) := by
  rw [Call.act, ensureArchive, run_bind_of_ok (run_get t), if_neg (by simp [missing]), run_bind]
  rcases (download call.response call.url archive).run t with ⟨_ | _, _⟩ <;> rfl

/-- Every tree that is there at some point of a call: the archive is as it was before the call, or the
call has just put it there and says so. -/
theorem seen_cases (h : t.WellFormed) (named : fileName? archive = some name)
    (seen : SeenDuring archive t call u) :
    Confined (fun place => placeOf (partialPath archive) = place) (LeadsToParent archive) t u ∨
      ∃ bytes, call.response = .body bytes true ∧ (call.act archive).run t = (.ok true, u) ∧
        Installed archive bytes u ∧
        Confined (fun place => placeOf (partialPath archive) = place ∨ placeOf archive = place)
          (LeadsToParent archive) t u := by
  cases seen with
  | start => exact .inl (refl_of _ t)
  | onTheWay url body bytes complete missing parent above dirs reached =>
      refine .inl (Keeps.makeLineage (fun dir member t idle place vacant room => ?_) t)
      have through := LeadsThrough.of_mem_lineage (reached.subset member)
        (vacant.placeOf ▸ leadsThrough_placeOf dir)
      exact .put_of_vacancy vacant room (.inr ⟨rfl, parent, above, through⟩)
  | writing url body bytes complete missing arrived =>
      exact .inl (Keeps.bind (confined_makeParents fun parent above place through =>
        ⟨parent, above, through⟩) (fun _ => (confined_writeFile rfl).orFail _) t)
  | between _ steps missing =>
      rw [act_of_missing _ missing]
      obtain ⟨url, body, response⟩ := call
      cases response with
      | refused =>
          refine .inl (Keeps.inOrder (fun act member => ?_) t)
          obtain rfl := List.mem_singleton.mp (List.mem_of_mem_take member)
          exact Keeps.throw _
      | body bytes complete =>
          dsimp only
          by_cases early : steps ≤ 3
          · refine .inl (Keeps.inOrder (fun act member => ?_) t)
            rw [downloadSteps_body, List.take_append_of_le_length early] at member
            exact confined_stagingSteps archive bytes complete act (List.mem_of_mem_take member)
          · have whole : 4 ≤ steps := by omega
            rw [List.take_of_length_le whole, ← download]
            rcases download_cases (.body bytes complete) url h named with
              ⟨e, u, run, within⟩ | ⟨body, u, same, run, there, within⟩
            · rw [run]
              exact .inl within
            · rw [run]
              exact .inr ⟨body, same, rfl, there, within⟩

/-! ### Histories of calls -/

theorem stored?_of_read? (h : t.read? archive = some bytes) : t.stored? archive = some bytes := by
  obtain ⟨place, mode, found, there⟩ := read?_eq_some_iff.mp h
  rw [stored?, placeOf_of_find found, there]

theorem isFile_of_stored? (h : t.stored? archive = none) : t.isFile archive = false := by
  refine Bool.eq_false_iff.mpr fun there => ?_
  obtain ⟨bytes, read⟩ := isFile_iff.mp there
  rw [stored?_of_read? read] at h
  cases h

/-- A call asks for its URL unless the archive is there. -/
theorem asks_iff : Asks archive t ↔ t.isFile archive = false := by
  constructor
  · rintro ⟨url, body, first, second, differ⟩
    refine Bool.eq_false_iff.mpr fun there => differ ?_
    rw [act_of_isFile there, act_of_isFile there]
  · intro missing
    refine ⟨"", .empty, .refused, .body .empty false, fun same => ?_⟩
    rw [act_of_missing _ missing, act_of_missing _ missing] at same
    -- a body that breaks off fails as well, but not for want of an answer
    have other : FailsWith (fun e => e ≠ .downloading "")
        (download (.body .empty false) "" archive) := by
      refine .inOrder fun act member => ?_
      rw [downloadSteps_body] at member
      simp only [stagingSteps, List.mem_append, List.mem_cons, List.not_mem_nil, or_false] at member
      rcases member with (rfl | rfl | rfl) | rfl
      · unfold makeParents
        split
        · exact .pure ()
        · exact .orFail _ (by simp)
      · exact .orFail _ (by simp)
      · exact .throw (by simp)
      · exact .orFail _ (by simp)
    dsimp only at same
    rcases run : (download (.body .empty false) "" archive).run t with ⟨e | _, u⟩
    · rw [run] at same
      exact other t e u run (Except.error.inj (Prod.mk.inj same).1).symm
    · rw [run] at same
      cases same

/-- With nothing but the partial file and new directories changed, the archive is as it was. -/
theorem stored?_of_confined (named : fileName? archive = some name)
    (h : Confined (fun place => placeOf (partialPath archive) = place) made t u) :
    u.stored? archive = t.stored? archive := by
  unfold stored?
  rcases h.elsewhere (placeOf archive) (partial_ne_archive named) with same | ⟨_, absent, directory⟩
  · rw [same]
  · rw [absent, directory]

theorem treeAfter_of_isFile (there : t.isFile archive = true) (calls : List Call) :
    treeAfter archive t calls = t := by
  induction calls with
  | nil => rfl
  | cons call rest ih => rw [treeAfter, List.foldl_cons, act_of_isFile there, ← treeAfter, ih]

theorem delivered?_append (h : delivered? archive t calls = some bytes) (more : List Call) :
    delivered? archive t (calls ++ more) = some bytes := by
  induction calls generalizing t with
  | nil => cases h
  | cons call rest ih =>
      rw [delivered?] at h
      rw [List.cons_append, delivered?]
      rcases run : (call.act archive).run t with ⟨e | _ | _, u⟩ <;> rw [run] at h
      · exact ih h
      · exact ih h
      · exact h

/-- What calls leave behind: a well-formed tree in which the archive is missing until one of them has
downloaded it, and has the body of that one from then on. -/
theorem after_calls (h : t.WellFormed) (named : fileName? archive = some name)
    (absent : t.stored? archive = none) {calls : List Call}
    (faithful : ∀ call ∈ calls, call.Faithful) :
    (treeAfter archive t calls).WellFormed ∧
      (delivered? archive t calls = none ∧ (treeAfter archive t calls).stored? archive = none ∨
        ∃ body, delivered? archive t calls = some body ∧
          Installed archive body (treeAfter archive t calls)) := by
  induction calls generalizing t with
  | nil => exact ⟨h, .inl ⟨rfl, absent⟩⟩
  | cons call rest ih =>
      have missing := isFile_of_stored? absent
      rw [delivered?, treeAfter, List.foldl_cons, ← treeAfter, act_of_missing _ missing]
      rcases download_cases call.response call.url h named with
        ⟨e, u, run, within⟩ | ⟨body, u, whole, run, there, within⟩
      · rw [run]
        exact ih (within.wellFormed h) ((stored?_of_confined named within).trans absent)
          fun other member => faithful other (List.mem_cons_of_mem call member)
      · obtain rfl := faithful call List.mem_cons_self body whole
        rw [run]
        dsimp only
        rw [treeAfter_of_isFile (isFile_iff.mpr ⟨call.body, there.complete⟩)]
        exact ⟨within.wellFormed h, .inr ⟨call.body, rfl, there⟩⟩

/-- What a call keeps, at every point of it, when it comes after other calls that began without the
archive. -/
structure KeepsCache (archive : String) (t : FileTree) (calls : List Call) (call : Call) : Prop where
  /-- A file that lies there as the archive has the whole body that the first successful call got. -/
  complete : ∀ u, SeenDuring archive (treeAfter archive t calls) call u →
    ∀ bytes, u.stored? archive = some bytes → delivered? archive t (calls ++ [call]) = some bytes
  /-- A call that fails neither makes the archive nor changes it. -/
  failed : ∀ e, ((call.act archive).run (treeAfter archive t calls)).1 = .error e →
    ∀ u, SeenDuring archive (treeAfter archive t calls) call u →
      u.stored? archive = (treeAfter archive t calls).stored? archive
  /-- A call that says that it downloaded the archive got a whole body, and the archive has it. -/
  downloaded : ((call.act archive).run (treeAfter archive t calls)).1 = .ok true →
    call.response = .body call.body true ∧ delivered? archive t (calls ++ [call]) = some call.body ∧
      Installed archive call.body (treeAfter archive t (calls ++ [call]))
  /-- After a download the call finds the archive, asks for nothing and changes nothing. -/
  cached : ∀ body, delivered? archive t calls = some body →
    Installed archive body (treeAfter archive t calls) ∧ ¬Asks archive (treeAfter archive t calls) ∧
      (call.act archive).run (treeAfter archive t calls) = (.ok false, treeAfter archive t calls)
  /-- Nothing changes but the partial file, directories that lead to the archive, and the archive itself
  if the call says that it downloaded it. Unless the path leads back, the archive lies in all of these
  directories. -/
  elsewhere : ∀ u, SeenDuring archive (treeAfter archive t calls) call u →
    ∀ place, u.get? place ≠ (treeAfter archive t calls).get? place →
      placeOf (partialPath archive) = place ∨
        placeOf archive = place ∧
          ((call.act archive).run (treeAfter archive t calls)).1 = .ok true ∨
        LeadsToParent archive place ∧ (treeAfter archive t calls).get? place = none ∧
          u.get? place = some .directory ∧
            ((∀ name ∈ names archive, name ≠ "..") → place <+: placeOf archive)

theorem treeAfter_concat (archive : String) (t : FileTree) (calls : List Call) (call : Call) :
    treeAfter archive t (calls ++ [call]) = ((call.act archive).run (treeAfter archive t calls)).2 := by
  simp [treeAfter]

/-- What lies in the archive after a successful call is what counts as delivered. -/
theorem delivered?_concat (h : t.WellFormed) (named : fileName? archive = some name)
    (absent : t.stored? archive = none) (faithful : ∀ other ∈ calls ++ [call], other.Faithful)
    (run : (call.act archive).run (treeAfter archive t calls) = (.ok true, u))
    (there : Installed archive bytes u) : delivered? archive t (calls ++ [call]) = some bytes := by
  have after := (after_calls h named absent faithful).2
  rw [treeAfter_concat, run] at after
  have stored := stored?_of_read? there.complete
  rcases after with ⟨_, missing⟩ | ⟨other, delivered, installed⟩
  · rw [stored] at missing
    cases missing
  · rw [delivered, ← stored?_of_read? installed.complete, stored]

/-- The archive on disk is always complete. -/
theorem archive_always_complete (h : t.WellFormed) (named : fileName? archive = some name)
    (absent : t.stored? archive = none) (calls : List Call) (call : Call)
    (faithful : ∀ other ∈ calls ++ [call], other.Faithful) : KeepsCache archive t calls call := by
  have earlier : ∀ other ∈ calls, other.Faithful := fun other member =>
    faithful other (List.mem_append_left [call] member)
  obtain ⟨ordered, so_far⟩ := after_calls h named absent earlier
  constructor
  case complete =>
    intro u seen bytes stored
    rcases seen_cases ordered named seen with within | ⟨body, _, run, there, _⟩
    · rw [stored?_of_confined named within] at stored
      rcases so_far with ⟨_, missing⟩ | ⟨body, delivered, installed⟩
      · rw [stored] at missing
        cases missing
      · rw [stored?_of_read? installed.complete] at stored
        exact delivered?_append (delivered.trans stored) [call]
    · rw [stored?_of_read? there.complete] at stored
      exact (delivered?_concat h named absent faithful run there).trans stored
  case failed =>
    intro e failed u seen
    rcases seen_cases ordered named seen with within | ⟨_, _, run, _⟩
    · exact stored?_of_confined named within
    · rw [run] at failed
      cases failed
  case downloaded =>
    intro success
    have missing : (treeAfter archive t calls).isFile archive = false :=
      Bool.eq_false_iff.mpr fun there => by
        rw [act_of_isFile there] at success
        cases success
    have run := act_of_missing call missing
    rcases download_cases call.response call.url ordered named with
      ⟨e, u, stopped, _⟩ | ⟨body, u, whole, done, there, _⟩
    · rw [run, stopped] at success
      cases success
    · obtain rfl := faithful call (List.mem_append_right calls List.mem_cons_self) body whole
      rw [done] at run
      exact ⟨whole, delivered?_concat h named absent faithful run there, by
        rwa [treeAfter_concat, run]⟩
  case cached =>
    intro body delivered
    rcases so_far with ⟨missing, _⟩ | ⟨other, same, installed⟩
    · rw [delivered] at missing
      cases missing
    · obtain rfl := Option.some.inj (same.symm.trans delivered)
      have there := isFile_iff.mpr ⟨_, installed.complete⟩
      exact ⟨installed, by simp [asks_iff, there], act_of_isFile there⟩
  case elsewhere =>
    intro u seen place changed
    by_cases free : placeOf (partialPath archive) = place ∨ placeOf archive = place
    · rcases seen_cases ordered named seen with within | ⟨_, _, run, _⟩
      · rcases free with part | archived
        · exact .inl part
        · have apart : placeOf (partialPath archive) ≠ place := archived ▸ partial_ne_archive named
          obtain ⟨leads, new⟩ := (within.elsewhere place apart).resolve_left changed
          exact .inr (.inr ⟨leads, new.1, new.2, leads.above⟩)
      · exact free.imp_right fun archived => .inl ⟨archived, by rw [run]⟩
    · obtain ⟨leads, new⟩ : LeadsToParent archive place ∧
          (treeAfter archive t calls).get? place = none ∧ u.get? place = some .directory := by
        rcases seen_cases ordered named seen with within | ⟨_, _, _, _, within⟩
        · exact (within.elsewhere place fun part => free (.inl part)).resolve_left changed
        · exact (within.elsewhere place free).resolve_left changed
      exact .inr (.inr ⟨leads, new.1, new.2, fun forward => leads.above forward⟩)

end

/-- Somebody without special rights, who works in a directory of the root. -/
abbrev siteUser : User := ⟨["site"], false⟩

/-- A tree in which an earlier run has left a partial file. -/
def leftoverTree : FileTree :=
  ⟨[(["site"], .directory), (["dl"], .directory),
    (["dl", "a.zip.part"], .file 0o600 "stale bytes".toUTF8)]⟩

/-- A call that comes to this when there is a whole body to be had. -/
def callFor (response : Response) : Call := ⟨"http://h/a.zip", "whole".toUTF8, response⟩

/-- Calls that fail before and while the archive is downloaded. -/
def failedCalls : List Call := [callFor .refused, callFor (.body "wh".toUTF8 false)]

theorem archive_always_complete_leftover :
    letI := siteUser
    leftoverTree.WellFormed ∧ fileName? "/dl/a.zip" = some "a.zip" ∧
      leftoverTree.stored? "/dl/a.zip" = none ∧
      (∀ other ∈ failedCalls ++ [callFor (.body "whole".toUTF8 true)], other.Faithful) ∧
      delivered? "/dl/a.zip" leftoverTree failedCalls = none ∧
      delivered? "/dl/a.zip" leftoverTree
        (failedCalls ++ [callFor (.body "whole".toUTF8 true)]) = some "whole".toUTF8 ∧
      KeepsCache "/dl/a.zip" leftoverTree failedCalls (callFor (.body "whole".toUTF8 true)) := by
  let _ : User := siteUser
  have faithful : ∀ other ∈ failedCalls ++ [callFor (.body "whole".toUTF8 true)], other.Faithful := by
    intro other member bytes whole
    simp only [failedCalls, callFor, List.cons_append, List.nil_append, List.mem_cons,
      List.not_mem_nil, or_false] at member
    rcases member with rfl | rfl | rfl
    · cases whole
    · cases whole
    · exact (Response.body.inj whole).1.symm
  exact ⟨by decide, by decide, by decide, faithful, by decide +kernel, by decide +kernel,
    archive_always_complete (by decide) (by decide : fileName? "/dl/a.zip" = some "a.zip") (by decide)
      _ _ faithful⟩

end Bundle

end ToolWrappers
