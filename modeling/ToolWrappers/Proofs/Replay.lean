import ToolWrappers.Proofs.Extraction
import ToolWrappers.Proofs.StoredFiles

/-! What unpacking leaves of a bundle: it follows from the bytes of the archive alone, whatever lay in
the bundle directory before. -/

namespace ToolWrappers

open ToolWrappers.Action ToolWrappers.FileTree ToolWrappers.Path

namespace Zip

/-- An entry as it is replayed: what the directory says of it, the mode cut down to what a file keeps of
it, and its data. -/
structure Entry where
  name : String
  isDirectory : Bool
  mode? : Option Nat
  bytes : ByteArray

def Record.entry (r : Record) (bytes : ByteArray) : Entry :=
  ⟨r.name, r.isDirectory, r.mode?.map permissionBits, bytes⟩

/-- The entries of these records, counted from an index, with the data that an archive holds for them. -/
def entriesFrom (lib : Library) (b : ByteArray) (index : Nat) (records : List Record) : List Entry :=
  (records.zipIdx index).filterMap fun (r, i) =>
    (lib.open? b i b).map fun read => r.entry (read b).bytes

/-- The entries of an archive in the order of its directory. -/
def entries (lib : Library) (b : ByteArray) : List Entry :=
  entriesFrom lib b 0 ((lib.records? b).getD [])

/-- Where an entry belongs, seen from the directory that the archive is extracted into. -/
def Entry.place (e : Entry) : Place := (names e.name).filter fun name => name ≠ "" && name ≠ "."

/-- The entries that bring a file to a place. -/
def filesAt (es : List Entry) (place : Place) : List Entry :=
  es.filter fun e => !e.isDirectory && e.place = place

/-- What entries leave at a place where nothing was: the last file for the place, with the last mode
that a file for it carries, or else a directory if something belongs there or below. -/
def laidOut (es : List Entry) (place : Place) : Option Node :=
  match (filesAt es place).getLast? with
  | some e =>
    some (.file (((filesAt es place).filterMap Entry.mode?).getLast?.getD newFileMode) e.bytes)
  | none => if es.any fun e => place.isPrefixOf e.place then some .directory else none

/-- What one more entry leaves at a place. -/
def Entry.over (e : Entry) (place : Place) (before : Option Node) : Option Node :=
  if e.isDirectory = false ∧ e.place = place then
    some (.file (e.mode?.getD (writtenMode before)) e.bytes)
  else if before = none ∧ place <+: e.place then some .directory
  else before

variable {es : List Entry} {e : Entry} {place : Place}

theorem writtenMode_laidOut : writtenMode (laidOut es place) =
    ((filesAt es place).filterMap Entry.mode?).getLast?.getD newFileMode := by
  unfold laidOut
  split
  · rfl
  · rename_i none
    rw [List.getLast?_eq_none_iff.mp none]
    split <;> rfl

theorem laidOut_concat : laidOut (es ++ [e]) place = e.over place (laidOut es place) := by
  have one : filesAt (es ++ [e]) place = filesAt es place ++
      if e.isDirectory = false ∧ e.place = place then [e] else [] := by
    simp [filesAt, List.filter_append, List.filter_cons]
  unfold Entry.over
  split
  · rename_i here
    rw [if_pos here] at one
    rw [writtenMode_laidOut, laidOut, one, List.getLast?_concat, List.filterMap_append]
    cases carried : e.mode? <;> simp [carried]
  · rename_i elsewhere
    rw [if_neg elsewhere, List.append_nil] at one
    unfold laidOut
    rw [one]
    cases (filesAt es place).getLast? with
    | some last => simp
    | none =>
        by_cases before : (es.any fun e => place.isPrefixOf e.place) = true
        · simp [List.any_append, before]
        · simp [List.any_append, before]

end Zip

/-! ### The reader of stored and deflated entries -/

namespace Zip

theorem Header.dataStart?_empty (h : Header) : h.dataStart? .empty = none := by
  have none : number? .empty h.position 4 = none := by
    simp [number?, byte?, getElem?]
  unfold Header.dataStart?
  rw [none]
  dsimp only
  split <;> rfl

/-- No data is intact only if nothing was to be there. -/
theorem Header.data_empty {h : Header} {start : Nat} (intact : (h.data .empty start).intact = true) :
    (h.data .empty start).bytes = .empty := by
  have none : slice .empty start h.storedSize = .empty := by simp [slice]
  have empty : inflate .empty = (.empty, false) := by decide +kernel
  unfold Header.data restore at intact ⊢
  rw [none] at intact ⊢
  by_cases deflated : h.method = deflated
  · rw [if_pos deflated, empty] at intact
    cases intact
  · rw [if_neg deflated]

theorem lawful_reader : reader.Lawful := by
  constructor
  case unopened =>
    intro archive index
    simp [reader, Header.dataStart?_empty]
  case unread =>
    intro archive index now read opened intact
    obtain ⟨headers, _, opened⟩ := Option.bind_eq_some_iff.mp opened
    obtain ⟨header, _, opened⟩ := Option.bind_eq_some_iff.mp opened
    obtain ⟨start, _, opened⟩ := Option.bind_eq_some_iff.mp opened
    obtain rfl := Option.some.inj opened
    exact Header.data_empty intact

end Zip

/-! ### One entry -/

namespace Bundle

variable {archive root name path : String} {a : Archive} {r : Zip.Record} {read : ByteArray → Zip.Data}
  {t u v : FileTree} {place : Place} {bytes : ByteArray} {lib : Zip.Library} {index : Nat}

theorem bytesAt_of_file {mode : Nat} (there : u.get? place = some (.file mode bytes)) :
    u.bytesAt place = bytes := by
  rw [bytesAt, there]

section

variable [User]

/-- What extracting a file comes to when it succeeds. The file is emptied before the archive is read for
it, which counts if it is the archive itself. -/
structure Extracts (a : Archive) (path : String) (r : Zip.Record) (read : ByteArray → Zip.Data)
    (place : Place) (u v : FileTree) : Prop where
  vacant : u.Vacancy path [] place
  free : u.isDirectoryAt place = false
  intact : (read ((u.put place (.file (writtenMode (u.get? place)) .empty)).bytesAt a.place)).intact = true
  done : v = u.put place (.file ((r.mode?.map permissionBits).getD (writtenMode (u.get? place)))
    (read ((u.put place (.file (writtenMode (u.get? place)) .empty)).bytesAt a.place)).bytes)

/-- Setting the mode of a file that has just been put somewhere. -/
theorem eq_put_of_setMode {old mode : Nat} (vacant : u.Vacancy path [] place)
    (run : (setMode path mode).run (u.put place (.file old bytes)) = (.ok (), v)) :
    v = u.put place (.file (permissionBits mode) bytes) := by
  rcases setMode_cases path mode (u.put place (.file old bytes)) with
    ⟨fault, failed⟩ | ⟨there, found, set⟩
  · rw [failed] at run
    cases run
  · obtain rfl := (placeOf_of_find found).symm.trans vacant.placeOf
    rcases set with ⟨other, _⟩ | ⟨_, _, file, done⟩
    · exact absurd vacant.get?_put (other _ _)
    · obtain ⟨_, rfl⟩ := Node.file.inj (Option.some.inj (vacant.get?_put.symm.trans file))
      rw [done, put_put] at run
      exact (Prod.mk.inj run).2.symm

/-- An entry that is extracted: directories on its way, and then the file if it is one. -/
theorem extractRecord_eq_ok (run : (extractRecord a root r read).run u = (.ok (), v)) :
    isUnsafe r.name = false ∧
      ∃ w, Confined (fun _ => False) (LeadsThrough (join root r.name)) u w ∧
        (r.isDirectory = true ∧ (join root r.name ≠ "" → w.Opens (join root r.name)) ∧ v = w ∨
          r.isDirectory = false ∧ ∃ place, Extracts a (join root r.name) r read place w v) := by
  unfold extractRecord at run
  dsimp only at run
  split at run
  · cases run
  · rename_i safe
    refine ⟨by simpa using safe, ?_⟩
    split at run
    · rename_i directory
      have made := run_orFail_eq_ok.mp run
      have within : Confined (fun _ => False) (LeadsThrough (join root r.name)) u
          ((makeDirs (join root r.name)).run u).2 := confined_makeDirs (fun _ => id) u
      rw [made] at within
      exact ⟨v, within, .inl ⟨directory, fun nonempty => opens_of_makeDirs nonempty made, rfl⟩⟩
    · rename_i file
      obtain ⟨_, w, parents, run⟩ := run_bind_eq_ok run
      have within : Confined (fun _ => False) (LeadsThrough (join root r.name)) u
          ((makeParents (join root r.name)).run u).2 :=
        confined_makeParents (fun parent above place through => through.of_parent? above) u
      rw [parents] at within
      refine ⟨w, within, .inr ⟨by simpa using file, ?_⟩⟩
      obtain ⟨_, emptied, cleared, run⟩ := run_bind_eq_ok run
      obtain ⟨place, spotted, rfl, _⟩ := run_writeFile_eq_ok (run_orFail_eq_ok.mp cleared)
      obtain ⟨vacant, free⟩ := vacancy_of_fileSpot spotted
      obtain ⟨bytes, same, now, run⟩ := run_bind_eq_ok run
      cases now
      obtain ⟨_, written, wrote, run⟩ := run_bind_eq_ok run
      obtain ⟨again, respotted, rfl, _⟩ := run_writeFile_eq_ok (run_orFail_eq_ok.mp wrote)
      obtain rfl := (vacancy_of_fileSpot respotted).1.placeOf.symm.trans vacant.placeOf
      rw [put_put, vacant.get?_put] at run
      split at run
      · cases run
      · rename_i whole
        refine ⟨again, vacant, free, by simpa using whole, ?_⟩
        cases carried : r.mode? with
        | none =>
            rw [carried] at run
            exact (Prod.mk.inj run).2.symm
        | some mode =>
            rw [carried] at run
            exact eq_put_of_setMode vacant (run_orFail_eq_ok.mp run)

/-- The places in the bundle directory that the path of an entry leads through. -/
theorem leadsThrough_join_iff
    (apart : ∀ place, LeadsThrough root place → ¬placeOf root ++ ["WBT"] <+: place)
    (safe : isUnsafe name = false) (rel : List String) :
    LeadsThrough (join root name) (placeOf root ++ "WBT" :: rel) ↔
      "WBT" :: rel <+: (names name).filter fun part => part ≠ "" && part ≠ "." := by
  obtain ⟨relative, forward⟩ := forward_of_isUnsafe_eq_false safe
  constructor
  · intro through
    rcases through.of_join relative with inside | ⟨lead, first, led⟩
    · exact absurd ⟨rel, by simp⟩ (apart _ inside)
    · rw [resolve_of_forward fun part member => forward part (first.subset member)] at led
      rw [← List.append_cancel_left led]
      exact first.filter _
  · intro below
    obtain ⟨lead, first, filtered⟩ := List.prefix_filter_iff.mp below
    rw [filtered, ← resolve_of_forward fun part member => forward part (first.subset member)]
    exact .join relative first

/-- A file beside the archive gets the data that the archive holds for it. -/
theorem Extracts.done_of_ne {mode : Nat} (h : Extracts a path r read place u v)
    (there : u.get? a.place = some (.file mode bytes)) (other : a.place ≠ place) :
    v = u.put place (.file ((r.mode?.map permissionBits).getD (writtenMode (u.get? place)))
      (read bytes).bytes) := by
  rw [h.done, bytesAt_of_file ((get?_put_of_ne other).trans there)]

/-- A file that is the archive itself ends up empty. -/
theorem Extracts.bytesAt_self (lawful : lib.Lawful) {held now : ByteArray}
    (opened : lib.open? held index now = some read) (h : Extracts a path r read a.place u v) :
    v.bytesAt a.place = .empty := by
  have intact := h.intact
  rw [bytesAt_of_file h.vacant.get?_put] at intact
  rw [h.done, bytesAt_of_file h.vacant.get?_put, bytesAt_of_file h.vacant.get?_put]
  exact lawful.unread held index now read opened intact

/-- Where an entry leads to in the bundle directory, only its own file and new directories appear. -/
theorem over_of_opens {e : Zip.Entry} {rel : List String}
    (leads : LeadsThrough path place ↔ rel <+: e.place)
    (other : ¬(e.isDirectory = false ∧ e.place = rel))
    (changed : v.get? place = u.get? place ∨
      LeadsThrough path place ∧ u.get? place = none ∧ v.get? place = some .directory)
    (opens : LeadsThrough path place → v.isDirectoryAt place = true) :
    v.get? place = e.over rel (u.get? place) := by
  rw [Zip.Entry.over, if_neg other]
  rcases changed with same | ⟨through, absent, directory⟩
  · split
    · rename_i new
      exact isDirectoryAt_iff.mp (opens (leads.mpr new.2))
    · exact same
  · rw [if_pos ⟨absent, leads.mp through⟩, directory]

/-- The archive is there as before after an entry, unless the entry was the archive itself. -/
theorem archive_of_extractRecord (lawful : lib.Lawful) {mode : Nat} {held now : ByteArray}
    (opened : lib.open? held index now = some read)
    (there : u.get? a.place = some (.file mode bytes))
    (run : (extractRecord a root r read).run u = (.ok (), v)) :
    v.get? a.place = some (.file mode bytes) ∨ v.bytesAt a.place = .empty := by
  obtain ⟨_, w, within, ⟨_, _, rfl⟩ | ⟨_, place, extracts⟩⟩ := extractRecord_eq_ok run
  · exact .inl ((within.file_iff id).mpr there)
  · by_cases self : a.place = place
    · subst self
      exact .inr (extracts.bytesAt_self lawful opened)
    · left
      rw [extracts.done, get?_put_of_ne self]
      exact (within.file_iff id).mpr there

/-- In the bundle directory, an entry leaves what it says, with the data that the archive holds for it. -/
theorem get?_of_extractRecord {mode : Nat}
    (apart : ∀ place, LeadsThrough root place → ¬placeOf root ++ ["WBT"] <+: place)
    (there : u.get? a.place = some (.file mode bytes)) (outside : ¬placeOf root ++ ["WBT"] <+: a.place)
    (run : (extractRecord a root r read).run u = (.ok (), v)) (rel : List String) :
    v.get? (placeOf root ++ "WBT" :: rel) =
      (r.entry (read bytes).bytes).over ("WBT" :: rel) (u.get? (placeOf root ++ "WBT" :: rel)) := by
  obtain ⟨safe, w, within, done⟩ := extractRecord_eq_ok run
  have leads := leadsThrough_join_iff apart safe rel
  rcases done with ⟨directory, opens, rfl⟩ | ⟨file, place, extracts⟩
  · refine over_of_opens leads (fun both => ?_) (within.elsewhere _ id) fun through => ?_
    · rw [show (r.entry (read bytes).bytes).isDirectory = r.isDirectory from rfl, directory] at both
      cases both.1
    · refine opens (fun empty => ?_) _ through
      have below := leads.mp through
      rw [eq_empty_of_join empty] at below
      exact absurd (show _ <+: [] from below) (by simp)
  · have there := (within.file_iff id).mpr there
    obtain ⟨relative, forward⟩ := forward_of_isUnsafe_eq_false safe
    have lies : place = placeOf root ++ (r.entry (read bytes).bytes).place := by
      rw [← extracts.vacant.placeOf, placeOf_join relative, resolve_of_forward forward]
      rfl
    by_cases here : (r.entry (read bytes).bytes).place = "WBT" :: rel
    · have inside : a.place ≠ place := by
        intro same
        exact outside (same ▸ lies ▸ here ▸ ⟨rel, by simp⟩)
      have before : w.get? place = u.get? place := by
        rcases within.elsewhere place id with same | ⟨_, _, directory⟩
        · exact same
        · have free := extracts.free
          rw [isDirectoryAt_iff.mpr directory] at free
          cases free
      rw [Zip.Entry.over, if_pos ⟨file, here⟩, ← here, ← lies, ← before,
        extracts.done_of_ne there inside, extracts.vacant.get?_put]
      rfl
    · have away : placeOf root ++ "WBT" :: rel ≠ place := fun same =>
        here (List.append_cancel_left (lies.symm.trans same.symm))
      have aside : v.get? (placeOf root ++ "WBT" :: rel) = w.get? (placeOf root ++ "WBT" :: rel) := by
        rw [extracts.done, get?_put_of_ne away]
      refine over_of_opens leads (fun both => here both.2) ?_ fun through => ?_
      · rw [aside]
        exact within.elsewhere _ id
      · rw [isDirectoryAt, aside]
        exact (extracts.vacant.passes_directories through).resolve_left away

/-! ### All entries -/

/-- Opening the archive's entry for a record, and extracting it. -/
theorem extractAll_cons_eq_ok {rest : List Zip.Record}
    (run : (extractAll lib a root index (r :: rest)).run u = (.ok (), v)) :
    ∃ read w, lib.open? a.bytes index (u.bytesAt a.place) = some read ∧
      (extractRecord a root r read).run u = (.ok (), w) ∧
      (extractAll lib a root (index + 1) rest).run w = (.ok (), v) := by
  obtain ⟨bytes, same, now, run⟩ := run_bind_eq_ok run
  cases now
  cases opened : lib.open? a.bytes index (u.bytesAt a.place) with
  | none =>
      rw [opened] at run
      cases run
  | some read =>
      rw [opened] at run
      obtain ⟨_, w, first, rest⟩ := run_bind_eq_ok run
      exact ⟨read, w, rfl, first, rest⟩

theorem get?_of_extractAll (lawful : lib.Lawful) {mode : Nat}
    (apart : ∀ place, LeadsThrough root place → ¬placeOf root ++ ["WBT"] <+: place)
    (outside : ¬placeOf root ++ ["WBT"] <+: a.place) {records : List Zip.Record} {es : List Zip.Entry}
    (there : u.get? a.place = some (.file mode a.bytes))
    (so_far : ∀ rel, u.get? (placeOf root ++ "WBT" :: rel) = Zip.laidOut es ("WBT" :: rel))
    (run : (extractAll lib a root index records).run u = (.ok (), v)) (rel : List String) :
    v.get? (placeOf root ++ "WBT" :: rel) =
      Zip.laidOut (es ++ Zip.entriesFrom lib a.bytes index records) ("WBT" :: rel) := by
  induction records generalizing index es u with
  | nil =>
      cases run
      simpa [Zip.entriesFrom] using so_far rel
  | cons r rest ih =>
      obtain ⟨read, w, opened, first, later⟩ := extractAll_cons_eq_ok run
      rw [bytesAt_of_file there] at opened
      have now (rel : List String) : w.get? (placeOf root ++ "WBT" :: rel) =
          Zip.laidOut (es ++ [r.entry (read a.bytes).bytes]) ("WBT" :: rel) := by
        rw [get?_of_extractRecord apart there outside first, so_far rel, Zip.laidOut_concat]
      have onward : Zip.entriesFrom lib a.bytes index (r :: rest) =
          r.entry (read a.bytes).bytes :: Zip.entriesFrom lib a.bytes (index + 1) rest := by
        rw [Zip.entriesFrom, List.zipIdx_cons, List.filterMap_cons_some (by simp only [opened]; rfl)]
        rfl
      rw [onward, List.append_cons es]
      rcases archive_of_extractRecord lawful opened there first with there | emptied
      · exact ih there now later
      · -- nothing is left of the archive, so no record may follow
        cases rest with
        | nil =>
            cases later
            simpa [Zip.entriesFrom] using now rel
        | cons second rest =>
            obtain ⟨_, _, opened, _⟩ := extractAll_cons_eq_ok later
            rw [emptied, lawful.unopened] at opened
            cases opened

/-! ### The whole bundle -/

/-- An archive with these bytes has been unpacked into a root directory. What lay in the bundle directory
was found by its path, and the path of the root does not lead through the bundle directory. -/
structure Unpacked (lib : Zip.Library) (archive root : String) (bytes : ByteArray) (t v : FileTree) :
    Prop where
  wellFormed : t.WellFormed
  cached : t.read? archive = some bytes
  seen : t.get? (placeOf (join root "WBT")) ≠ none → t.has (join root "WBT") = true
  apart : ∀ place, LeadsThrough root place → ¬placeOf (join root "WBT") <+: place
  done : (unpack lib archive root (join root "WBT")).run t = (.ok (), v)

/-- The bundle directory is found by its path as long as only what is below it is gone. -/
theorem find_eraseBelow
    (apart : ∀ place, LeadsThrough root place → ¬placeOf (join root "WBT") <+: place)
    (found : t.find (join root "WBT") = .ok place) :
    (t.eraseBelow place).find (join root "WBT") = .ok place := by
  obtain ⟨usable, walked⟩ := find_eq_ok_iff.mp found
  obtain rfl := placeOf_of_find found
  refine find_eq_ok_iff.mpr ⟨usable, (walk_congr fun lead first => ?_).trans walked⟩
  rw [get?_eraseBelow, if_neg]
  rintro ⟨_, inside, proper⟩
  have below := List.isPrefixOf_iff_prefix.mp inside
  rcases LeadsThrough.of_join_ordinary (by decide) ⟨lead, first, rfl⟩ with outside | itself
  · exact apart _ outside below
  · exact proper (itself.trans (placeOf_join_of_isOrdinary (by decide)).symm)

/-- Nothing is left of an earlier bundle when the entries are extracted, and what is left lay there
before. -/
theorem Unpacked.cleared (h : Unpacked lib archive root bytes t v) :
    ∃ u, (∀ rel, u.get? (placeOf (join root "WBT") ++ rel) = none) ∧
      (∀ place node, u.get? place = some node → t.get? place = some node) ∧
      (openArchive lib archive >>= fun (a, records) => extractAll lib a root 0 records).run u =
        (.ok (), v) := by
  have done := h.done
  rw [unpack, run_bind_of_ok (run_get t)] at done
  split at done
  · obtain ⟨_, u, removed, rest⟩ := run_bind_eq_ok done
    have removed := run_orFail_eq_ok.mp removed
    obtain ⟨place, found, gone⟩ := run_removeDir_eq_ok removed
    obtain rfl := gone.resolve_right fun ⟨_, missing⟩ => by
      rw [find_eraseBelow h.apart found] at missing
      cases missing
    obtain rfl := placeOf_of_find found
    have inner : placeOf (join root "WBT") ≠ [] := by
      rw [placeOf_join_of_isOrdinary (by decide)]
      simp
    refine ⟨_, fun rel => ?_, fun other node => get?_of_removeDir removed, rest⟩
    rw [get?_erase, if_pos ⟨by simp [inner], List.isPrefixOf_iff_prefix.mpr ⟨rel, rfl⟩⟩]
  · rename_i unseen
    have absent : t.get? (placeOf (join root "WBT")) = none := by
      by_contra there
      exact unseen (h.seen there)
    refine ⟨t, fun rel => ?_, fun _ _ => id, done⟩
    by_cases top : rel = []
    · rw [top, List.append_nil, absent]
    · refine h.wellFormed.get?_below ?_ (List.prefix_append _ rel) (by simpa using top)
      simp [isDirectoryAt, absent]

/-- What a bundle is after its archive has been unpacked: what the entries below its name leave where
nothing was. -/
theorem Unpacked.get?_bundle (lawful : lib.Lawful) (h : Unpacked lib archive root bytes t v)
    (rel : List String) : v.get? (placeOf (join root "WBT") ++ rel) =
      Zip.laidOut (Zip.entries lib bytes) ("WBT" :: rel) := by
  obtain ⟨u, clear, kept, run⟩ := h.cleared
  have apart := h.apart
  rw [placeOf_join_of_isOrdinary (by decide)] at clear apart ⊢
  obtain ⟨⟨a, records⟩, w, opened, extracted⟩ := run_bind_eq_ok run
  obtain ⟨rfl, found, ⟨mode, file⟩, listed⟩ := openArchive_eq_ok opened
  -- the archive is the one that was there before the bundle was cleared away
  obtain rfl : a.bytes = bytes := read?_of_kept kept h.cached (read?_of_find found file)
  have outside : ¬placeOf root ++ ["WBT"] <+: a.place := by
    rintro ⟨rest, same⟩
    rw [← same, clear rest] at file
    cases file
  have before (rel : List String) :
      w.get? (placeOf root ++ "WBT" :: rel) = Zip.laidOut [] ("WBT" :: rel) := by
    rw [List.append_cons, clear]
    rfl
  have laid := get?_of_extractAll lawful apart outside file before extracted rel
  rw [List.append_assoc]
  rw [List.nil_append] at laid
  rw [Zip.entries, listed]
  exact laid

/-- A path without a way back does not lead through the bundle directory in it. -/
theorem apart_of_forward (forward : ∀ name ∈ names root, name ≠ "..") (place : Place)
    (through : LeadsThrough root place) : ¬placeOf (join root "WBT") <+: place := by
  intro below
  rw [placeOf_join_of_isOrdinary (by decide)] at below
  exact absurd (below.trans (through.above forward)).length_le (by simp)

/-- Without a way back in its path, the bundle directory is found wherever it is there. -/
theorem has_of_forward (h : t.WellFormed) (usable : pathFault? (join root "WBT") = none)
    (forward : ∀ name ∈ names root, name ≠ ".." ∧ fitsName name = true)
    (there : t.get? (placeOf (join root "WBT")) ≠ none) : t.has (join root "WBT") = true := by
  have relative : isAbsolute "WBT" = false := by decide
  obtain ⟨lead, idle, split, empty, joined⟩ := names_join root relative
  rw [names_of_single (by decide : '/' ∉ "WBT".toList)] at joined
  have lies : placeOf (join root "WBT") = resolve (outset root) lead ++ ["WBT"] := by
    rw [placeOf_join_of_isOrdinary (by decide), placeOf, split, resolve_append, resolve_of_idle empty]
  rw [lies] at there
  have standing := (h.standing there).1
  rw [List.dropLast_concat] at standing
  have walked := h.walk_of_forward
    (fun name member => forward name (split ▸ List.mem_append_left idle member)) rfl standing
  obtain ⟨node, present⟩ := Option.ne_none_iff_exists'.mp there
  have found : t.find (join root "WBT") = .ok (resolve (outset root) lead ++ ["WBT"]) := by
    rw [find_eq_ok_iff, joined, outset_join relative, walk_append, walked]
    refine ⟨usable, ?_⟩
    change t.walk (resolve (outset root) lead) ["WBT"] = _
    have fits : fitsName "WBT" = true := by decide
    simp [walk, standing, present, fits]
  simp [has, node?, found, present]

theorem Unpacked.of_forward (h : t.WellFormed) (cached : t.read? archive = some bytes)
    (usable : pathFault? (join root "WBT") = none)
    (forward : ∀ name ∈ names root, name ≠ ".." ∧ fitsName name = true)
    (done : (unpack lib archive root (join root "WBT")).run t = (.ok (), v)) :
    Unpacked lib archive root bytes t v :=
  ⟨h, cached, has_of_forward h usable forward,
    apart_of_forward fun name member => (forward name member).1, done⟩

/-- The bundle directory is found by its path in every tree in which something is found in the root. -/
theorem find_bundle (usable : pathFault? (join root "WBT") = none) (single : '/' ∉ name.toList)
    (found : u.find (join root name) = .ok place) (there : u.get? (placeOf (join root "WBT")) ≠ none) :
    u.find (join root "WBT") = .ok (placeOf (join root "WBT")) := by
  obtain ⟨top, walked, directory⟩ := exists_walk_of_find_join (isAbsolute_of_single single) found
  obtain rfl := resolve_of_walk walked
  rw [placeOf_join_of_isOrdinary (by decide)] at there ⊢
  exact find_join (by decide) (by decide) usable walked directory there

/-- If the archive lies in the root, then the path of the root does not lead through the bundle: what is
removed with the bundle takes nothing from the way to the archive. -/
theorem apart_of_archived (h : t.WellFormed) (usable : pathFault? (join root "WBT") = none)
    (single : '/' ∉ name.toList) (cached : t.read? (join root name) = some bytes)
    (run : (unpack lib (join root name) root (join root "WBT")).run t = (.ok (), v)) (place : Place)
    (through : LeadsThrough root place) : ¬placeOf (join root "WBT") <+: place := by
  intro below
  have relative := isAbsolute_of_single single
  obtain ⟨_, _, found, _⟩ := read?_eq_some_iff.mp cached
  have directory := opens_of_find_join relative found place through
  have bundle : t.get? (placeOf (join root "WBT")) = some .directory := by
    apply isDirectoryAt_iff.mp
    by_cases same : placeOf (join root "WBT") = place
    · exact same ▸ directory
    · exact h.isDirectoryAt_of_prefix (by simp [isDirectoryAt_iff.mp directory]) below same
  have seen := find_bundle usable single found (by simp [bundle])
  rw [unpack, run_bind_of_ok (run_get t), if_pos (by simp [has, node?, seen, bundle])] at run
  obtain ⟨_, w, removed, run⟩ := run_bind_eq_ok run
  obtain ⟨⟨a, records⟩, _, opened, _⟩ := run_bind_eq_ok run
  obtain ⟨_, refound, _⟩ := openArchive_eq_ok opened
  obtain ⟨_, foundAt, gone⟩ := run_removeDir_eq_ok (run_orFail_eq_ok.mp removed)
  obtain rfl := Except.ok.inj (seen.symm.trans foundAt)
  rcases gone with rfl | ⟨rfl, missing⟩
  · have still := isDirectoryAt_iff.mp (opens_of_find_join relative refound place through)
    have inner : place ≠ [] := by
      rintro rfl
      rw [placeOf_join_of_isOrdinary (by decide)] at below
      exact absurd (List.prefix_nil.mp below) (by simp)
    rw [get?_erase, if_pos ⟨inner, List.isPrefixOf_iff_prefix.mpr below⟩] at still
    cases still
  · rw [find_bundle usable single refound (by simp [get?_eraseBelow, bundle])] at missing
    cases missing

/-- A bundle that has been unpacked from an archive in the root. -/
theorem Unpacked.of_archived (h : t.WellFormed) (usable : pathFault? (join root "WBT") = none)
    (single : '/' ∉ name.toList) (cached : t.read? (join root name) = some bytes)
    (done : (unpack lib (join root name) root (join root "WBT")).run t = (.ok (), v)) :
    Unpacked lib (join root name) root bytes t v := by
  refine ⟨h, cached, fun there => ?_, apart_of_archived h usable single cached done, done⟩
  obtain ⟨node, present⟩ := Option.ne_none_iff_exists'.mp there
  obtain ⟨_, _, found, _⟩ := read?_eq_some_iff.mp cached
  simp [has, node?, find_bundle usable single found there, present]

/-- An unpacked bundle follows from the archive alone: two of them from the same bytes have the same
files with the same bytes and modes, and the same directories, wherever they lie and whatever lay there
before. These are what the entries of the archive leave, one after the other, where nothing was. -/
theorem bundle_follows_archive (lawful : lib.Lawful) {archive₁ archive₂ root₁ root₂ : String}
    {bytes : ByteArray} {t₁ v₁ t₂ v₂ : FileTree}
    (first : Unpacked lib archive₁ root₁ bytes t₁ v₁) (second : Unpacked lib archive₂ root₂ bytes t₂ v₂)
    (rel : List String) :
    v₁.get? (placeOf (join root₁ "WBT") ++ rel) = v₂.get? (placeOf (join root₂ "WBT") ++ rel) ∧
      v₁.get? (placeOf (join root₁ "WBT") ++ rel) =
        Zip.laidOut (Zip.entries lib bytes) ("WBT" :: rel) := by
  have laid := first.get?_bundle lawful rel
  exact ⟨laid.trans (second.get?_bundle lawful rel).symm, laid⟩

end

/-- The home directory with this archive and a bundle of an earlier run. -/
def staleTree : FileTree :=
  ⟨[(["home"], .directory), (["home", "a.zip"], .file 0o644 sampleArchive),
    (["home", "WBT"], .directory), (["home", "WBT", "f"], .file 0o755 "older".toUTF8),
    (["home", "WBT", "old.txt"], .file 0o644 "stale".toUTF8)]⟩

theorem bundle_follows_archive_stale :
    letI := homeUser
    ∃ v₁ v₂, Zip.reader.Lawful ∧ Unpacked Zip.reader "a.zip" "." sampleArchive staleTree v₁ ∧
      Unpacked Zip.reader "/home/a.zip" "/out" sampleArchive sampleTree v₂ ∧
        v₁.get? ["home", "WBT", "f"] = v₂.get? ["out", "WBT", "f"] ∧
          v₁.get? ["home", "WBT", "f"] =
            Zip.laidOut (Zip.entries Zip.reader sampleArchive) ["WBT", "f"] := by
  let _ : User := homeUser
  have first : Unpacked Zip.reader "a.zip" "." sampleArchive staleTree
      ((unpack Zip.reader "a.zip" "." (join "." "WBT")).run staleTree).2 :=
    .of_forward (by decide +kernel)
      (read?_of_find (by decide +kernel) (rfl : staleTree.get? ["home", "a.zip"] = _)) (by decide +kernel)
      (by decide +kernel) (run_eq_ok (by decide +kernel))
  have second : Unpacked Zip.reader "/home/a.zip" "/out" sampleArchive sampleTree
      ((unpack Zip.reader "/home/a.zip" "/out" (join "/out" "WBT")).run sampleTree).2 :=
    .of_forward (by decide)
      (read?_of_find (by decide +kernel) (rfl : sampleTree.get? ["home", "a.zip"] = _)) (by decide +kernel)
      (by decide +kernel) (run_eq_ok (by decide +kernel))
  exact ⟨_, _, Zip.lawful_reader, first, second,
    bundle_follows_archive Zip.lawful_reader first second ["f"]⟩

/-- The path of a root may lead into a missing directory and back out of it. The bundle directory is then
not found by its path, and nothing is cleared away before the archive is unpacked over it. -/
theorem stale_bundle_survives :
    ¬∀ [User] (lib : Zip.Library) (archive root : String) (bytes : ByteArray) (t₁ t₂ v₁ v₂ : FileTree),
      lib.Lawful → t₁.WellFormed → t₂.WellFormed →
        t₁.read? archive = some bytes → t₂.read? archive = some bytes →
          (unpack lib archive root (join root "WBT")).run t₁ = (.ok (), v₁) →
            (unpack lib archive root (join root "WBT")).run t₂ = (.ok (), v₂) →
              ∀ rel, v₁.get? (placeOf (join root "WBT") ++ rel) =
                v₂.get? (placeOf (join root "WBT") ++ rel) := by
  intro alike
  let _ : User := homeUser
  let after (t : FileTree) := ((unpack Zip.reader "a.zip" "x/.." (join "x/.." "WBT")).run t).2
  have same := alike Zip.reader "a.zip" "x/.." sampleArchive staleTree sampleTree (after staleTree)
    (after sampleTree) Zip.lawful_reader (by decide +kernel) (by decide)
    (read?_of_find (by decide +kernel) (rfl : staleTree.get? ["home", "a.zip"] = _))
    (read?_of_find (by decide +kernel) (rfl : sampleTree.get? ["home", "a.zip"] = _))
    (run_eq_ok (by decide +kernel)) (run_eq_ok (by decide +kernel)) ["old.txt"]
  exact absurd same (by decide +kernel)

end Bundle

end ToolWrappers
