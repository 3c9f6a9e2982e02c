import Mathlib.Data.List.Basic
import ToolWrappers.Bundle.Download
import ToolWrappers.PackageLayout
import ToolWrappers.Proofs.Places

/-! The name under which a bundle is kept, by the parts of its URL. It is the last segment of the path, and
it lies in the root unless it is a name of dots; a URL without a path passes its authority for one. -/

namespace ToolWrappers

namespace Bundle

/-- A text without these characters. -/
def Free (of : List Char) (text : String) : Prop := ∀ c ∈ of, c ∉ text.toList

instance (of : List Char) (text : String) : Decidable (Free of text) :=
  -- One test per character listed, not one per character there is.
  List.decidableBAll _ of

/-- A URL in its parts. Each segment of the path stands behind a slash; only the query and the fragment
may hold further slashes and signs. -/
structure Url where
  scheme : String
  authority : String
  segments : List String
  query? : Option String := none
  fragment? : Option String := none
  scheme_free : Free [':', '/', '?', '#'] scheme := by decide
  authority_free : Free ['/', '?', '#'] authority := by decide
  segments_free : ∀ segment ∈ segments, Free ['/', '?', '#'] segment := by decide
  query_free : ∀ query ∈ query?, Free ['#'] query := by decide

namespace Url

/-- The path as written: empty, or from its first slash on. -/
def path (u : Url) : String := String.join (u.segments.map ("/" ++ ·))

/-- The URL up to its query. -/
def location (u : Url) : String := u.scheme ++ "://" ++ u.authority ++ u.path

/-- The query and the fragment behind their signs. -/
def trailer (u : Url) : String :=
  (u.query?.elim "" ("?" ++ ·)) ++ u.fragment?.elim "" ("#" ++ ·)

def text (u : Url) : String := u.location ++ u.trailer

/-- The last segment of the path, if it names a file. -/
def fileName? (u : Url) : Option String := u.segments.getLast?.filter fun name => Path.IsOrdinary name

/-- What stands behind the last slash before the query. Without a path this is the authority. -/
def lastPart (u : Url) : String := u.segments.getLast?.getD u.authority

variable {u : Url}

theorem lastPart_free (u : Url) : Free ['/', '?', '#'] u.lastPart := by
  unfold lastPart
  cases last : u.segments.getLast? with
  | none => exact u.authority_free
  | some segment => exact u.segments_free segment (List.mem_of_getLast? last)

theorem exists_location_eq (u : Url) :
    ∃ lead, u.location.toList = lead ++ '/' :: u.lastPart.toList := by
  unfold location lastPart path
  rcases List.eq_nil_or_concat u.segments with none | ⟨init, segment, split⟩
  · exact ⟨(u.scheme ++ ":/").toList, by simp [none]⟩
  · exact ⟨(u.scheme ++ "://" ++ u.authority ++ String.join (init.map ("/" ++ ·))).toList,
      by simp [split]⟩

theorem location_free (u : Url) : Free ['?', '#'] u.location := by
  intro c sign member
  have plain : c ∉ "://".toList := (by decide : Free ['?', '#'] "://") c sign
  simp only [location, path, String.toList_append, String.toList_join, List.mem_append, List.mem_flatMap,
    List.mem_map] at member
  rcases member with ((scheme | between) | authority) | ⟨_, ⟨segment, inside, rfl⟩, part⟩
  · exact u.scheme_free c ((by decide : ['?', '#'] ⊆ [':', '/', '?', '#']) sign) scheme
  · exact plain between
  · exact u.authority_free c (List.mem_cons_of_mem '/' sign) authority
  · rw [String.toList_append, List.mem_append] at part
    rcases part with slash | here
    · exact plain ((by decide : "/".toList ⊆ "://".toList) slash)
    · exact u.segments_free segment inside c (List.mem_cons_of_mem '/' sign) here

/-- Neither the query nor the fragment is looked at. -/
theorem withoutQuery_text (u : Url) : withoutQuery u.text.toList = u.location.toList := by
  have inside : ∀ c ∈ u.location.toList, (c ≠ '?' && c ≠ '#') = true := by
    intro c member
    have free := u.location_free
    simpa using ⟨ne_of_mem_of_not_mem member (free '?' (by decide)),
      ne_of_mem_of_not_mem member (free '#' (by decide))⟩
  have stop : u.trailer.toList.takeWhile (fun c => c ≠ '?' && c ≠ '#') = [] := by
    unfold trailer
    cases u.query? <;> cases u.fragment? <;> simp
  rw [withoutQuery, text, String.toList_append, List.takeWhile_append_of_pos inside, stop,
    List.append_nil]

end Url

/-- What stands behind the last slash. -/
theorem takeWhile_reverse_append {lead last : List Char} (single : '/' ∉ last) :
    ((lead ++ '/' :: last).reverse.takeWhile (· ≠ '/')).reverse = last := by
  have inside : ∀ c ∈ last.reverse, decide (c ≠ '/') = true := fun c member =>
    decide_eq_true (ne_of_mem_of_not_mem (List.mem_reverse.mp member) single)
  rw [List.reverse_append, List.reverse_cons, List.append_assoc, List.takeWhile_append_of_pos inside,
    List.singleton_append, List.takeWhile_cons_of_neg (by decide), List.append_nil, List.reverse_reverse]

theorem archiveName_text (u : Url) : archiveName u.text =
    if u.lastPart = "" then .error (.noArchiveName u.text) else .ok u.lastPart := by
  obtain ⟨lead, shape⟩ := u.exists_location_eq
  have single : '/' ∉ u.lastPart.toList := u.lastPart_free '/' (by decide)
  simp only [archiveName, u.withoutQuery_text, shape, takeWhile_reverse_append single,
    String.ofList_toList, String.toList_eq_nil_iff]

/-- The name that the path gives, and none without such a name. -/
def Url.named (u : Url) : Except Failure String :=
  match u.fileName? with
  | some name => .ok name
  | none => .error (.noArchiveName u.text)

/-- A name is derived as the path gives it, unless there is an authority and no path, or the name is one of
dots. -/
theorem archiveName_eq_named_iff (u : Url) : archiveName u.text = u.named ↔
    (u.segments = [] → u.authority = "") ∧ u.lastPart ≠ "." ∧ u.lastPart ≠ ".." := by
  rw [archiveName_text]
  have free := u.lastPart_free '/' (by decide)
  cases last : u.segments.getLast? with
  | none =>
      have pathless : u.segments = [] := List.getLast?_eq_none_iff.mp last
      by_cases empty : u.authority = "" <;>
        simp [Url.named, Url.fileName?, Url.lastPart, pathless, empty]
  | some segment =>
      have part : u.lastPart = segment := by rw [Url.lastPart, last, Option.getD_some]
      have filled : u.segments ≠ [] := by
        intro pathless
        simp [pathless] at last
      have ordinary : Path.IsOrdinary segment ↔ segment ≠ "" ∧ segment ≠ "." ∧ segment ≠ ".." :=
        ⟨fun h => ⟨h.nonempty, h.ne_dot, h.ne_dots⟩, fun ⟨a, b, c⟩ => ⟨a, b, c, part ▸ free⟩⟩
      have named : u.fileName? = if Path.IsOrdinary segment then some segment else none := by
        simp [Url.fileName?, last, Option.filter]
      rw [part, Url.named, named]
      by_cases usable : Path.IsOrdinary segment
      · obtain ⟨named, dot, dots⟩ := ordinary.mp usable
        rw [if_pos usable, if_neg named]
        simp [filled, dot, dots]
      · rw [if_neg usable]
        by_cases empty : segment = ""
        · rw [if_pos empty]
          simp [filled, empty]
        · have dots : ¬(segment ≠ "." ∧ segment ≠ "..") := fun apart => usable (ordinary.mpr ⟨empty, apart⟩)
          rw [if_neg empty]
          simp [filled, dots]

/-- From wherever the root is reached, an archive lies in it under its name, unless the name is one of
dots. -/
theorem resolve_archive_iff (l : PackageLayout) {name : String} (single : '/' ∉ name.toList)
    (filled : name ≠ "") (here : Place) :
    Path.resolve here (Path.names (l.archive name)) = Path.resolve here (Path.names l.root) ++ [name] ↔
      name ∉ [".", ".."] := by
  have relative := Path.isAbsolute_of_single single
  rw [PackageLayout.archive, Path.resolve_names_join relative, Path.names_of_single single,
    Path.resolve_cons, Path.resolve_nil]
  generalize Path.resolve here (Path.names l.root) = top
  by_cases usual : name ∈ [".", ".."]
  · -- A name of dots leads no deeper.
    have shallow : (Path.advance top name).length ≤ top.length := by
      simp only [List.mem_cons, List.not_mem_nil, or_false] at usual
      rcases usual with rfl | rfl <;> simp [Path.advance]
    refine iff_of_false (fun same => ?_) fun other => other usual
    rw [same, List.length_append, List.length_singleton] at shallow
    omega
  · obtain ⟨dot, dots⟩ : name ≠ "." ∧ name ≠ ".." := by simpa using usual
    exact iff_of_true (Path.advance_of_isOrdinary ⟨filled, dot, dots, single⟩) usual

/-- The name of an archive is what stands behind the last slash before the query, and a URL without such a
name is refused. It is the name that the path gives if and only if the URL has a path or no authority, and
the name is none of dots; the archive then lies in the root itself. -/
theorem archive_named_by_path (u : Url) (l : PackageLayout) :
    (archiveName u.text =
      if u.lastPart = "" then .error (.noArchiveName u.text) else .ok u.lastPart) ∧
    (archiveName u.text = u.named ↔
      (u.segments = [] → u.authority = "") ∧ u.lastPart ≠ "." ∧ u.lastPart ≠ "..") ∧
    ∀ name, archiveName u.text = .ok name →
      Path.isAbsolute (l.archive name) = Path.isAbsolute l.root ∧
      ∀ here, Path.resolve here (Path.names (l.archive name)) =
          Path.resolve here (Path.names l.root) ++ [name] ↔ name ∉ [".", ".."] := by
  refine ⟨archiveName_text u, archiveName_eq_named_iff u, fun name derived => ?_⟩
  rw [archiveName_text] at derived
  split at derived
  · cases derived
  · rename_i filled
    obtain rfl := Except.ok.inj derived
    have single : '/' ∉ u.lastPart.toList := u.lastPart_free '/' (by decide)
    exact ⟨Path.isAbsolute_join (Path.isAbsolute_of_single single), resolve_archive_iff l single filled⟩

/-- Slashes and signs in the query and in the fragment. -/
def Url.searched : Url where
  scheme := "https"
  authority := "example.com:8080"
  segments := ["WBT_Linux", "a.zip"]
  query? := some "x=/y?z/"
  fragment? := some "/..?#"

theorem archive_named_by_path_of_searched :
    archiveName "https://example.com:8080/WBT_Linux/a.zip?x=/y?z/#/..?#" = .ok "a.zip" ∧
      Path.resolve ["home"] (Path.names "../pkg/a.zip") = ["pkg", "a.zip"] := by
  obtain ⟨derived, -, inside⟩ := archive_named_by_path .searched (.ofRoot "../pkg" "work")
  have text : Url.searched.text = "https://example.com:8080/WBT_Linux/a.zip?x=/y?z/#/..?#" := by
    decide +kernel
  have named : archiveName Url.searched.text = .ok "a.zip" := derived.trans (by decide +kernel)
  have reached : Path.resolve ["home"] (Path.names "../pkg") = ["pkg"] := by decide +kernel
  have lies := ((inside "a.zip" named).2 ["home"]).mpr (by decide)
  change _ = Path.resolve ["home"] (Path.names "../pkg") ++ _ at lies
  rw [reached] at lies
  exact ⟨text ▸ named, lies⟩

/-- A URL without a path. -/
def Url.bare : Url where
  scheme := "https"
  authority := "example.com"
  segments := []

/-- The path leads back to the host's own directory. -/
def Url.retreating : Url where
  scheme := "https"
  authority := "example.com"
  segments := ["a", ".."]

/-- The host and a name of dots are taken for names of archives; the second one is no place in the root. -/
theorem host_and_dots_taken_for_names :
    (archiveName Url.bare.text = .ok "example.com" ∧ archiveName Url.bare.text ≠ Url.bare.named) ∧
      (archiveName Url.retreating.text = .ok ".." ∧
        archiveName Url.retreating.text ≠ Url.retreating.named ∧
        Path.resolve ["home"] (Path.names ((PackageLayout.ofRoot "pkg" "work").archive "..")) =
          ["home"]) := by
  decide +kernel

end Bundle

end ToolWrappers
