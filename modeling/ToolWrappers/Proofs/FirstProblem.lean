import ToolWrappers.Proofs.LineByLine
import ToolWrappers.Proofs.Placement

/-! Errors point at the first definition that cannot be used. Everything before it is accepted by
itself, and what is wrong with it can be told from its line, its docstring and the last header
before it. -/

namespace ToolWrappers

variable {settings : Settings} {skip number : Nat} {line : List Char}
  {rest lines : List (List Char)}

namespace Settings

def target (settings : Settings) (header : String) (line : Nat) : Destination :=
  match settings.toolbox? header with
  | some entry => .file entry.fileName
  | none => .unmapped header line

/-- Where the last header of these lines sends tools, if they went to `start` before. -/
inductive LastTarget (settings : Settings) (skip number : Nat) (lines : List (List Char))
    (start : Destination) : Destination → Prop
  | unchanged :
      (∀ j < lines.length, settings.headerAt? skip lines j = none) →
      LastTarget settings skip number lines start start
  | header {j : Nat} {header : String} :
      j < lines.length →
      settings.headerAt? skip lines j = some header →
      (∀ i, j < i → i < lines.length → settings.headerAt? skip lines i = none) →
      LastTarget settings skip number lines start (settings.target header (number + j))

theorem LastTarget.cons {skip' : Nat} {start d : Destination}
    (shift : ∀ j, settings.headerAt? skip (line :: rest) (j + 1) = settings.headerAt? skip' rest j)
    (h : LastTarget settings skip' (number + 1) rest
      (((settings.headerAt? skip (line :: rest) 0).map (settings.target · number)).getD start) d) :
    LastTarget settings skip number (line :: rest) start d := by
  have later {j : Nat} (silent : ∀ i, j ≤ i → i < rest.length → settings.headerAt? skip' rest i = none)
      {i : Nat} (after : j < i) (within : i < (line :: rest).length) :
      settings.headerAt? skip (line :: rest) i = none := by
    obtain ⟨i, rfl⟩ := Nat.exists_eq_add_one_of_ne_zero (Nat.ne_zero_of_lt after)
    rw [shift]
    exact silent i (Nat.le_of_lt_succ after) (Nat.lt_of_succ_lt_succ within)
  cases h with
  | unchanged silent =>
      cases first : settings.headerAt? skip (line :: rest) 0 with
      | none =>
          refine .unchanged fun i within => ?_
          cases i with
          | zero => exact first
          | succ i => exact later (fun i _ => silent i) (Nat.succ_pos i) within
      | some header => exact .header (Nat.succ_pos _) first fun i => later fun i _ => silent i
  | @header j header within found silent =>
      rw [Nat.add_right_comm, Nat.add_assoc]
      exact .header (Nat.succ_lt_succ within) ((shift j).trans found) fun i => later silent

theorem any_range_congr {f g : Nat → Bool} {n : Nat} (same : ∀ i < n, f i = g i) :
    (List.range n).any f = (List.range n).any g := by
  rw [Bool.eq_iff_iff, List.any_eq_true, List.any_eq_true]
  refine exists_congr fun i => and_congr_right fun member => ?_
  rw [same i (List.mem_range.mp member)]

theorem headerAt?_append_definition (defines : DocLine.isDefinition (Text.trim line) = true)
    {before : List (List Char)} {j : Nat} (earlier : j < before.length) (rest : List (List Char)) :
    settings.headerAt? skip (before ++ line :: rest) j = settings.headerAt? skip before j := by
  have hidden : settings.inDocstring skip (before ++ line :: rest) j =
      settings.inDocstring skip before j := by
    refine any_range_congr fun i here => ?_
    have cut : i + 1 ≤ before.length := Nat.le_trans here (Nat.le_of_lt earlier)
    rw [definesAt, definesAt, List.getElem?_append_left cut,
      List.drop_append_of_le_length cut, Docstring.scan?_append_definition defines]
  rw [headerAt?, headerAt?, hidden, List.getElem?_append_left earlier]

theorem headerAt?_of_banner {j : Nat} {banner : List Char} (within : skip ≤ j)
    (here : lines[j]? = some banner) (visible : settings.inDocstring skip lines j = false)
    (shaped : Banner.isBanner (Text.trim banner) = true) :
    settings.headerAt? skip lines j = some (.ofList (Text.trim banner)) := by
  simp [headerAt?, header?, Nat.not_lt.mpr within, visible, here, shaped]

/-- A header without an entry in the table is a banner that stands there. -/
theorem banner_of_headerAt? {j : Nat} {header : String}
    (found : settings.headerAt? skip lines j = some header)
    (unmapped : settings.toolbox? header = none) :
    skip ≤ j ∧ settings.inDocstring skip lines j = false ∧ ∃ banner, lines[j]? = some banner ∧
      header = .ofList (Text.trim banner) ∧ Banner.isBanner (Text.trim banner) = true := by
  unfold headerAt? at found
  split at found
  · cases found
  · rename_i reached
    simp only [Bool.or_eq_true, decide_eq_true_eq, not_or, Nat.not_lt, Bool.not_eq_true] at reached
    obtain ⟨banner, here, announces⟩ := Option.bind_eq_some_iff.mp found
    unfold header? at announces
    split at announces
    · rename_i shaped
      cases announces
      rw [unmapped, Option.isSome_none, Bool.false_or] at shaped
      exact ⟨reached.1, reached.2, banner, here, rfl, shaped⟩
    · cases announces

theorem last_header_unique {i j j' : Nat} {header header' : String} (earlier : j < i)
    (found : settings.headerAt? skip lines j = some header)
    (last : ∀ k, j < k → k < i → settings.headerAt? skip lines k = none) (earlier' : j' < i)
    (found' : settings.headerAt? skip lines j' = some header')
    (last' : ∀ k, j' < k → k < i → settings.headerAt? skip lines k = none) : j = j' := by
  rcases Nat.lt_trichotomy j j' with before | same | after
  · rw [last j' before earlier'] at found'
    cases found'
  · exact same
  · rw [last' j after earlier] at found
    cases found

end Settings

namespace Filing

variable {f g : Filing} {here : List Item × Nat}

theorem destination_add {item : Item} (h : f.add item = .ok g) :
    g.destination = item.redirect f.destination := by
  cases item with
  | toolbox header entry | banner header line =>
      cases h
      rfl
  | tool t =>
      obtain ⟨_, _, rfl⟩ := add_tool_eq_ok h
      rfl

/-- A line that is read sends tools where its header says, or leaves them where they went. -/
theorem destination_of_atLine (found : Item.atLine settings number line rest = .ok here)
    (filed : here.1.foldlM add f = .ok g) :
    g.destination = ((settings.header? (Text.trim line)).map (settings.target · number)).getD
      f.destination := by
  cases Item.foundAt_of_atLine found with
  | toolbox mapped =>
      cases filed
      simp [Settings.header?, Settings.target, mapped, openSection]
  | banner unmapped shaped =>
      cases filed
      simp [Settings.header?, Settings.target, unmapped, shaped]
  | @tool tool _ unmapped defines _ =>
      have plain := DocLine.isBanner_of_isDefinition defines
      have added : f.add (.tool tool) = .ok g := (bind_pure _).symm.trans filed
      simp [Settings.header?, unmapped, plain, destination_add added, Item.redirect]
  | other unmapped plain _ =>
      cases filed
      simp [Settings.header?, unmapped, plain]

/-- After a line that is read, headers are found as if the reading began after its docstring. -/
theorem headerAt?_of_atLine (found : Item.atLine settings number line rest = .ok here) (j : Nat) :
    settings.headerAt? 0 (line :: rest) (j + 1) = settings.headerAt? here.2 rest j := by
  cases Item.foundAt_of_atLine found with
  | toolbox mapped => exact Settings.headerAt?_silent (by simp [Settings.definesAt, mapped]) j
  | banner _ shaped =>
      have plain := DocLine.isDefinition_of_isBanner shaped
      exact Settings.headerAt?_silent (by simp [Settings.definesAt, plain]) j
  | tool unmapped defines read =>
      obtain ⟨d, doc, _, scanned, _⟩ := Item.readTool_eq_ok read
      have first : settings.definesAt 0 (line :: rest) 0 = true := by
        simp [Settings.definesAt, defines, unmapped]
      exact Settings.headerAt?_definition first scanned j
  | other _ _ silent => exact Settings.headerAt?_silent (by simp [Settings.definesAt, silent]) j

theorem lastTarget_of_readLines (h : readLines settings skip number lines f = .ok g) :
    settings.LastTarget skip number lines f.destination g.destination := by
  -- Induction on the lines: the header on the first line, if there is one, is the start for the rest.
  induction lines generalizing skip number f with
  | nil =>
      cases h
      exact .unchanged nofun
  | cons line rest ih =>
      cases skip with
      | succ skip =>
          have passed : settings.headerAt? (skip + 1) (line :: rest) 0 = none := by
            simp [Settings.headerAt?]
          refine .cons Settings.headerAt?_skipped ?_
          rw [passed]
          exact ih h
      | zero =>
          obtain ⟨here, next, found, filed, later⟩ := readLines_cons_eq_ok.mp h
          have announced : settings.headerAt? 0 (line :: rest) 0 =
            settings.header? (Text.trim line) := rfl
          refine .cons (headerAt?_of_atLine found) ?_
          rw [announced, ← destination_of_atLine found filed]
          exact ih later

end Filing

/-- What is wrong with the definition on a trimmed line, in the order in which it is looked for. -/
inductive Diagnosis (settings : Settings) (lines : List (List Char)) (i : Nat) (line : List Char) :
    CatalogueError → Prop
  | malformed :
      Definition.read? line = none →
      Diagnosis settings lines i line (.malformedDefinition (i + 1) (.ofList line))
  | unterminated {d : Definition} :
      Definition.read? line = some d →
      Docstring.scan? (lines.drop (i + 1)) = none →
      Diagnosis settings lines i line (.unterminatedDocstring (i + 1) d.name)
  | noToolbox {d : Definition} {doc : Docstring} :
      Definition.read? line = some d →
      Docstring.scan? (lines.drop (i + 1)) = some doc →
      (∀ j < i, settings.headerAt? settings.skipLines lines j = none) →
      Diagnosis settings lines i line (.noToolbox (i + 1) d.name)
  | unmappedToolbox {d : Definition} {doc : Docstring} {j : Nat} {banner : List Char} :
      Definition.read? line = some d →
      Docstring.scan? (lines.drop (i + 1)) = some doc →
      settings.skipLines ≤ j → j < i →
      lines[j]? = some banner →
      settings.inDocstring settings.skipLines lines j = false →
      Banner.isBanner (Text.trim banner) = true →
      settings.toolbox? (.ofList (Text.trim banner)) = none →
      (∀ k, j < k → k < i → settings.headerAt? settings.skipLines lines k = none) →
      Diagnosis settings lines i line
        (.unmappedToolbox (i + 1) d.name (.ofList (Text.trim banner)) (j + 1))

namespace Diagnosis

variable {i : Nat} {e e' : CatalogueError}

theorem unique (h : Diagnosis settings lines i line e) (h' : Diagnosis settings lines i line e') :
    e = e' := by
  cases h with
  | malformed unread => cases h' <;> simp_all
  | unterminated read endless => cases h' <;> simp_all
  | noToolbox read scanned silent =>
      cases h' with
      | malformed | unterminated | noToolbox => simp_all
      | unmappedToolbox _ _ within earlier here visible shaped =>
          have found := Settings.headerAt?_of_banner within here visible shaped
          rw [silent _ earlier] at found
          cases found
  | unmappedToolbox read scanned within earlier here visible shaped unmapped last =>
      have found := Settings.headerAt?_of_banner within here visible shaped
      cases h' with
      | malformed | unterminated => simp_all
      | noToolbox _ _ silent =>
          rw [silent _ earlier] at found
          cases found
      | unmappedToolbox read' _ within' earlier' here' visible' shaped' _ last' =>
          have found' := Settings.headerAt?_of_banner within' here' visible' shaped'
          obtain rfl := Settings.last_header_unique earlier found last earlier' found' last'
          rw [read] at read'
          rw [here] at here'
          cases read'
          cases here'
          rfl

end Diagnosis

theorem Filing.StopsAt.diagnosis {before : List (List Char)} {e : CatalogueError} {g : Filing}
    (h : StopsAt settings settings.skipLines 1 {} before line rest e g) :
    Diagnosis settings (before ++ line :: rest) before.length (Text.trim line) e := by
  have after : (before ++ line :: rest).drop (before.length + 1) = rest := by
    rw [← List.drop_drop, List.drop_left, List.drop_one, List.tail_cons]
  have local_header (j : Nat) (earlier : j < before.length) :
      settings.headerAt? settings.skipLines (before ++ line :: rest) j =
        settings.headerAt? settings.skipLines before j :=
    Settings.headerAt?_append_definition h.defines earlier rest
  have number := Nat.add_comm 1 before.length
  rcases bind_eq_error.mp h.fails with unread | ⟨found, read, unfiled⟩
  · rw [number] at unread
    rcases Item.readTool_eq_error unread with ⟨malformed, rfl⟩ | ⟨d, read, endless, rfl⟩
    · exact .malformed malformed
    · exact .unterminated read (after.symm ▸ endless)
  · obtain ⟨d, doc, read, scanned, same⟩ := Item.readTool_eq_ok read
    have scanned := after.symm ▸ scanned
    have target : settings.LastTarget settings.skipLines 1 before .nowhere g.destination :=
      lastTarget_of_readLines h.reads
    simp only [add, same, number] at unfiled
    generalize g.destination = destination at target unfiled
    cases target with
    | unchanged silent =>
        cases unfiled
        exact .noToolbox read scanned fun j earlier => (local_header j earlier).trans (silent j earlier)
    | @header j header earlier here last =>
        cases mapped : settings.toolbox? header with
        | some entry =>
            simp only [Settings.target, mapped] at unfiled
            cases unfiled
        | none =>
            have found := (local_header j earlier).trans here
            obtain ⟨within, visible, banner, at_j, rfl, shaped⟩ :=
              Settings.banner_of_headerAt? found mapped
            simp only [Settings.target, mapped, Nat.add_comm 1] at unfiled
            cases unfiled
            exact .unmappedToolbox read scanned within earlier at_j visible shaped mapped
              fun k later inside => (local_header k inside).trans (last k later inside)

/-- Everything before the line of the error is a catalogue, and what is wrong with the definition
there is the error and nothing else. -/
structure CatalogueError.IsFirstProblem (e : CatalogueError) (settings : Settings)
    (text : String) : Prop where
  within : settings.skipLines < e.line
  accepted : ∃ c, Catalogue.read settings
    (.ofList (Text.firstLines (e.line - 1) text.toList)) = .ok c
  diagnosed : ∃ line, (Text.lines text.toList)[e.line - 1]? = some line ∧
    DocLine.isDefinition (Text.trim line) = true ∧
    ∀ other, Diagnosis settings (Text.lines text.toList) (e.line - 1) (Text.trim line) other ↔
      other = e

theorem error_at_first_problem {settings : Settings} {text : String} {e : CatalogueError}
    (h : Catalogue.read settings text = .error e) : e.IsFirstProblem settings text := by
  have fails : Filing.readLines settings settings.skipLines 1 (Text.lines text.toList) {} =
      .error e := by
    rw [Catalogue.read_eq_readLines] at h
    cases read : Filing.readLines settings settings.skipLines 1 (Text.lines text.toList) {} with
    | error e' =>
        rw [read] at h
        cases h
        rfl
    | ok f =>
        rw [read] at h
        cases h
  obtain ⟨before, line, rest, g, split, stops⟩ := Filing.exists_stopsAt fails
  have position : e.line - 1 = before.length := by
    rw [stops.line_eq]
    omega
  have first : Text.lines (Text.firstLines (e.line - 1) text.toList) = before := by
    rw [Text.lines_firstLines, position, split, List.take_left]
  refine ⟨?_, ⟨g.catalogue, ?_⟩, line, ?_, stops.defines, fun other => ⟨?_, ?_⟩⟩
  · rw [stops.line_eq]
    exact Nat.lt_of_le_of_lt stops.within (Nat.lt_add_of_pos_left Nat.one_pos)
  · rw [Catalogue.read_eq_readLines, String.toList_ofList, first, stops.reads]
    rfl
  · rw [position, split, List.getElem?_append_right (Nat.le_refl _), Nat.sub_self,
      List.getElem?_cons_zero]
  · rw [position, split]
    exact fun found => found.unique stops.diagnosis
  · rintro rfl
    rw [position, split]
    exact stops.diagnosis

/-- A malformed definition in the preamble, a banner in a docstring, and a banner that counts. -/
def strangeLines : List String :=
  ["def broken", "# Data Tools #", "def f(i):", "\"\"\"Text.", "# Hidden #", "\"\"\"",
    "# Strange #", "", "def g(i):", "\"\"\"Text.\"\"\""]

theorem error_at_first_problem_of_strangeLines :
    Catalogue.read { skipLines := 1 } (Text.unlines strangeLines) =
        .error (.unmappedToolbox 9 "g" "# Strange #" 7) ∧
      (CatalogueError.unmappedToolbox 9 "g" "# Strange #" 7).IsFirstProblem { skipLines := 1 }
        (Text.unlines strangeLines) := by
  have fails : Catalogue.read { skipLines := 1 } (Text.unlines strangeLines) =
      .error (.unmappedToolbox 9 "g" "# Strange #" 7) := by
    rw [Catalogue.read_unlines _ (by decide +kernel)]
    decide +kernel
  exact ⟨fails, error_at_first_problem fails⟩

end ToolWrappers
