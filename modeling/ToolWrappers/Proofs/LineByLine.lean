import ToolWrappers.Proofs.Filing

/-! Reading and filing in one pass. What a line does depends on the lines after it only through its
docstring, so a pass can be cut wherever no docstring is open. -/

namespace ToolWrappers

section

variable {ε α β : Type} {x : Except ε α} {f : α → Except ε β}

theorem ok_bind (a : α) (f : α → Except ε β) : Except.ok a >>= f = f a := rfl

theorem bind_eq_ok {b : β} : x >>= f = .ok b ↔ ∃ a, x = .ok a ∧ f a = .ok b := by
  constructor
  · intro h
    cases x with
    | error e => cases h
    | ok a => exact ⟨a, rfl, h⟩
  · rintro ⟨a, rfl, h⟩
    exact h

theorem bind_eq_error {e : ε} :
    x >>= f = .error e ↔ x = .error e ∨ ∃ a, x = .ok a ∧ f a = .error e := by
  constructor
  · intro h
    cases x with
    | error e =>
        cases h
        exact .inl rfl
    | ok a => exact .inr ⟨a, rfl, h⟩
  · rintro (rfl | ⟨a, rfl, h⟩)
    · rfl
    · exact h

end

variable {lines rest : List (List Char)} {line : List Char}

theorem DocLine.isBanner_of_isDefinition (h : DocLine.isDefinition line = true) :
    Banner.isBanner line = false := by
  cases shaped : Banner.isBanner line with
  | false => rfl
  | true =>
      rw [DocLine.isDefinition_of_isBanner shaped] at h
      cases h

namespace Docstring

variable {d : Docstring}

theorem scan?_append (h : scan? lines = some d) (more : List (List Char)) :
    scan? (lines ++ more) = some d := by
  induction lines generalizing d with
  | nil => cases h
  | cons line rest ih =>
      rw [scan?] at h
      rw [List.cons_append, scan?]
      cases part : DocLine.ofLine (Text.trim line) with
      | close | oneLine summary =>
          simp only [part] at h ⊢
          exact h
      | definition =>
          simp only [part] at h
          cases h
      | opening text | param text | other =>
          simp only [part] at h ⊢
          obtain ⟨inner, scanned, same⟩ := Option.map_eq_some_iff.mp h
          rw [ih scanned, Option.map_some, same]

/-- A docstring that has not ended before a definition never ends. -/
theorem scan?_append_definition (defines : DocLine.isDefinition (Text.trim line) = true)
    (lines rest : List (List Char)) : scan? (lines ++ line :: rest) = scan? lines := by
  induction lines with
  | nil => simp only [List.nil_append, scan?, DocLine.ofLine_of_isDefinition defines]
  | cons first lines ih => rw [List.cons_append, scan?, ih, scan?]

theorem length_le_of_scan? (h : scan? lines = some d) : d.length ≤ lines.length := by
  induction lines generalizing d with
  | nil => cases h
  | cons line rest ih =>
      obtain ⟨_, ends | ⟨inner, scanned, goes⟩⟩ := scan?_cons_eq_some h
      · rw [ends, List.length_cons]
        omega
      · have within := ih scanned
        rw [goes, List.length_cons]
        omega

end Docstring

namespace Item

variable {settings : Settings} {number length : Nat} {found : Tool} {items : List Item}

theorem readTool_append (h : readTool number line rest = .ok (found, length))
    (more : List (List Char)) : readTool number line (rest ++ more) = .ok (found, length) := by
  obtain ⟨d, doc, read, scanned, rfl⟩ := readTool_eq_ok h
  simp only [readTool, read, Docstring.scan?_append scanned]

theorem readTool_eq_error {e : CatalogueError} (h : readTool number line rest = .error e) :
    Definition.read? line = none ∧ e = .malformedDefinition number (.ofList line) ∨
      ∃ d, Definition.read? line = some d ∧ Docstring.scan? rest = none ∧
        e = .unterminatedDocstring number d.name := by
  unfold readTool at h
  split at h
  · rename_i malformed
    cases h
    exact .inl ⟨malformed, rfl⟩
  · rename_i d read
    split at h
    · rename_i endless
      cases h
      exact .inr ⟨d, read, endless, rfl⟩
    · cases h

/-- The item on one line, if there is one, and how many of the lines after it are its docstring. -/
def atLine (settings : Settings) (number : Nat) (line : List Char) (rest : List (List Char)) :
    Except CatalogueError (List Item × Nat) :=
  match settings.toolbox? (.ofList (Text.trim line)) with
  | some entry => .ok ([.toolbox (.ofList (Text.trim line)) entry], 0)
  | none =>
    if Banner.isBanner (Text.trim line) then
      .ok ([.banner (.ofList (Text.trim line)) number], 0)
    else if DocLine.isDefinition (Text.trim line) then
      (readTool number (Text.trim line) rest).map fun (found, length) => ([.tool found], length)
    else .ok ([], 0)

inductive Part (settings : Settings) (line : List Char) : Prop
  | toolbox {entry : Toolbox} :
      settings.toolbox? (.ofList (Text.trim line)) = some entry → Part settings line
  | banner :
      settings.toolbox? (.ofList (Text.trim line)) = none →
      Banner.isBanner (Text.trim line) = true → Part settings line
  | definition :
      settings.toolbox? (.ofList (Text.trim line)) = none →
      DocLine.isDefinition (Text.trim line) = true → Part settings line
  | other :
      settings.toolbox? (.ofList (Text.trim line)) = none →
      Banner.isBanner (Text.trim line) = false →
      DocLine.isDefinition (Text.trim line) = false → Part settings line

theorem part (settings : Settings) (line : List Char) : Part settings line := by
  cases mapped : settings.toolbox? (.ofList (Text.trim line)) with
  | some entry => exact .toolbox mapped
  | none =>
      cases shaped : Banner.isBanner (Text.trim line) with
      | true => exact .banner mapped shaped
      | false =>
          cases defines : DocLine.isDefinition (Text.trim line) with
          | true => exact .definition mapped defines
          | false => exact .other mapped shaped defines

theorem atLine_toolbox {entry : Toolbox}
    (mapped : settings.toolbox? (.ofList (Text.trim line)) = some entry) :
    atLine settings number line rest = .ok ([.toolbox (.ofList (Text.trim line)) entry], 0) := by
  simp only [atLine, mapped]

theorem atLine_banner (unmapped : settings.toolbox? (.ofList (Text.trim line)) = none)
    (shaped : Banner.isBanner (Text.trim line) = true) :
    atLine settings number line rest = .ok ([.banner (.ofList (Text.trim line)) number], 0) := by
  simp only [atLine, unmapped, shaped, if_true]

theorem atLine_definition (unmapped : settings.toolbox? (.ofList (Text.trim line)) = none)
    (defines : DocLine.isDefinition (Text.trim line) = true) :
    atLine settings number line rest =
      (readTool number (Text.trim line) rest).map fun (found, length) => ([.tool found], length) := by
  simp only [atLine, unmapped, DocLine.isBanner_of_isDefinition defines, defines,
    Bool.false_eq_true, if_false, if_true]

theorem atLine_other (unmapped : settings.toolbox? (.ofList (Text.trim line)) = none)
    (plain : Banner.isBanner (Text.trim line) = false)
    (silent : DocLine.isDefinition (Text.trim line) = false) :
    atLine settings number line rest = .ok ([], 0) := by
  simp only [atLine, unmapped, plain, silent, Bool.false_eq_true, if_false]

/-- What stands on a line that can be read. Only a definition looks at the lines after it. -/
inductive FoundAt (settings : Settings) (number : Nat) (line : List Char)
    (rest : List (List Char)) : List Item × Nat → Prop
  | toolbox {entry : Toolbox} :
      settings.toolbox? (.ofList (Text.trim line)) = some entry →
      FoundAt settings number line rest ([.toolbox (.ofList (Text.trim line)) entry], 0)
  | banner :
      settings.toolbox? (.ofList (Text.trim line)) = none →
      Banner.isBanner (Text.trim line) = true →
      FoundAt settings number line rest ([.banner (.ofList (Text.trim line)) number], 0)
  | tool {found : Tool} {length : Nat} :
      settings.toolbox? (.ofList (Text.trim line)) = none →
      DocLine.isDefinition (Text.trim line) = true →
      readTool number (Text.trim line) rest = .ok (found, length) →
      FoundAt settings number line rest ([.tool found], length)
  | other :
      settings.toolbox? (.ofList (Text.trim line)) = none →
      Banner.isBanner (Text.trim line) = false →
      DocLine.isDefinition (Text.trim line) = false →
      FoundAt settings number line rest ([], 0)

theorem foundAt_of_atLine {here : List Item × Nat}
    (h : atLine settings number line rest = .ok here) :
    FoundAt settings number line rest here := by
  cases part settings line with
  | toolbox mapped =>
      rw [atLine_toolbox mapped] at h
      cases h
      exact .toolbox mapped
  | banner unmapped shaped =>
      rw [atLine_banner unmapped shaped] at h
      cases h
      exact .banner unmapped shaped
  | definition unmapped defines =>
      rw [atLine_definition unmapped defines] at h
      cases read : readTool number (Text.trim line) rest with
      | error e =>
          rw [read] at h
          cases h
      | ok result =>
          rw [read] at h
          cases h
          exact .tool unmapped defines read
  | other unmapped plain silent =>
      rw [atLine_other unmapped plain silent] at h
      cases h
      exact .other unmapped plain silent

theorem atLine_append {here : List Item × Nat} (h : atLine settings number line rest = .ok here)
    (more : List (List Char)) : atLine settings number line (rest ++ more) = .ok here := by
  cases foundAt_of_atLine h with
  | toolbox mapped => exact atLine_toolbox mapped
  | banner unmapped shaped => exact atLine_banner unmapped shaped
  | other unmapped plain silent => exact atLine_other unmapped plain silent
  | tool unmapped defines read =>
      rw [atLine_definition unmapped defines, readTool_append read]
      rfl

/-- Nothing looks beyond the next definition. -/
theorem atLine_append_definition {next : List Char}
    (defines : DocLine.isDefinition (Text.trim next) = true) (rest more : List (List Char)) :
    atLine settings number line (rest ++ next :: more) = atLine settings number line rest := by
  simp only [atLine, readTool, Docstring.scan?_append_definition defines]

theorem length_le_of_atLine {here : List Item × Nat}
    (h : atLine settings number line rest = .ok here) : here.2 ≤ rest.length := by
  cases foundAt_of_atLine h with
  | toolbox | banner | other => exact Nat.zero_le _
  | tool _ _ read =>
      obtain ⟨d, doc, _, scanned, _⟩ := readTool_eq_ok read
      exact Docstring.length_le_of_scan? scanned

theorem readFrom_cons (settings : Settings) (number : Nat) (line : List Char)
    (rest : List (List Char)) :
    readFrom settings 0 number (line :: rest) =
      match atLine settings number line rest with
      | .error e => ([], some e)
      | .ok (items, length) =>
        (items ++ (readFrom settings length (number + 1) rest).1,
          (readFrom settings length (number + 1) rest).2) := by
  cases part settings line with
  | toolbox mapped => simp only [readFrom, mapped, atLine_toolbox mapped, List.singleton_append]
  | banner unmapped shaped =>
      simp only [readFrom, unmapped, shaped, if_true, atLine_banner unmapped shaped,
        List.singleton_append]
  | definition unmapped defines =>
      simp only [readFrom, unmapped, DocLine.isBanner_of_isDefinition defines, defines,
        Bool.false_eq_true, if_false, if_true, atLine_definition unmapped defines]
      cases readTool number (Text.trim line) rest <;> rfl
  | other unmapped plain silent =>
      simp only [readFrom, unmapped, plain, silent, Bool.false_eq_true, if_false,
        atLine_other unmapped plain silent, List.nil_append]

end Item

namespace Filing

variable {settings : Settings} {skip number : Nat} {f g : Filing}

/-- What these lines make of a filing. The numbers are those of `Item.readFrom`. -/
def readLines (settings : Settings) :
    Nat → Nat → List (List Char) → Filing → Except CatalogueError Filing
  | _, _, [], f => .ok f
  | skip + 1, number, _ :: rest, f => readLines settings skip (number + 1) rest f
  | 0, number, line :: rest, f =>
    Item.atLine settings number line rest >>= fun here =>
      here.1.foldlM add f >>= readLines settings here.2 (number + 1) rest

theorem readLines_cons_eq_ok :
    readLines settings 0 number (line :: rest) f = .ok g ↔
      ∃ here next, Item.atLine settings number line rest = .ok here ∧
        here.1.foldlM add f = .ok next ∧
        readLines settings here.2 (number + 1) rest next = .ok g := by
  simp only [readLines, bind_eq_ok, exists_and_left]

/-- Reading first and filing afterwards comes to the same. -/
theorem readLines_eq (settings : Settings) (skip number : Nat) (lines : List (List Char))
    (f : Filing) :
    readLines settings skip number lines f = (do
      let filing ← (Item.readFrom settings skip number lines).1.foldlM add f
      match (Item.readFrom settings skip number lines).2 with
      | some e => throw e
      | none => return filing) := by
  induction lines generalizing skip number f with
  | nil =>
      rw [readLines, Item.readFrom]
      rfl
  | cons line rest ih =>
      cases skip with
      | succ skip => rw [readLines, Item.readFrom, ih]
      | zero =>
          rw [readLines, Item.readFrom_cons]
          cases Item.atLine settings number line rest with
          | error e => rfl
          | ok here =>
              simp only [ok_bind, List.foldlM_append, bind_assoc]
              exact congrArg _ (funext fun next => ih here.2 (number + 1) next)

theorem readLines_congr {other : Settings} (same : other.toolboxes = settings.toolboxes)
    (skip number : Nat) (lines : List (List Char)) (f : Filing) :
    readLines other skip number lines f = readLines settings skip number lines f := by
  have table (line : String) : other.toolbox? line = settings.toolbox? line := by
    rw [Settings.toolbox?, same, Settings.toolbox?]
  induction lines generalizing skip number f with
  | nil => rfl
  | cons line rest ih =>
      cases skip with
      | succ skip => exact ih skip (number + 1) f
      | zero =>
          have first : Item.atLine other number line rest = Item.atLine settings number line rest := by
            simp only [Item.atLine, table]
          rw [readLines, readLines, first]
          refine congrArg _ (funext fun here => congrArg _ (funext fun next => ?_))
          exact ih here.2 (number + 1) next

/-- A pass that leaves no docstring open goes on as if it began there. -/
theorem readLines_append (within : skip ≤ lines.length)
    (h : readLines settings skip number lines f = .ok g) (more : List (List Char)) :
    readLines settings skip number (lines ++ more) f =
      readLines settings 0 (number + lines.length) more g := by
  induction lines generalizing skip number f with
  | nil =>
      cases Nat.le_zero.mp within
      cases h
      rfl
  | cons line rest ih =>
      have shift : number + (line :: rest).length = number + 1 + rest.length := by
        rw [List.length_cons]
        omega
      rw [List.cons_append, shift]
      cases skip with
      | succ skip => exact ih (Nat.le_of_succ_le_succ within) h
      | zero =>
          obtain ⟨here, next, found, filed, later⟩ := readLines_cons_eq_ok.mp h
          rw [readLines, Item.atLine_append found more, ok_bind, filed, ok_bind]
          exact ih (Item.length_le_of_atLine found) later

theorem readLines_passed (settings : Settings) (skip number : Nat)
    (passed lines : List (List Char)) (f : Filing) :
    readLines settings (passed.length + skip) number (passed ++ lines) f =
      readLines settings skip (number + passed.length) lines f := by
  induction passed generalizing number with
  | nil => rw [List.length_nil, Nat.zero_add, List.nil_append, Nat.add_zero]
  | cons line passed ih =>
      rw [List.length_cons, Nat.add_right_comm, List.cons_append, readLines, ih,
        Nat.add_assoc number, Nat.add_comm 1]

/-- A definition at which a pass ends, because it cannot be read or not be filed. Everything before
it is read and filed. -/
structure StopsAt (settings : Settings) (skip number : Nat) (f : Filing)
    (before : List (List Char)) (line : List Char) (rest : List (List Char)) (e : CatalogueError)
    (g : Filing) : Prop where
  within : skip ≤ before.length
  reads : readLines settings skip number before f = .ok g
  unmapped : settings.toolbox? (.ofList (Text.trim line)) = none
  defines : DocLine.isDefinition (Text.trim line) = true
  fails : (Item.readTool (number + before.length) (Text.trim line) rest >>= fun found =>
    g.add (.tool found.1)) = .error e

/-- Headers can always be filed, so only a definition can fail. -/
theorem stopsAt_of_first {e : CatalogueError}
    (h : (Item.atLine settings number line rest >>= fun here => here.1.foldlM add f) = .error e) :
    StopsAt settings 0 number f [] line rest e f := by
  cases Item.part settings line with
  | toolbox mapped =>
      rw [Item.atLine_toolbox mapped] at h
      cases h
  | banner unmapped shaped =>
      rw [Item.atLine_banner unmapped shaped] at h
      cases h
  | definition unmapped defines =>
      refine ⟨Nat.le_refl _, rfl, unmapped, defines, ?_⟩
      rw [Item.atLine_definition unmapped defines] at h
      rw [List.length_nil, Nat.add_zero, ← h]
      cases Item.readTool number (Text.trim line) rest with
      | error e => rfl
      | ok found => exact (bind_pure _).symm
  | other unmapped plain silent =>
      rw [Item.atLine_other unmapped plain silent] at h
      cases h

theorem StopsAt.cons {skip' : Nat} {f' : Filing} {first : List Char} {before : List (List Char)}
    {e : CatalogueError} (h : StopsAt settings skip' (number + 1) f' before line rest e g)
    (within : skip ≤ (first :: before).length)
    (reads : readLines settings skip number (first :: before) f = .ok g) :
    StopsAt settings skip number f (first :: before) line rest e g where
  within := within
  reads := reads
  unmapped := h.unmapped
  defines := h.defines
  fails := by
    rw [List.length_cons, Nat.add_comm before.length, ← Nat.add_assoc]
    exact h.fails

theorem exists_stopsAt {e : CatalogueError}
    (h : readLines settings skip number lines f = .error e) :
    ∃ before line rest g, lines = before ++ line :: rest ∧
      StopsAt settings skip number f before line rest e g := by
  -- Induction on the lines. A first line that could be read can still be read when the lines are
  -- cut before the failing definition, since no docstring before it reaches that far.
  induction lines generalizing skip number f with
  | nil => cases h
  | cons line rest ih =>
      cases skip with
      | succ skip =>
          obtain ⟨before, last, after, g, rfl, stops⟩ := ih h
          exact ⟨line :: before, last, after, g, rfl,
            stops.cons (Nat.succ_le_succ stops.within) stops.reads⟩
      | zero =>
          rcases bind_eq_error.mp h with unread | ⟨here, found, h⟩
          · exact ⟨[], line, rest, f, rfl, stopsAt_of_first (by rw [unread]; rfl)⟩
          · rcases bind_eq_error.mp h with unfiled | ⟨next, filed, later⟩
            · exact ⟨[], line, rest, f, rfl, stopsAt_of_first (by rw [found]; exact unfiled)⟩
            · obtain ⟨before, last, after, g, rfl, stops⟩ := ih later
              rw [Item.atLine_append_definition stops.defines] at found
              exact ⟨line :: before, last, after, g, rfl, stops.cons (Nat.zero_le _)
                (readLines_cons_eq_ok.mpr ⟨here, next, found, filed, stops.reads⟩)⟩

theorem StopsAt.line_eq {before : List (List Char)} {e : CatalogueError}
    (h : StopsAt settings skip number f before line rest e g) : e.line = number + before.length := by
  rcases bind_eq_error.mp h.fails with unread | ⟨found, read, unfiled⟩
  · rcases Item.readTool_eq_error unread with ⟨_, rfl⟩ | ⟨d, _, _, rfl⟩
    · rfl
    · rfl
  · obtain ⟨d, doc, _, _, same⟩ := Item.readTool_eq_ok read
    rcases add_tool_eq_error unfiled with ⟨_, rfl⟩ | ⟨header, headerLine, _, rfl⟩
    · rw [same]
      rfl
    · rw [same]
      rfl

end Filing

def Filing.catalogue (f : Filing) : Catalogue := ⟨f.sections⟩

theorem Catalogue.read_eq_readLines (settings : Settings) (text : String) :
    read settings text = Filing.catalogue <$>
      Filing.readLines settings settings.skipLines 1 (Text.lines text.toList) {} := by
  rw [Filing.readLines_eq, read]
  cases Item.readFrom settings settings.skipLines 1 (Text.lines text.toList) with
  | mk items fault =>
      dsimp only
      cases items.foldlM Filing.add {} with
      | error e => rfl
      | ok filing => cases fault <;> rfl

end ToolWrappers
