import ToolWrappers.Proofs.LineByLine

/-! Line numbers count lines and do nothing else. Lines that are read from a later number give the
same catalogue or the same error, with every line number moved; so a preamble matters through its
length only. -/

namespace ToolWrappers

/-! ### Moving all line numbers by the same distance -/

def Tool.movedBy (k : Nat) (t : Tool) : Tool := { t with line := t.line + k }

def Section.movedBy (k : Nat) (s : Section) : Section :=
  { s with tools := s.tools.map (·.movedBy k) }

def Catalogue.movedBy (k : Nat) (c : Catalogue) : Catalogue := ⟨c.sections.map (·.movedBy k)⟩

def CatalogueError.movedBy (k : Nat) : CatalogueError → CatalogueError
  | .malformedDefinition line text => .malformedDefinition (line + k) text
  | .unterminatedDocstring line tool => .unterminatedDocstring (line + k) tool
  | .noToolbox line tool => .noToolbox (line + k) tool
  | .unmappedToolbox line tool header headerLine =>
    .unmappedToolbox (line + k) tool header (headerLine + k)

/-- An error moves by itself, a result as `move` says. -/
def movedOutcome {α β : Type} (k : Nat) (move : α → β) :
    Except CatalogueError α → Except CatalogueError β
  | .error e => .error (e.movedBy k)
  | .ok a => .ok (move a)

def Item.movedBy (k : Nat) : Item → Item
  | .toolbox header entry => .toolbox header entry
  | .banner header line => .banner header (line + k)
  | .tool t => .tool (t.movedBy k)

def Destination.movedBy (k : Nat) : Destination → Destination
  | .nowhere => .nowhere
  | .file fileName => .file fileName
  | .unmapped header line => .unmapped header (line + k)

def Filing.movedBy (k : Nat) (f : Filing) : Filing :=
  ⟨f.sections.map (·.movedBy k), f.destination.movedBy k⟩

variable {settings : Settings} {k number : Nat} {line : List Char} {rest : List (List Char)}

theorem movedOutcome_bind {α β γ δ : Type} {x : Except CatalogueError α}
    {f : α → Except CatalogueError β} {g : γ → Except CatalogueError δ} {move : α → γ}
    {move' : β → δ} (h : ∀ a, g (move a) = movedOutcome k move' (f a)) :
    movedOutcome k move x >>= g = movedOutcome k move' (x >>= f) := by
  cases x with
  | error e => rfl
  | ok a => exact h a

theorem Item.readTool_movedBy (k number : Nat) (line : List Char) (rest : List (List Char)) :
    readTool (number + k) line rest =
      movedOutcome k (fun found => (found.1.movedBy k, found.2)) (readTool number line rest) := by
  unfold readTool
  cases Definition.read? line with
  | none => rfl
  | some d => cases Docstring.scan? rest <;> rfl

theorem Item.atLine_movedBy (settings : Settings) (k number : Nat) (line : List Char)
    (rest : List (List Char)) :
    atLine settings (number + k) line rest =
      movedOutcome k (fun here => (here.1.map (·.movedBy k), here.2))
        (atLine settings number line rest) := by
  cases part settings line with
  | toolbox mapped =>
      rw [atLine_toolbox mapped, atLine_toolbox mapped]
      rfl
  | banner unmapped shaped =>
      rw [atLine_banner unmapped shaped, atLine_banner unmapped shaped]
      rfl
  | definition unmapped defines =>
      rw [atLine_definition unmapped defines, atLine_definition unmapped defines, readTool_movedBy]
      cases readTool number (Text.trim line) rest <;> rfl
  | other unmapped plain silent =>
      rw [atLine_other unmapped plain silent, atLine_other unmapped plain silent]
      rfl

namespace Filing

theorem openSection_movedBy (k : Nat) (f : Filing) (header : String) (entry : Toolbox) :
    (f.movedBy k).openSection header entry = (f.openSection header entry).movedBy k := by
  have names : (f.movedBy k).sections.any (·.fileName = entry.fileName) =
      f.sections.any (·.fileName = entry.fileName) := List.any_map
  unfold openSection
  rw [names]
  split
  · rfl
  · simp only [movedBy, List.map_append]
    rfl

theorem addTool_movedBy (k : Nat) (f : Filing) (fileName : String) (t : Tool) :
    (f.movedBy k).addTool fileName (t.movedBy k) = (f.addTool fileName t).movedBy k := by
  simp only [addTool, movedBy, List.map_map]
  congr 1
  refine List.map_congr_left fun s _ => ?_
  by_cases same : s.fileName = fileName <;>
    simp only [Function.comp_apply, Section.movedBy, same, if_true, if_false, List.map_append,
      List.map_cons, List.map_nil]

theorem add_movedBy (k : Nat) (f : Filing) (item : Item) :
    (f.movedBy k).add (item.movedBy k) = movedOutcome k (movedBy k) (f.add item) := by
  cases item with
  | toolbox header entry => exact congrArg Except.ok (openSection_movedBy k f header entry)
  | banner header line => rfl
  | tool t =>
      obtain ⟨sections, destination⟩ := f
      cases destination with
      | nowhere => rfl
      | file fileName => exact congrArg Except.ok (addTool_movedBy k _ fileName t)
      | unmapped header line => rfl

theorem foldlM_add_movedBy (k : Nat) (f : Filing) (items : List Item) :
    (items.map (·.movedBy k)).foldlM add (f.movedBy k) =
      movedOutcome k (movedBy k) (items.foldlM add f) := by
  induction items generalizing f with
  | nil => rfl
  | cons item items ih =>
      rw [List.map_cons, List.foldlM_cons, List.foldlM_cons, add_movedBy]
      exact movedOutcome_bind ih

theorem readLines_movedBy (settings : Settings) (k skip number : Nat) (lines : List (List Char))
    (f : Filing) :
    readLines settings skip (number + k) lines (f.movedBy k) =
      movedOutcome k (movedBy k) (readLines settings skip number lines f) := by
  induction lines generalizing skip number f with
  | nil => rfl
  | cons line rest ih =>
      cases skip with
      | succ skip =>
          rw [readLines, readLines, Nat.add_right_comm]
          exact ih skip (number + 1) f
      | zero =>
          rw [readLines, readLines, Item.atLine_movedBy]
          refine movedOutcome_bind fun here => ?_
          rw [foldlM_add_movedBy]
          refine movedOutcome_bind fun next => ?_
          rw [Nat.add_right_comm]
          exact ih here.2 (number + 1) next

end Filing

theorem Filing.catalogue_readLines_moved (settings : Settings) (k skip : Nat)
    (lines : List (List Char)) :
    catalogue <$> readLines settings skip (1 + k) lines {} =
      movedOutcome k (·.movedBy k) (catalogue <$> readLines settings skip 1 lines {}) := by
  have moved : readLines settings skip (1 + k) lines {} = _ :=
    readLines_movedBy settings k skip 1 lines {}
  rw [moved]
  cases readLines settings skip 1 lines {} <;> rfl

/-- A preamble of complete lines that is passed over changes line numbers only, whatever it holds. -/
theorem preamble_moves_lines (settings : Settings) (n : Nat) {preamble : String}
    (complete : Text.Complete preamble.toList) {k : Nat}
    (counted : (Text.lines preamble.toList).length = k) (text : String) :
    Catalogue.read { settings with skipLines := k + n } (preamble ++ text) =
      movedOutcome k (·.movedBy k) (Catalogue.read { settings with skipLines := n } text) := by
  rw [Catalogue.read_eq_readLines, Catalogue.read_eq_readLines, String.toList_append,
    Text.lines_append_of_complete complete, ← counted, Filing.readLines_passed,
    ← Filing.catalogue_readLines_moved]
  congr 1
  apply Filing.readLines_congr
  rfl

/-- A preamble with a definition that cannot be read and half of a docstring. -/
def brokenPreamble : List String := ["def run(self:", "# Data Tools #", "def f(i):", "\"\"\"Open."]

def strayLines : List String := ["# Data Tools #", "# Strange #", "def g(i):", "\"\"\""]

theorem preamble_moves_lines_of_strayLines :
    Text.Complete (Text.unlines brokenPreamble).toList ∧
      (Text.lines (Text.unlines brokenPreamble).toList).length = 4 ∧
      Catalogue.read { skipLines := 0 } (Text.unlines strayLines) =
        .error (.unmappedToolbox 3 "g" "# Strange #" 2) ∧
      Catalogue.read { skipLines := 4 } (Text.unlines brokenPreamble ++ Text.unlines strayLines) =
        .error (.unmappedToolbox 7 "g" "# Strange #" 6) := by
  have complete : Text.Complete (Text.unlines brokenPreamble).toList := by decide +kernel
  have counted : (Text.lines (Text.unlines brokenPreamble).toList).length = 4 := by decide +kernel
  have alone : Catalogue.read { skipLines := 0 } (Text.unlines strayLines) =
      .error (.unmappedToolbox 3 "g" "# Strange #" 2) := by
    rw [Catalogue.read_unlines _ (by decide +kernel)]
    decide +kernel
  refine ⟨complete, counted, alone, ?_⟩
  have moved := preamble_moves_lines {} 0 complete counted (Text.unlines strayLines)
  rw [alone] at moved
  exact moved

end ToolWrappers
