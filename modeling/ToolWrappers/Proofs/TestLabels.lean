import ToolWrappers.Script.Generated

/-! The label of a test as R reads it. A string has one escaped form, and R finds the end of it where the
label ends, whatever quotes and backslashes the label holds. -/

namespace ToolWrappers

/-- A single character is replaced wherever it stands. -/
theorem Text.replaceAll_singleton (c : Char) (new s : List Char) :
    Text.replaceAll [c] new s = s.flatMap fun x => if x = c then new else [x] := by
  rw [replaceAll, if_neg (List.cons_ne_nil c [])]
  induction s with
  | nil => rfl
  | cons x s ih =>
      rw [replaceFrom, List.flatMap_cons, ← ih]
      by_cases same : x = c
      · simp [same, startsWith, stripPrefix?]
      · simp [same, Ne.symm same, startsWith, stripPrefix?]

namespace TestStub

/-- The characters that stand behind a backslash in a string. -/
def isSpecial (c : Char) : Bool := c = '\\' || c = '"'

/-- Reads an R string from behind its opening quote: the text that it denotes, and what stands behind its
closing quote. No other escapes are read than those of a backslash and of a quote. -/
def readString? : List Char → Option (List Char × List Char)
  | '"' :: rest => some ([], rest)
  | '\\' :: c :: rest => if isSpecial c then (readString? rest).map (Prod.map (c :: ·) id) else none
  | c :: rest => if isSpecial c then none else (readString? rest).map (Prod.map (c :: ·) id)
  | [] => none

variable {c : Char} {s text rest : List Char}

theorem readString?_escaped (special : isSpecial c = true) :
    readString? ('\\' :: c :: rest) = (readString? rest).map (Prod.map (c :: ·) id) :=
  if_pos special

theorem readString?_plain (plain : ¬isSpecial c = true) :
    readString? (c :: rest) = (readString? rest).map (Prod.map (c :: ·) id) := by
  rw [readString?, if_neg plain]
  · rintro rfl
    exact plain rfl
  · rintro _ _ rfl _
    exact plain rfl

theorem escape_cons (c : Char) (s : List Char) :
    escape (c :: s) = (if isSpecial c then ['\\', c] else [c]) ++ escape s := by
  rw [escape, List.flatMap_cons]
  rfl

/-- Escaping is one replacement of every backslash, and then one of every quote. -/
theorem escape_eq_replaceAll (s : List Char) :
    escape s = Text.replaceAll ['"'] ['\\', '"'] (Text.replaceAll ['\\'] ['\\', '\\'] s) := by
  rw [Text.replaceAll_singleton, Text.replaceAll_singleton, List.flatMap_assoc, escape]
  congr 1
  funext c
  by_cases slash : c = '\\'
  · simp [slash]
  · by_cases quote : c = '"' <;> simp [slash, quote]

/-- A string denotes a text exactly if it is the escaped text and its closing quote. -/
theorem readString?_eq_some_iff : readString? s = some (text, rest) ↔ s = escape text ++ '"' :: rest := by
  constructor
  · intro read
    fun_induction readString? s generalizing text with
    | case1 => cases read; rfl
    | case2 c s special ih =>
        obtain ⟨⟨inner, after⟩, found, same⟩ := Option.map_eq_some_iff.mp read
        cases same
        rw [ih found, escape_cons, if_pos special]
        rfl
    | case3 => cases read
    | case4 => cases read
    | case5 c s _ _ plain ih =>
        obtain ⟨⟨inner, after⟩, found, same⟩ := Option.map_eq_some_iff.mp read
        cases same
        rw [ih found, escape_cons, if_neg plain]
        rfl
    | case6 => cases read
  · rintro rfl
    induction text with
    | nil => rfl
    | cons c text ih =>
        rw [escape_cons, List.append_assoc]
        by_cases special : isSpecial c = true
        · rw [if_pos special, List.cons_append, List.singleton_append, readString?_escaped special, ih]
          rfl
        · rw [if_neg special, List.singleton_append, readString?_plain special, ih]
          rfl

end TestStub

/-- Behind the opening quote of its label, a test file is read as a string that denotes the label and ends
directly before the body of the test. -/
theorem test_label_read_back (t : Tool) (wrapper : String) :
    ∃ label, (Text.unlines (TestStub.lines t wrapper)).toList =
        ("context(\"" ++ wrapper ++ "\")\n\ntest_that(\"").toList ++ label ∧
      TestStub.readString? label = some (t.label.toList,
        (", \x7b\n" ++ Text.unlines ((TestStub.lines t wrapper).drop 3)).toList) := by
  refine ⟨TestStub.escape t.label.toList ++ '"' ::
    (", \x7b\n" ++ Text.unlines ((TestStub.lines t wrapper).drop 3)).toList, ?_,
    TestStub.readString?_eq_some_iff.mpr rfl⟩
  have label : (TestStub.labelLine t).toList =
      "test_that(\"".toList ++ TestStub.escape t.label.toList ++ "\", \x7b".toList := by
    simp [TestStub.labelLine]
  simp [TestStub.lines, Text.toList_unlines, label]

end ToolWrappers
