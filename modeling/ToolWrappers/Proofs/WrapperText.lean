import ToolWrappers.Proofs.Names
import ToolWrappers.Proofs.Reading
import ToolWrappers.Script.Wrapper

/-! A reader of wrapper texts. It gets back the name, the formals, the flags with their rules and the
command, so no two wrappers that differ in one of them have the same text. -/

namespace ToolWrappers

namespace Wrapper

structure Reading where
  wrapper : String
  formals : String
  flags : List (String × Forward)
  command : String
deriving DecidableEq, Repr

/-- The lines that hand on one value under each rule. -/
def block (name : String) : Forward → List String
  | .always =>
    ["  args <- paste(args, paste0(\"--" ++ name ++ "=\", wbt_file_path(" ++ name ++ ")))"]
  | .ifTrue =>
    ["  if (" ++ name ++ ") \x7b", "    args <- paste(args, \"--" ++ name ++ "\")", "  \x7d"]
  | .ifNotNull =>
    ["  if (!is.null(" ++ name ++ ")) \x7b",
      "    args <- paste(args, paste0(\"--" ++ name ++ "=\", " ++ name ++ "))", "  \x7d"]
  | .never => []

/-- The rule that goes with a default. -/
def rule : Option Default → Forward
  | none => .always
  | some (.bool _) => .ifTrue
  | some .null => .ifNotNull
  | some (.literal _) => .ifNotNull

/-- One flag for each parameter in order; the verbosity switch is none. -/
def flags (params : List Param) : List (String × Forward) :=
  (params.filter (·.name ≠ verboseOption)).map fun p => (p.name, rule p.default?)

/-- The name characters after `lead`. -/
def nameAfter? (lead line : String) : Option String :=
  (Text.stripPrefix? lead.toList line.toList).map fun rest =>
    .ofList (rest.takeWhile Text.isNameChar)

/-- Blocks are told apart by how they begin; the rest has to be what follows from name and rule. -/
def readBlock? (lead : String) (rule : Forward) (first : String) (others : List String) :
    Option (String × Forward) :=
  ((nameAfter? lead first).filter fun name => block name rule = first :: others).map (·, rule)

def readUnguarded? (line : String) : Option (String × Forward) :=
  readBlock? "  args <- paste(args, paste0(\"--" .always line []

def readGuarded? (first second third : String) : Option (String × Forward) :=
  (readBlock? "  if (" .ifTrue first [second, third]).or
    (readBlock? "  if (!is.null(" .ifNotNull first [second, third])

/-- The flags of a list of whole blocks. -/
def readFlags? : List String → Option (List (String × Forward))
  | [] => some []
  | first :: rest =>
    match readUnguarded? first with
    | some flag => (readFlags? rest).map (flag :: ·)
    | none =>
      match rest with
      | second :: third :: rest => do
        let flag ← readGuarded? first second third
        return flag :: (← readFlags? rest)
      | _ => none

def namesCommand (line : String) : Bool := Text.startsWith "  tool_name <-".toList line.toList

/-- What follows the line that starts the flags. -/
def afterStart (lines : List String) : List String :=
  (lines.dropWhile (· ≠ "  args <- \"\"")).drop 1

/-- The lines between the start of the flags and the command. -/
def flagLines (lines : List String) : List String :=
  (afterStart lines).takeWhile fun line => !namesCommand line

def textLines (text : String) : List String := (Text.lines text.toList).map .ofList

def readHead? (line : String) : Option (String × String) := do
  let formals ← Text.stripSuffix? ") \x7b".toList
    (← Text.stripPrefix? " <- function(".toList (line.toList.dropWhile Text.isNameChar))
  return (.ofList (line.toList.takeWhile Text.isNameChar), .ofList formals)

def readCommand? (line : String) : Option String := do
  let command ← Text.stripSuffix? ['"']
    (← Text.stripPrefix? "  tool_name <- \"".toList line.toList)
  return .ofList command

def read? (text : String) : Option Reading := do
  let lines := textLines text
  let (wrapper, formals) ← readHead? (← lines.head?)
  let flags ← readFlags? (flagLines lines)
  let command ← readCommand? (← (afterStart lines).find? namesCommand)
  return ⟨wrapper, formals, flags, command⟩

variable {name wrapper lead tail : String} {rest lines : List String} {params : List Param}

theorem forward_of_ne {p : Param} (forwarded : p.name ≠ verboseOption) :
    p.forward = rule p.default? := by
  unfold Param.forward
  rw [if_neg forwarded]
  cases p.default? with
  | none => rfl
  | some d => cases d <;> rfl

theorem rule_ne_never (default? : Option Default) : rule default? ≠ .never := by
  unfold rule
  split <;> nofun

/-- The flags are what the wrapper forwards. -/
theorem flatMap_forwardLines (params : List Param) :
    params.flatMap forwardLines = (flags params).flatMap fun f => block f.1 f.2 := by
  induction params with
  | nil => rfl
  | cons p params ih =>
      rw [List.flatMap_cons, ih]
      by_cases verbose : p.name = verboseOption
      · have silent : flags (p :: params) = flags params := by
          simp [flags, verbose]
        have nothing : forwardLines p = [] := by
          simp [forwardLines, Param.forward, verbose]
        rw [silent, nothing, List.nil_append]
      · have first : flags (p :: params) = (p.name, p.forward) :: flags params := by
          simp [flags, forward_of_ne verbose, verbose]
        rw [first, List.flatMap_cons]
        unfold forwardLines
        cases p.forward <;> rfl

theorem forward_ne_never {f : String × Forward} (h : f ∈ flags params) : f.2 ≠ .never := by
  obtain ⟨p, _, rfl⟩ := List.mem_map.mp h
  exact rule_ne_never p.default?

theorem exists_param_of_mem_flags {f : String × Forward} (h : f ∈ flags params) :
    ∃ p ∈ params, p.name = f.1 := by
  obtain ⟨p, member, rfl⟩ := List.mem_map.mp h
  exact ⟨p, (List.mem_filter.mp member).1, rfl⟩

/-- A name ends where a character stands that no name holds. -/
theorem nameAfter?_append (named : ∀ c ∈ name.toList, Text.isNameChar c = true)
    (ends : tail.toList.head?.any Text.isNameChar = false) :
    nameAfter? lead (lead ++ name ++ tail) = some name := by
  have cut : Text.stripPrefix? lead.toList (lead ++ name ++ tail).toList =
      some (name.toList ++ tail.toList) := by
    rw [Text.stripPrefix?_eq_some_iff, String.toList_append, String.toList_append, List.append_assoc]
  have nothing : tail.toList.takeWhile Text.isNameChar = [] := by
    cases shape : tail.toList with
    | nil => rfl
    | cons c after =>
        rw [shape] at ends
        exact List.takeWhile_cons_of_neg (Bool.eq_false_iff.mp ends)
  rw [nameAfter?, cut, Option.map_some, List.takeWhile_append_of_pos named, nothing,
    List.append_nil, String.ofList_toList]

theorem readBlock?_of_nameAfter? {rule : Forward} {first : String} {others : List String}
    (found : nameAfter? lead first = some name) (whole : block name rule = first :: others) :
    readBlock? lead rule first others = some (name, rule) := by
  rw [readBlock?, found, Option.filter_some, whole, if_pos (decide_eq_true rfl)]
  rfl

theorem readUnguarded?_block (named : ∀ c ∈ name.toList, Text.isNameChar c = true) :
    readUnguarded? ("  args <- paste(args, paste0(\"--" ++ name ++ "=\", wbt_file_path(" ++ name ++
      ")))") = some (name, .always) := by
  refine readBlock?_of_nameAfter? ?_ rfl
  rw [String.append_assoc, String.append_assoc]
  refine nameAfter?_append named ?_
  rw [String.toList_append]
  rfl

/-- A guard is no flag by itself. -/
theorem readUnguarded?_guard (line : String) : readUnguarded? ("  if (" ++ line) = none := by
  have other : Text.stripPrefix? "  args <- paste(args, paste0(\"--".toList
      ("  if (" ++ line).toList = none := by
    rw [String.toList_append]
    rfl
  rw [readUnguarded?, readBlock?, nameAfter?, other]
  rfl

theorem readGuarded?_ifTrue (named : ∀ c ∈ name.toList, Text.isNameChar c = true) :
    readGuarded? ("  if (" ++ name ++ ") \x7b") ("    args <- paste(args, \"--" ++ name ++ "\")")
      "  \x7d" = some (name, .ifTrue) := by
  rw [readGuarded?, readBlock?_of_nameAfter? (nameAfter?_append named rfl) rfl]
  rfl

/-- The test for null is no test of a truth value: no name begins with its exclamation mark. -/
theorem readGuarded?_ifNotNull (named : ∀ c ∈ name.toList, Text.isNameChar c = true) :
    readGuarded? ("  if (!is.null(" ++ name ++ ")) \x7b")
      ("    args <- paste(args, paste0(\"--" ++ name ++ "=\", " ++ name ++ "))") "  \x7d" =
        some (name, .ifNotNull) := by
  have nameless : nameAfter? "  if (" ("  if (!is.null(" ++ name ++ ")) \x7b") = some "" := by
    have shape : "  if (!is.null(" ++ name ++ ")) \x7b" =
        "  if (" ++ "" ++ ("!is.null(" ++ name ++ ")) \x7b") := by
      simp only [← String.append_assoc]
      rfl
    rw [shape]
    refine nameAfter?_append nofun ?_
    rw [String.toList_append, String.toList_append]
    rfl
  have other : readBlock? "  if (" .ifTrue ("  if (!is.null(" ++ name ++ ")) \x7b")
      ["    args <- paste(args, paste0(\"--" ++ name ++ "=\", " ++ name ++ "))", "  \x7d"] = none := by
    rw [readBlock?, nameless, Option.filter_some, if_neg]
    · rfl
    · intro same
      have first := congrArg String.toList (List.cons.inj (of_decide_eq_true same)).1
      simp [String.toList_append] at first
  rw [readGuarded?, other, readBlock?_of_nameAfter? (nameAfter?_append named rfl) rfl]
  rfl

theorem readFlags?_of_unguarded {first : String} {flag : String × Forward}
    (h : readUnguarded? first = some flag) :
    readFlags? (first :: rest) = (readFlags? rest).map (flag :: ·) := by
  -- The equations for single cases ask for the shape of the rest, which is open here.
  rw [readFlags?.eq_def]
  simp only [h]

theorem readFlags?_of_guarded {first second third : String} {flag : String × Forward}
    (guard : readUnguarded? first = none) (h : readGuarded? first second third = some flag) :
    readFlags? (first :: second :: third :: rest) = (readFlags? rest).map (flag :: ·) := by
  rw [readFlags?.eq_def]
  simp only [guard, h]
  cases readFlags? rest <;> rfl

theorem readFlags?_block {rule : Forward} (named : ∀ c ∈ name.toList, Text.isNameChar c = true)
    (forwarded : rule ≠ .never) :
    readFlags? (block name rule ++ rest) = (readFlags? rest).map ((name, rule) :: ·) := by
  cases rule with
  | always => exact readFlags?_of_unguarded (readUnguarded?_block named)
  | ifTrue =>
      have guard : readUnguarded? ("  if (" ++ name ++ ") \x7b") = none := by
        rw [String.append_assoc]
        exact readUnguarded?_guard _
      exact readFlags?_of_guarded guard (readGuarded?_ifTrue named)
  | ifNotNull =>
      have guard : readUnguarded? ("  if (!is.null(" ++ name ++ ")) \x7b") = none := by
        rw [String.append_assoc]
        exact readUnguarded?_guard ("!is.null(" ++ (name ++ ")) \x7b"))
      exact readFlags?_of_guarded guard (readGuarded?_ifNotNull named)
  | never => exact absurd rfl forwarded

theorem readFlags?_flatMap {fs : List (String × Forward)}
    (h : ∀ f ∈ fs, (∀ c ∈ f.1.toList, Text.isNameChar c = true) ∧ f.2 ≠ .never) :
    readFlags? (fs.flatMap fun f => block f.1 f.2) = some fs := by
  induction fs with
  | nil => rfl
  | cons f fs ih =>
      obtain ⟨named, forwarded⟩ := h f List.mem_cons_self
      rw [List.flatMap_cons, readFlags?_block named forwarded,
        ih fun other member => h other (List.mem_cons_of_mem f member)]
      rfl

theorem isLine_of_mem_block {rule : Forward} {line : String}
    (named : ∀ c ∈ name.toList, Text.isNameChar c = true) (member : line ∈ block name rule) :
    Text.IsLine line := by
  have clean := Text.newline_not_mem_name named
  cases rule with
  | always =>
      rw [List.mem_singleton.mp member]
      exact Text.isLine_append (by simp [String.toList_append, clean]) (by decide)
  | ifTrue =>
      rcases member with _ | ⟨_, _ | ⟨_, _ | ⟨_, member⟩⟩⟩
      · exact Text.isLine_append (by simp [String.toList_append, clean]) (by decide)
      · exact Text.isLine_append (by simp [String.toList_append, clean]) (by decide)
      · decide
      · cases member
  | ifNotNull =>
      rcases member with _ | ⟨_, _ | ⟨_, _ | ⟨_, member⟩⟩⟩
      · exact Text.isLine_append (by simp [String.toList_append, clean]) (by decide)
      · exact Text.isLine_append (by simp [String.toList_append, clean]) (by decide)
      · decide
      · cases member
  | never => cases member

theorem namesCommand_of_mem_block {rule : Forward} {line : String}
    (member : line ∈ block name rule) : namesCommand line = false := by
  cases rule with
  | always =>
      rw [List.mem_singleton.mp member, namesCommand]
      simp only [String.toList_append]
      rfl
  | ifTrue =>
      rcases member with _ | ⟨_, _ | ⟨_, _ | ⟨_, member⟩⟩⟩
      · simp only [namesCommand, String.toList_append]
        rfl
      · simp only [namesCommand, String.toList_append]
        rfl
      · rfl
      · cases member
  | ifNotNull =>
      rcases member with _ | ⟨_, _ | ⟨_, _ | ⟨_, member⟩⟩⟩
      · simp only [namesCommand, String.toList_append]
        rfl
      · simp only [namesCommand, String.toList_append]
        rfl
      · rfl
      · cases member
  | never => cases member

theorem textLines_unlines (h : ∀ line ∈ lines, Text.IsLine line) :
    textLines (Text.unlines lines) = lines := by
  rw [textLines, Text.lines_unlines h, List.map_map]
  have back : String.ofList ∘ String.toList = id := by
    funext line
    exact String.ofList_toList
  rw [back, List.map_id]

/-- Only a literal default can break the line of the formals. -/
theorem newline_not_mem_toR {p : Param} (named : ∀ c ∈ p.name.toList, Text.isNameChar c = true)
    (plain : ∀ text, p.default? = some (.literal text) → '\n' ∉ text.toList) :
    '\n' ∉ p.toR.toList := by
  have clean := Text.newline_not_mem_name named
  unfold Param.toR
  split
  case h_1 d given =>
      have value : '\n' ∉ d.toR.toList := by
        rcases d with (_ | _) | _ | text
        · decide
        · decide
        · decide
        · exact plain text given
      simp [String.toList_append, clean, value]
  case h_2 => exact clean

/-- The head of a wrapper ends in a brace, the line that starts the flags does not. -/
theorem head_ne_start (wrapper : String) (params : List Param) :
    head wrapper params ≠ "  args <- \"\"" := by
  have last : (head wrapper params).toList.getLast? = some '\x7b' := by
    rw [head, String.toList_append, List.getLast?_append]
    rfl
  intro same
  rw [same] at last
  cases last

theorem afterStart_lines (t : Tool) (wrapper : String) :
    afterStart (Wrapper.lines t wrapper) = ((flags t.params).flatMap fun f => block f.1 f.2) ++
      ["  tool_name <- \"" ++ t.command ++ "\"",
        "  wbt_run_tool(tool_name, args, " ++ verboseOption ++ ")", "\x7d", "", ""] := by
  rw [Wrapper.lines, flatMap_forwardLines, List.append_assoc]
  simp [afterStart, head_ne_start]

theorem namesCommand_command (command : String) :
    namesCommand ("  tool_name <- \"" ++ command ++ "\"") = true := by
  have shape : ("  tool_name <- \"" ++ command ++ "\"").toList =
      "  tool_name <-".toList ++ (" \"".toList ++ command.toList ++ ['"']) := by
    simp [String.toList_append]
  rw [namesCommand, shape]
  exact Text.startsWith_append _ _

theorem readHead?_head (named : ∀ c ∈ wrapper.toList, Text.isNameChar c = true) :
    readHead? (head wrapper params) = some (wrapper, Param.formals params) := by
  have shape : (head wrapper params).toList = wrapper.toList ++ (" <- function(".toList ++
      ((Param.formals params).toList ++ ") \x7b".toList)) := by
    simp only [head, String.toList_append, List.append_assoc]
  have name : (head wrapper params).toList.takeWhile Text.isNameChar = wrapper.toList := by
    rw [shape, List.takeWhile_append_of_pos named]
    exact List.append_nil _
  have others : (head wrapper params).toList.dropWhile Text.isNameChar =
      " <- function(".toList ++ ((Param.formals params).toList ++ ") \x7b".toList) := by
    rw [shape, List.dropWhile_append_of_pos named]
    rfl
  rw [readHead?, name, others, Text.stripPrefix?_eq_some_iff.mpr rfl]
  simp only [Option.bind_eq_bind, Option.bind_some]
  rw [Text.stripSuffix?_eq_some_iff.mpr rfl]
  simp only [Option.bind_some, String.ofList_toList, Option.pure_def]

theorem readCommand?_command (command : String) :
    readCommand? ("  tool_name <- \"" ++ command ++ "\"") = some command := by
  have shape : ("  tool_name <- \"" ++ command ++ "\"").toList =
      "  tool_name <- \"".toList ++ (command.toList ++ ['"']) := by
    simp only [String.toList_append, List.append_assoc]
    rfl
  rw [readCommand?, shape, Text.stripPrefix?_eq_some_iff.mpr rfl]
  simp only [Option.bind_eq_bind, Option.bind_some]
  rw [Text.stripSuffix?_eq_some_iff.mpr rfl]
  simp only [Option.bind_some, String.ofList_toList, Option.pure_def]

/-- What makes a tool's wrapper readable: no name and no literal default can break a line or end a
quotation. -/
structure Readable (t : Tool) : Prop where
  command : ∀ c ∈ t.command.toList, Text.isNameChar c = true
  params : ∀ p ∈ t.params, ∀ c ∈ p.name.toList, Text.isNameChar c = true
  formals : '\n' ∉ (Param.formals t.params).toList

theorem Readable.of_definition {line : List Char} {t : Tool} (single : '\n' ∉ line)
    (accepted : Definition.read? line = some t.definition) : Readable t := by
  have well := Definition.wellNamed_of_read? accepted
  have params : ∀ p ∈ t.params, ∀ c ∈ p.name.toList, Text.isNameChar c = true :=
    fun p member => (Text.isName_iff.mp (well.params p member)).2
  refine ⟨(Text.isName_iff.mp well.command).2, params, ?_⟩
  refine Text.not_mem_intercalate (by decide) ?_
  intro text member
  obtain ⟨p, inside, rfl⟩ := List.mem_map.mp member
  refine newline_not_mem_toR (params p inside) ?_
  intro literal given broken
  exact single (Definition.literal_subset_of_read? accepted inside given broken)

section

variable {t : Tool}

theorem Readable.named_of_mem_flags (h : Readable t) {f : String × Forward}
    (member : f ∈ flags t.params) : ∀ c ∈ f.1.toList, Text.isNameChar c = true := by
  obtain ⟨p, inside, same⟩ := exists_param_of_mem_flags member
  rw [← same]
  exact h.params p inside

theorem Readable.isLine_of_mem_lines (h : Readable t)
    (named : ∀ c ∈ wrapper.toList, Text.isNameChar c = true) {line : String}
    (member : line ∈ Wrapper.lines t wrapper) : Text.IsLine line := by
  have wrapper_plain := Text.newline_not_mem_name named
  have command_plain := Text.newline_not_mem_name h.command
  have formals_plain := h.formals
  have first : Text.IsLine (head wrapper t.params) :=
    Text.isLine_append (by simp [String.toList_append, wrapper_plain, formals_plain]) (by decide)
  have last : Text.IsLine ("  tool_name <- \"" ++ t.command ++ "\"") :=
    Text.isLine_append (by simp [String.toList_append, command_plain]) (by decide)
  rw [Wrapper.lines, flatMap_forwardLines] at member
  rcases List.mem_append.mp member with before | after
  · rcases List.mem_append.mp before with opening | flag
    · have all : ∀ line ∈ ["  wbt_init()", "  args <- \"\""], Text.IsLine line := by decide
      rcases List.mem_cons.mp opening with rfl | other
      · exact first
      · exact all line other
    · obtain ⟨f, inside, there⟩ := List.mem_flatMap.mp flag
      exact isLine_of_mem_block (h.named_of_mem_flags inside) there
  · have all : ∀ line ∈ ["  wbt_run_tool(tool_name, args, " ++ verboseOption ++ ")", "\x7d", "", ""],
        Text.IsLine line := by decide
    rcases List.mem_cons.mp after with rfl | other
    · exact last
    · exact all line other

theorem Readable.textLines_lines (h : Readable t)
    (named : ∀ c ∈ wrapper.toList, Text.isNameChar c = true) :
    textLines (Text.unlines (Wrapper.lines t wrapper)) = Wrapper.lines t wrapper :=
  textLines_unlines fun _ member => h.isLine_of_mem_lines named member

theorem namesCommand_of_mem_flags {line : String}
    (member : line ∈ (flags t.params).flatMap fun f => block f.1 f.2) :
    namesCommand line = false := by
  obtain ⟨f, _, there⟩ := List.mem_flatMap.mp member
  exact namesCommand_of_mem_block there

theorem flagLines_lines (t : Tool) (wrapper : String) :
    flagLines (Wrapper.lines t wrapper) = (flags t.params).flatMap fun f => block f.1 f.2 := by
  rw [flagLines, afterStart_lines, List.takeWhile_append_of_pos, List.takeWhile_cons_of_neg,
    List.append_nil]
  · rw [namesCommand_command]
    decide
  · intro line member
    rw [namesCommand_of_mem_flags member]
    rfl

theorem find?_namesCommand_lines (t : Tool) (wrapper : String) :
    (afterStart (Wrapper.lines t wrapper)).find? namesCommand =
      some ("  tool_name <- \"" ++ t.command ++ "\"") := by
  have none : ((flags t.params).flatMap fun f => block f.1 f.2).find? namesCommand = none := by
    rw [List.find?_eq_none]
    intro line member
    rw [namesCommand_of_mem_flags member]
    decide
  rw [afterStart_lines, List.find?_append, none, Option.none_or,
    List.find?_cons_of_pos (namesCommand_command t.command)]

end

/-- The reader gets back what the wrapper was made from. -/
theorem Readable.read?_unlines {t : Tool} (h : Readable t)
    (named : ∀ c ∈ wrapper.toList, Text.isNameChar c = true) :
    read? (Text.unlines (Wrapper.lines t wrapper)) =
      some ⟨wrapper, Param.formals t.params, flags t.params, t.command⟩ := by
  have first : (Wrapper.lines t wrapper).head? = some (head wrapper t.params) := rfl
  have fs : readFlags? (flagLines (Wrapper.lines t wrapper)) = some (flags t.params) := by
    rw [flagLines_lines]
    exact readFlags?_flatMap fun f member => ⟨h.named_of_mem_flags member, forward_ne_never member⟩
  rw [read?, h.textLines_lines named]
  simp only [first, readHead?_head named, fs, find?_namesCommand_lines, readCommand?_command,
    Option.bind_eq_bind, Option.bind_some, Option.pure_def]

end Wrapper

open Wrapper in
/-- Between the start of the flags and the command stands exactly one block for each parameter that
is forwarded, in order, and a text is the wrapper of one name, one list of formals, one list of flags
and one command only. -/
theorem wrapper_uniquely_readable {line : List Char} {t : Tool} {wrapper : String}
    (single : '\n' ∉ line) (accepted : Definition.read? line = some t.definition)
    (named : ∀ c ∈ wrapper.toList, Text.isNameChar c = true) :
    flagLines (textLines (Text.unlines (Wrapper.lines t wrapper))) =
        (flags t.params).flatMap (fun f => block f.1 f.2) ∧
      read? (Text.unlines (Wrapper.lines t wrapper)) =
        some ⟨wrapper, Param.formals t.params, flags t.params, t.command⟩ ∧
      ∀ (other : Tool) (otherLine : List Char) (otherWrapper : String), '\n' ∉ otherLine →
        Definition.read? otherLine = some other.definition →
        (∀ c ∈ otherWrapper.toList, Text.isNameChar c = true) →
        Text.unlines (Wrapper.lines other otherWrapper) = Text.unlines (Wrapper.lines t wrapper) →
        otherWrapper = wrapper ∧ Param.formals other.params = Param.formals t.params ∧
          flags other.params = flags t.params ∧ other.command = t.command := by
  have readable := Readable.of_definition single accepted
  refine ⟨?_, readable.read?_unlines named, ?_⟩
  · rw [readable.textLines_lines named, flagLines_lines]
  · intro other otherLine otherWrapper otherSingle otherAccepted otherNamed same
    have here := readable.read?_unlines named
    have there := (Readable.of_definition otherSingle otherAccepted).read?_unlines otherNamed
    rw [same, here] at there
    simp only [Option.some.injEq, Reading.mk.injEq] at there
    obtain ⟨name, formals, forwarded, command⟩ := there
    exact ⟨name.symm, formals.symm, forwarded.symm, command.symm⟩

-- The verbosity switch has no flag, and a literal may look like the formal of a switch.
example :
    (Definition.read? "def f(a: \"=1\", verbose_mode: \"=2\"):".toList).map
        (fun d => (Param.formals d.params, Wrapper.flags d.params)) =
      (Definition.read? "def f(a=1\", verbose_mode=2\"):".toList).map
        fun d => (Param.formals d.params, Wrapper.flags d.params) := by
  decide +kernel

/-- A keyword tool with one parameter under each rule. -/
def keywordLine : List Char :=
  "def Not(self, i, x=True, ".toList ++ "y=\"a, b\", callback=None):".toList

def keywordTool : Tool where
  name := "Not"
  command := "not"
  line := 1
  params := [⟨"input", none⟩, ⟨"x", some (.bool true)⟩, ⟨"y", some (.literal "\"a, b\"")⟩] ++
    implicitOptions
  doc := {}

theorem keywordTool_wrapper_readable :
    Definition.read? keywordLine = some keywordTool.definition ∧
      Wrapper.read? (Text.unlines (Wrapper.lines keywordTool "wbt_not")) =
        some ⟨"wbt_not", Param.formals keywordTool.params,
          [("input", .always), ("x", .ifTrue), ("y", .ifNotNull), ("wd", .ifNotNull),
            ("compress_rasters", .ifTrue)], "not"⟩ := by
  have single : '\n' ∉ keywordLine := by decide +kernel
  have accepted : Definition.read? keywordLine = some keywordTool.definition := by
    decide +kernel
  have named : ∀ c ∈ "wbt_not".toList, Text.isNameChar c = true :=
    List.all_eq_true.mp (by decide)
  obtain ⟨_, readable, _⟩ := wrapper_uniquely_readable single accepted named
  exact ⟨accepted, readable⟩

end ToolWrappers
