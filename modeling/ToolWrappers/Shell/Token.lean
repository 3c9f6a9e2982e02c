/-! Tokens of a tool script. A script is a text of bytes: each character stands for one byte. Only
what stub tools are made of is known: words with quotes and parameters, separators, output
redirections and here-documents. -/

namespace ToolWrappers.Shell

/-- A part of a word. The value of a parameter outside quotes is cut at its blanks. -/
inductive Piece
  | text (s : List Char)
  | parameter (name : List Char) (quoted : Bool)
deriving DecidableEq, Repr

abbrev Word := List Piece

/-- When the command after a separator runs: always, or as the command before it ended. -/
inductive Joint
  | always
  | ifSucceeded
  | ifFailed
deriving DecidableEq, Repr

inductive Token
  | word (w : Word)
  | joint (j : Joint)
  /-- Output that goes anywhere but the standard output. -/
  | divert
  | document (w : Word)
  /-- A quote that is never closed. -/
  | broken
deriving DecidableEq, Repr

def isSpace (c : Char) : Bool := c = ' ' || c = '\t'

/-- Characters that end a word outside quotes. -/
def endsWord (c : Char) : Bool :=
  isSpace c || c = '\n' || c = ';' || c = '&' || c = '|' || c = '<' || c = '>'

/-- The name of a parameter after its dollar sign. -/
def readParameter? : List Char → Option (List Char × List Char)
  | [] => none
  | '\x7b' :: rest =>
    match rest.dropWhile (· ≠ '\x7d') with
    | [] => none
    | _ :: after => some (rest.takeWhile (· ≠ '\x7d'), after)
  | c :: rest =>
    if c.isDigit || "$?#@*-!".toList.contains c then some ([c], rest)
    else if c.isAlpha || c = '_' then
      some (c :: rest.takeWhile (fun c => c.isAlphanum || c = '_'),
        rest.dropWhile (fun c => c.isAlphanum || c = '_'))
    else none

/-- A text in which parameters count, up to its closing quote, or to the end of the text without
one. `fuel` bounds the steps; the length of the text is enough. -/
def readExpanding (quote? : Option Char) : Nat → List Char → Option (Word × List Char)
  | 0, _ => none
  | _, [] => if quote?.isNone then some ([], []) else none
  | fuel + 1, c :: rest =>
    let literally (s : List Char) (rest : List Char) : Option (Word × List Char) :=
      (readExpanding quote? fuel rest).map fun (w, rest) => (.text s :: w, rest)
    if quote? = some c then some ([], rest)
    else if c = '\\' then
      match rest with
      | [] => literally [c] rest
      | e :: after =>
        if e = '\n' then readExpanding quote? fuel after
        else if e = '$' || e = '`' || e = '\\' || quote? = some e then literally [e] after
        else literally [c] rest
    else if c = '$' then
      match readParameter? rest with
      | some (name, after) =>
        (readExpanding quote? fuel after).map fun (w, rest) => (.parameter name true :: w, rest)
      | none => literally [c] rest
    else literally [c] rest

/-- A word up to the character that ends it. `fuel` bounds the steps. -/
def readWord : Nat → List Char → Option (Word × List Char)
  | 0, _ => none
  | _, [] => some ([], [])
  | fuel + 1, c :: rest =>
    let literally (s : List Char) (rest : List Char) : Option (Word × List Char) :=
      (readWord fuel rest).map fun (w, rest) => (.text s :: w, rest)
    if endsWord c then some ([], c :: rest)
    else if c = '\'' then
      match rest.dropWhile (· ≠ '\'') with
      | [] => none
      | _ :: after => literally (rest.takeWhile (· ≠ '\'')) after
    else if c = '"' then do
      let (quoted, after) ← readExpanding (some '"') (rest.length + 1) rest
      let (w, after) ← readWord fuel after
      return (.text [] :: quoted ++ w, after)
    else if c = '\\' then
      match rest with
      | [] => literally [c] rest
      | '\n' :: after => readWord fuel after
      | e :: after => literally [e] after
    else if c = '$' then
      match readParameter? rest with
      | some (name, after) => (readWord fuel after).map fun (w, rest) =>
          (.parameter name false :: w, rest)
      | none => literally [c] rest
    else literally [c] rest

/-- A here-document that is announced: its end mark, whether its text is literal, and whether tabs
at the head of its lines are dropped. -/
structure Heredoc where
  mark : List Char
  isLiteral : Bool
  dropsTabs : Bool
deriving DecidableEq, Repr

/-- The lines of a here-document, joined, and what follows its end mark. -/
def readBody (h : Heredoc) : Nat → List Char → List Char × List Char
  | 0, s => ([], s)
  | _, [] => ([], [])
  | fuel + 1, s =>
    let line := s.takeWhile (· ≠ '\n')
    let line := if h.dropsTabs then line.dropWhile (· = '\t') else line
    let rest := (s.dropWhile (· ≠ '\n')).drop 1
    if line = h.mark then ([], rest)
    else
      let (body, rest) := readBody h fuel rest
      (line ++ '\n' :: body, rest)

def Heredoc.document (h : Heredoc) (body : List Char) : Token :=
  if h.isLiteral then .document [.text body]
  else match readExpanding none (body.length + 1) body with
    | some (w, _) => .document w
    | none => .broken

/-- The here-documents that were announced on the line before, in order, and what follows them. -/
def readBodies : List Heredoc → List Char → List Token × List Char
  | [], s => ([], s)
  | h :: rest, s =>
    let (body, s) := readBody h (s.length + 1) s
    let (tokens, s) := readBodies rest s
    (h.document body :: tokens, s)

/-- The literal text of a word. -/
def Word.literal (w : Word) : List Char :=
  w.flatMap fun
    | .text s => s
    | .parameter name _ => '$' :: name

/-- The announcement of a here-document after `<<`. Any quoting of the mark makes the text
literal. -/
def readHeredoc (s : List Char) : Option (Heredoc × List Char) := do
  let (dropsTabs, s) :=
    match s with
    | '-' :: rest => (true, rest)
    | s => (false, s)
  let s := s.dropWhile isSpace
  let (w, rest) ← readWord (s.length + 1) s
  let written := s.take (s.length - rest.length)
  return (⟨Word.literal w, written.any fun c => c = '\'' || c = '"' || c = '\\', dropsTabs⟩, rest)

/-- The target of a redirection, which is passed over, and whether it is the standard output. -/
def skipTarget (s : List Char) : Bool × List Char :=
  let s := s.dropWhile fun c => c = '>' || c = '|'
  let (isDescriptor, s) :=
    match s with
    | '&' :: rest => (true, rest)
    | s => (false, s)
  let s := s.dropWhile isSpace
  match readWord (s.length + 1) s with
  | some (w, rest) => (isDescriptor && Word.literal w = ['1'], rest)
  | none => (false, [])

/-- The tokens of a script. Here-documents are taken at the end of the line that announces them.
`fuel` bounds the steps; the length of the script is enough. -/
def tokens : Nat → List Heredoc → List Char → List Token
  | 0, _, _ => []
  | _, _, [] => []
  | fuel + 1, announced, c :: rest =>
    if isSpace c then tokens fuel announced rest
    else if c = '#' then tokens fuel announced (rest.dropWhile (· ≠ '\n'))
    else if c = '\n' then
      let (documents, rest) := readBodies announced rest
      documents ++ .joint .always :: tokens fuel [] rest
    else if c = '\\' && rest.head? = some '\n' then tokens fuel announced (rest.drop 1)
    else if c = '&' && rest.head? = some '&' then
      .joint .ifSucceeded :: tokens fuel announced (rest.drop 1)
    else if c = '|' && rest.head? = some '|' then
      .joint .ifFailed :: tokens fuel announced (rest.drop 1)
    else if c = ';' || c = '&' || c = '|' then .joint .always :: tokens fuel announced rest
    else if c = '<' && rest.head? = some '<' then
      match readHeredoc (rest.drop 1) with
      | some (h, rest) => tokens fuel (announced ++ [h]) rest
      | none => [.broken]
    else if c = '<' then tokens fuel announced (skipTarget rest).2
    else if c = '>' then
      let (isOutput, rest) := skipTarget rest
      (if isOutput then [] else [.divert]) ++ tokens fuel announced rest
    else if c.isDigit && rest.head? = some '>' then
      let (isOutput, rest) := skipTarget (rest.drop 1)
      (if c = '1' && !isOutput then [.divert] else []) ++ tokens fuel announced rest
    else
      match readWord (rest.length + 2) (c :: rest) with
      | some (w, rest) => .word w :: tokens fuel announced rest
      | none => [.broken]

end ToolWrappers.Shell
