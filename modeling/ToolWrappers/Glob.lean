import ToolWrappers.FileTree.Basic
import ToolWrappers.Text.Search

/-! Finding what is at the paths of a pattern. -/

namespace ToolWrappers

/-- What is used of a library that finds paths: a text that stands for itself in a pattern, and the paths
of a pattern in a tree, unless it is none. -/
structure Glob where
  escape : String → String
  find? : FileTree → String → Option (List String)

namespace Glob

/-- Characters with a meaning of their own go into brackets. -/
def escapeChar (c : Char) : List Char := if c ∈ ['?', '*', '[', ']'] then ['[', c, ']'] else [c]

/-- The text that an escaped text stands for. -/
def unescape : List Char → List Char
  | '[' :: c :: ']' :: rest => c :: unescape rest
  | c :: rest => c :: unescape rest
  | [] => []

/-- The path by which what lies in a directory is shown: without single dots at the start and without
idle slashes. A path that begins with a slash behind dots shows nothing. -/
def shownDir? (dir : String) : Option String :=
  match (Path.names dir).dropWhile (· = ".") with
  | "" :: rest =>
    if Path.isAbsolute dir then some ("/" ++ "/".intercalate (rest.filter (· ≠ ""))) else none
  | names => some ("/".intercalate (names.filter (· ≠ "")))

/-- The names directly inside a directory that end in `tail`. -/
def namesIn [User] (t : FileTree) (dir tail : String) : List String :=
  match t.find dir with
  | .error _ => []
  | .ok place =>
    ((t.children place).map Prod.fst).filter fun name => Text.endsWith tail.toList name.toList

/-- Finds the paths of patterns that consist of an escaped directory, a slash, a star and a tail. -/
def inDirectory [User] (tail : String) : Glob where
  escape s := .ofList (s.toList.flatMap escapeChar)
  find? t pattern :=
    (Text.stripSuffix? ("/*" ++ tail).toList pattern.toList).map fun lead =>
      let dir := if lead = [] then "/" else .ofList (unescape lead)
      match shownDir? dir with
      | none => []
      | some shown => (namesIn t (if shown = "" then "." else shown) tail).map (Path.join shown)

end Glob

end ToolWrappers
