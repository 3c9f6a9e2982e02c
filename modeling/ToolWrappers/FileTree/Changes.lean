import ToolWrappers.FileTree.Basic

/-! What differs between two states of a file tree, seen from a directory. -/

namespace ToolWrappers.FileTree

/-- How a place is written: from the directory if it lies below it, and from the root otherwise. -/
def pathOf (directory place : Place) : String :=
  if directory.isPrefixOf place && place ≠ directory then
    "/".intercalate (place.drop directory.length)
  else "/" ++ "/".intercalate place

/-- The entries in the order of their paths, byte by byte. -/
def sortedEntries (directory : Place) (entries : List (Place × Node)) : List (String × Node) :=
  (entries.map fun (place, node) => (pathOf directory place, node)).mergeSort fun a b => a.1 ≤ b.1

/-- The entries of `after` that are new or differ from `before`. -/
def changed (directory : Place) (before after : FileTree) : List (String × Node) :=
  sortedEntries directory (after.entries.filter fun (place, node) => before.get? place ≠ some node)

/-- The paths of `before` at which nothing is left. -/
def removed (directory : Place) (before after : FileTree) : List String :=
  (sortedEntries directory
    (before.entries.filter fun (place, _) => (after.get? place).isNone)).map (·.1)

end ToolWrappers.FileTree
