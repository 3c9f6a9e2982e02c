/-! What is used of a library that reads zip archives. How it decodes the directory of an archive and the
data of an entry is its own affair. -/

namespace ToolWrappers.Zip

/-- What the directory of an archive says of one entry. -/
structure Record where
  name : String
  isDirectory : Bool
  mode? : Option Nat
deriving DecidableEq, Repr

/-- What reading an entry gives, and whether it ends without an error. -/
structure Data where
  bytes : ByteArray
  intact : Bool

/-- A library reads an archive through its file, and the file may change while that goes on. The directory
is read once. An entry is opened with the bytes that the file has then, and read with those that it has
when its data is asked for. -/
structure Library where
  records? : ByteArray → Option (List Record)
  open? : (archive : ByteArray) → (index : Nat) → (now : ByteArray) → Option (ByteArray → Data)

/-- What is relied on when an archive is overwritten by one of its own entries: no entry begins in an
empty file, and no data comes out of one as if it were whole. -/
structure Library.Lawful (lib : Library) : Prop where
  unopened : ∀ archive index, lib.open? archive index .empty = none
  unread : ∀ archive index now read, lib.open? archive index now = some read →
    (read .empty).intact = true → (read .empty).bytes = .empty

end ToolWrappers.Zip
