import ToolWrappers.Text.Utf8
import ToolWrappers.Zip.Bytes
import ToolWrappers.Zip.Crc32
import ToolWrappers.Zip.Inflate
import ToolWrappers.Zip.Library

/-! A reader for archives whose entries are stored or deflated. The directory at the end of an archive
lists the entries and decides their order; the data of each entry lies behind a header of its own. -/

namespace ToolWrappers.Zip

/-- The directory's header of one entry. Positions count from the start of the file. -/
structure Header where
  record : Record
  encrypted : Bool
  method : Nat
  checksum : Nat
  storedSize : Nat
  position : Nat
deriving DecidableEq, Repr

/-- An entry whose name ends in a slash, either way round, is a directory. -/
def isDirectoryName (name : String) : Bool :=
  name.toList.getLast? = some '/' || name.toList.getLast? = some '\\'

/-- Where the directory is, as the record at the end of an archive says. -/
structure EndRecord where
  position : Nat
  count : Nat
  directorySize : Nat
  directoryOffset : Nat
deriving DecidableEq, Repr

def endSignature : Nat := 0x06054B50

def directorySignature : Nat := 0x02014B50

def localSignature : Nat := 0x04034B50

def endRecordSize : Nat := 22

/-- The end record at a position. Archives on several disks, and comments that are cut off, are
refused. -/
def EndRecord.readAt? (b : ByteArray) (position : Nat) : Option EndRecord := do
  let disk ← number? b (position + 4) 2
  let directoryDisk ← number? b (position + 6) 2
  let count ← number? b (position + 8) 2
  let directorySize ← number? b (position + 12) 4
  let directoryOffset ← number? b (position + 16) 4
  let comment ← number? b (position + 20) 2
  if disk ≠ directoryDisk || position + endRecordSize + comment > b.size then none
  return ⟨position, count, directorySize, directoryOffset⟩

/-- The last position not above `position`, and at most `steps` below it, with an end record. -/
def lastEndRecord? (b : ByteArray) : (steps position : Nat) → Option Nat
  | steps, position =>
    if number? b position 4 = some endSignature then some position
    else match steps, position with
      | steps + 1, position + 1 => lastEndRecord? b steps position
      | _, _ => none

/-- The comment behind an end record is at most this long. -/
def maxComment : Nat := 65535

def EndRecord.find? (b : ByteArray) : Option EndRecord :=
  if b.size < endRecordSize then none
  else do EndRecord.readAt? b (← lastEndRecord? b maxComment (b.size - endRecordSize))

/-- The characters from 128 on of names that are not marked as UTF-8. -/
def upperNameChars : List Char :=
  ("ÇüéâäàåçêëèïîìÄÅÉæÆôöòûùÿÖÜ¢£¥₧ƒáíóúñÑªº¿⌐¬½¼¡«»"
    ++ "░▒▓│┤╡╢╖╕╣║╗╝╜╛┐└┴┬├─┼╞╟╚╔╩╦╠═╬╧╨╤╥╙╘╒╓╫╪┘┌█▄▌▐▀"
    ++ "αßΓπΣσµτΦΘΩδ∞φε∩≡±≥≤⌠⌡÷≈°∙·√ⁿ²■\u00a0").toList

def nameChar (byte : UInt8) : Char :=
  if byte < 128 then Char.ofNat byte.toNat
  else upperNameChars[byte.toNat - 128]?.getD Text.replacement

def decodeName (isUtf8 : Bool) (bytes : ByteArray) : String :=
  .ofList (if isUtf8 then Text.decodeLenient bytes else bytes.toList.map nameChar)

/-- The mode that an entry carries: that of a Unix host as it is, that of a DOS host from its two flags.
Attributes of zero carry none. -/
def mode? (host attributes : Nat) : Option Nat :=
  if attributes = 0 then none
  else if host = 3 then some (attributes / 65536)
  else if host = 0 then
    let mode := if attributes.testBit 4 then 0o775 else 0o664
    some (if attributes.testBit 0 then mode &&& 0o555 else mode)
  else none

/-- The method number that marks an entry for a stronger encryption. -/
def strongEncryption : Nat := 99

/-- The header at a position of the directory, and the position behind it. `shift` is how far the archive
begins behind the start of the file. -/
def Header.readAt? (b : ByteArray) (shift position : Nat) : Option (Header × Nat) := do
  let signature ← number? b position 4
  let host ← byte? b (position + 5)
  let flags ← number? b (position + 8) 2
  let method ← number? b (position + 10) 2
  let checksum ← number? b (position + 16) 4
  let storedSize ← number? b (position + 20) 4
  let nameSize ← number? b (position + 28) 2
  let extraSize ← number? b (position + 30) 2
  let commentSize ← number? b (position + 32) 2
  let attributes ← number? b (position + 38) 4
  let offset ← number? b (position + 42) 4
  let name ← slice? b (position + 46) nameSize
  let next := position + 46 + nameSize + extraSize + commentSize
  if signature ≠ directorySignature || method = strongEncryption || next > b.size then none
  let name := decodeName (flags.testBit 11) name
  let header : Header :=
    { record := ⟨name, isDirectoryName name, mode? host attributes⟩
      encrypted := flags.testBit 0
      method := method
      checksum := checksum
      storedSize := storedSize
      position := offset + shift }
  return (header, next)

/-- `count` headers from a position of the directory on. -/
def readHeaders? (b : ByteArray) (shift : Nat) : (count position : Nat) → Option (List Header)
  | 0, _ => some []
  | count + 1, position => do
    let (header, next) ← Header.readAt? b shift position
    return header :: (← readHeaders? b shift count next)

/-- The directory of an archive. Something may precede the archive in its file; all offsets then
count from where it begins. -/
def headers? (b : ByteArray) : Option (List Header) := do
  let tail ← EndRecord.find? b
  if tail.position < tail.directorySize + tail.directoryOffset then none
  let shift := tail.position - tail.directorySize - tail.directoryOffset
  readHeaders? b shift tail.count (tail.directoryOffset + shift)

/-- The method that keeps data as it is. -/
def stored : Nat := 0

def deflated : Nat := 8

/-- The bytes of stored data, and whether the method was able to restore them. -/
def restore (method : Nat) (data : ByteArray) : ByteArray × Bool :=
  if method = deflated then inflate data else (data, true)

namespace Header

/-- Where the data of the entry begins. Encrypted entries and unknown methods cannot be read. -/
def dataStart? (b : ByteArray) (h : Header) : Option Nat := do
  if h.encrypted || !(h.method = stored || h.method = deflated) then none
  let signature ← number? b h.position 4
  let nameSize ← number? b (h.position + 26) 2
  let extraSize ← number? b (h.position + 28) 2
  if signature ≠ localSignature then none
  return h.position + 30 + nameSize + extraSize

/-- The data of the entry that `b` holds from `start` on. -/
def data (b : ByteArray) (h : Header) (start : Nat) : Data :=
  let (bytes, restored) := restore h.method (slice b start h.storedSize)
  ⟨bytes, restored && (Crc32.ofBytes bytes).toNat = h.checksum⟩

end Header

def reader : Library where
  records? b := (headers? b).map fun headers => headers.map Header.record
  open? archive index now := do
    let header ← (← headers? archive)[index]?
    let start ← header.dataStart? now
    return fun b => header.data b start

end ToolWrappers.Zip
