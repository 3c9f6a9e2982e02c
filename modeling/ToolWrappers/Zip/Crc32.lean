/-! The 32-bit checksum of the archive format: the remainder by the reflected polynomial, started
from all ones and inverted at the end. -/

namespace ToolWrappers.Zip.Crc32

def polynomial : UInt32 := 0xEDB88320

def shift (r : UInt32) : UInt32 := if r &&& 1 = 1 then (r >>> 1) ^^^ polynomial else r >>> 1

def addByte (r : UInt32) (byte : UInt8) : UInt32 :=
  shift (shift (shift (shift (shift (shift (shift (shift (r ^^^ byte.toUInt32))))))))

def ofBytes (b : ByteArray) : UInt32 := b.foldl addByte 0xFFFFFFFF ^^^ 0xFFFFFFFF

end ToolWrappers.Zip.Crc32
