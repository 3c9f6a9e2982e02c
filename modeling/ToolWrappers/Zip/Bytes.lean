/-! Numbers of fixed width in bytes, least significant byte first. -/

namespace ToolWrappers.Zip

def byte? (b : ByteArray) (at_ : Nat) : Option Nat := b[at_]?.map UInt8.toNat

/-- The number in `width` bytes from a position on. -/
def number? (b : ByteArray) (at_ : Nat) : Nat → Option Nat
  | 0 => some 0
  | width + 1 => do
    let low ← byte? b at_
    let high ← number? b (at_ + 1) width
    return low + 256 * high

/-- The `count` bytes from a position on, or as many of them as there are. -/
def slice (b : ByteArray) (at_ count : Nat) : ByteArray := b.extract at_ (at_ + count)

/-- The `count` bytes from a position on, all of them. -/
def slice? (b : ByteArray) (at_ count : Nat) : Option ByteArray :=
  if at_ + count ≤ b.size then some (slice b at_ count) else none

end ToolWrappers.Zip
