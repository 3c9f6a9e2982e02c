/-! Reading text from bytes. Strict reading refuses bytes that are no UTF-8; lenient reading puts
one replacement character where a sequence breaks off, and reads on at the byte that broke it. -/

namespace ToolWrappers.Text

def replacement : Char := Char.ofNat 0xFFFD

/-- What a lenient reader has seen of the current character. `awaiting` holds how many bytes are
left, the bounds of the next byte, and the bits read so far. -/
inductive Utf8State
  | ready
  | awaiting (left low high bits : Nat)

/-- The first byte of a character. The bounds of the second byte exclude overlong forms,
surrogates and everything above U+10FFFF. -/
def Utf8State.start (byte : Nat) : List Char × Utf8State :=
  if byte < 0x80 then ([Char.ofNat byte], .ready)
  else if byte < 0xC2 then ([replacement], .ready)
  else if byte < 0xE0 then ([], .awaiting 1 0x80 0xBF (byte - 0xC0))
  else if byte = 0xE0 then ([], .awaiting 2 0xA0 0xBF 0)
  else if byte = 0xED then ([], .awaiting 2 0x80 0x9F 0xD)
  else if byte < 0xF0 then ([], .awaiting 2 0x80 0xBF (byte - 0xE0))
  else if byte = 0xF0 then ([], .awaiting 3 0x90 0xBF 0)
  else if byte < 0xF4 then ([], .awaiting 3 0x80 0xBF (byte - 0xF0))
  else if byte = 0xF4 then ([], .awaiting 3 0x80 0x8F 4)
  else ([replacement], .ready)

def Utf8State.next : Utf8State → Nat → List Char × Utf8State
  | .ready, byte => start byte
  | .awaiting left low high bits, byte =>
    if low ≤ byte && byte ≤ high then
      let bits := bits * 64 + (byte - 0x80)
      if left ≤ 1 then ([Char.ofNat bits], .ready)
      else ([], .awaiting (left - 1) 0x80 0xBF bits)
    else
      let (out, state) := start byte
      (replacement :: out, state)

/-- An unfinished character at the end of the bytes counts as broken. -/
def Utf8State.finish : Utf8State → List Char
  | .ready => []
  | .awaiting .. => [replacement]

/-- The text of any bytes. -/
def decodeLenient (bytes : ByteArray) : List Char :=
  let (out, state) := bytes.foldl (fun (acc : List Char × Utf8State) byte =>
    let (out, state) := acc.2.next byte.toNat
    (out.reverse ++ acc.1, state)) ([], Utf8State.ready)
  out.reverse ++ state.finish

/-- The text of bytes that are UTF-8. -/
def decode? (bytes : ByteArray) : Option String := String.fromUTF8? bytes

end ToolWrappers.Text
