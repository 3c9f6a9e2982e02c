import ToolWrappers.Zip.Bytes

/-! Decompression of deflated data. The input is a stream of bits, least significant bit of each
byte first, in blocks that are stored or coded by two prefix codes. -/

namespace ToolWrappers.Zip

/-- Why decompression stopped early: the input ended, or it cannot be deflated data. -/
inductive InflateFault
  | truncated
  | corrupt
deriving DecidableEq, Repr

/-- The next bit of the input and everything decompressed so far. -/
structure InflateState where
  position : Nat := 0
  output : ByteArray := .empty

/-- A step of decompression. What was decompressed before a fault is kept. -/
abbrev Inflate (α : Type) := ReaderT ByteArray (ExceptT InflateFault (StateM InflateState)) α

namespace Inflate

def nextBit : Inflate Nat := do
  let position := (← get).position
  match (← read)[position / 8]? with
  | none => throw .truncated
  | some byte =>
    modify fun s => { s with position := position + 1 }
    return (byte.toNat >>> (position % 8)) % 2

/-- A number in `count` bits, least significant bit first. -/
def number : Nat → Inflate Nat
  | 0 => return 0
  | count + 1 => do
    let low ← nextBit
    let high ← number count
    return low + 2 * high

def emit (byte : UInt8) : Inflate Unit :=
  modify fun s => { s with output := s.output.push byte }

/-- A prefix code: how many codes have each length from one bit on, and the symbols in the order of
their codes. -/
structure PrefixCode where
  counts : List Nat
  symbols : Array Nat

/-- No code is longer than this. -/
def maxCodeLength : Nat := 15

/-- The code whose symbols, from zero on, have these code lengths; zero leaves a symbol out. Codes
of one length follow one another in the order of their symbols. -/
def PrefixCode.ofLengths (lengths : List Nat) : PrefixCode where
  counts := (List.range maxCodeLength).map fun n => lengths.count (n + 1)
  symbols := ((List.range maxCodeLength).flatMap fun n =>
    lengths.zipIdx.filterMap fun (length, symbol) =>
      if length = n + 1 then some symbol else none).toArray

/-- Whether the code lengths use up all codes. At most one symbol may stand alone with a code. -/
def PrefixCode.isComplete (code : PrefixCode) : Bool :=
  code.symbols.size ≤ 1 || code.counts.foldl (fun left (n : Nat) => 2 * left - Int.ofNat n) 1 = 0

/-- Reads a symbol bit by bit. Of each length, the codes from `first` on belong to the symbols from
`index` on; `code` is what was read so far. -/
def symbolFrom (symbols : Array Nat) : List Nat → (code first index : Nat) → Inflate Nat
  | [], _, _, _ => throw .corrupt
  | count :: counts, code, first, index => do
    let code := 2 * code + (← nextBit)
    let first := 2 * first
    if code < first + count then
      match symbols[index + (code - first)]? with
      | some symbol => return symbol
      | none => throw .corrupt
    else symbolFrom symbols counts code (first + count) (index + count)

def symbol (code : PrefixCode) : Inflate Nat := symbolFrom code.symbols code.counts 0 0 0

/-- For each length symbol from 257 on, the least length and the number of extra bits. -/
def lengthTable : List (Nat × Nat) :=
  [(3, 0), (4, 0), (5, 0), (6, 0), (7, 0), (8, 0), (9, 0), (10, 0), (11, 1), (13, 1), (15, 1),
    (17, 1), (19, 2), (23, 2), (27, 2), (31, 2), (35, 3), (43, 3), (51, 3), (59, 3), (67, 4),
    (83, 4), (99, 4), (115, 4), (131, 5), (163, 5), (195, 5), (227, 5), (258, 0)]

/-- For each distance symbol, the least distance and the number of extra bits. -/
def distanceTable : List (Nat × Nat) :=
  [(1, 0), (2, 0), (3, 0), (4, 0), (5, 1), (7, 1), (9, 2), (13, 2), (17, 3), (25, 3), (33, 4),
    (49, 4), (65, 5), (97, 5), (129, 6), (193, 6), (257, 7), (385, 7), (513, 8), (769, 8),
    (1025, 9), (1537, 9), (2049, 10), (3073, 10), (4097, 11), (6145, 11), (8193, 12), (12289, 12),
    (16385, 13), (24577, 13)]

/-- The value that a row of a table and its extra bits give; a symbol without a row is corrupt. -/
def valueOf (table : List (Nat × Nat)) (symbol : Nat) : Inflate Nat :=
  match table[symbol]? with
  | none => throw .corrupt
  | some (least, extra) => return least + (← number extra)

/-- Repeats output from `distance` bytes back. Before the first byte the window holds zeros. -/
def copyBack (distance : Nat) : Nat → Inflate Unit
  | 0 => pure ()
  | count + 1 => do
    let output := (← get).output
    let byte := if distance ≤ output.size then output[output.size - distance]?.getD 0 else 0
    emit byte
    copyBack distance count

/-- The symbols of a coded block up to its end mark. `fuel` bounds their number; the count of input
bits is enough. -/
def codedBlock (literals distances : PrefixCode) : Nat → Inflate Unit
  | 0 => throw .truncated
  | fuel + 1 => do
    let s ← symbol literals
    if s < 256 then
      emit s.toUInt8
      codedBlock literals distances fuel
    else if s = 256 then pure ()
    else do
      let length ← valueOf lengthTable (s - 257)
      let distance ← valueOf distanceTable (← symbol distances)
      copyBack distance length
      codedBlock literals distances fuel

def storedBytes : Nat → Inflate Unit
  | 0 => pure ()
  | count + 1 => do
    emit (← number 8).toUInt8
    storedBytes count

/-- A stored block begins at the next whole byte with its length, written twice, once inverted. -/
def storedBlock : Inflate Unit := do
  modify fun s => { s with position := (s.position + 7) / 8 * 8 }
  let length ← number 16
  let inverted ← number 16
  if length + inverted ≠ 0xFFFF then throw .corrupt
  storedBytes length

/-- The codes of a block that brings none of its own. -/
def fixedLiterals : PrefixCode :=
  .ofLengths (List.replicate 144 8 ++ List.replicate 112 9 ++ List.replicate 24 7
    ++ List.replicate 8 8)

def fixedDistances : PrefixCode := .ofLengths (List.replicate 32 5)

/-- The order in which the lengths of the length code are written. -/
def lengthOrder : List Nat := [16, 17, 18, 0, 8, 7, 9, 6, 10, 5, 11, 4, 12, 3, 13, 2, 14, 1, 15]

def numbers (width : Nat) : Nat → Inflate (List Nat)
  | 0 => return []
  | count + 1 => do
    let n ← number width
    return n :: (← numbers width count)

/-- Code lengths until `total` of them are read, last one first. Symbols above 15 repeat the last
length or zero. `fuel` bounds the number of symbols. -/
def codeLengths (code : PrefixCode) (total : Nat) : Nat → List Nat → Inflate (List Nat)
  | 0, _ => throw .corrupt
  | fuel + 1, read =>
    if read.length = total then return read
    else if total < read.length then throw .corrupt
    else do
      let s ← symbol code
      if s < 16 then codeLengths code total fuel (s :: read)
      else if s = 16 then
        match read with
        | [] => throw .corrupt
        | last :: _ =>
          codeLengths code total fuel (List.replicate (3 + (← number 2)) last ++ read)
      else if s = 17 then
        codeLengths code total fuel (List.replicate (3 + (← number 3)) 0 ++ read)
      else codeLengths code total fuel (List.replicate (11 + (← number 7)) 0 ++ read)

def checked (code : PrefixCode) : Inflate PrefixCode :=
  if code.isComplete then return code else throw .corrupt

/-- The two codes at the head of a block that brings its own. -/
def blockCodes : Inflate (PrefixCode × PrefixCode) := do
  let literalCount := 257 + (← number 5)
  let distanceCount := 1 + (← number 5)
  let lengthCount := 4 + (← number 4)
  if literalCount > 286 || distanceCount > 30 then throw .corrupt
  let written := lengthOrder.zip (← numbers 3 lengthCount)
  let code ← checked (.ofLengths ((List.range 19).map fun s => (written.lookup s).getD 0))
  let total := literalCount + distanceCount
  let lengths := (← codeLengths code total (total + 1) []).reverse
  let literals ← checked (.ofLengths (lengths.take literalCount))
  let distances ← checked (.ofLengths (lengths.drop literalCount))
  return (literals, distances)

/-- Blocks up to the last one. `fuel` bounds their number. -/
def blocks : Nat → Inflate Unit
  | 0 => throw .truncated
  | fuel + 1 => do
    let final ← nextBit
    let kind ← number 2
    let bits := 8 * (← read).size + 1
    if kind = 0 then storedBlock
    else if kind = 1 then codedBlock fixedLiterals fixedDistances bits
    else if kind = 2 then
      let (literals, distances) ← blockCodes
      codedBlock literals distances bits
    else throw .corrupt
    if final = 1 then pure () else blocks fuel

/-- The size of the window in which output becomes available. -/
def window : Nat := 32768

end Inflate

/-- Decompressed bytes, and whether they are all there. Truncated input keeps everything before its
end; corrupt input loses the window in which it turned out to be corrupt. -/
def inflate (input : ByteArray) : ByteArray × Bool :=
  let (result, state) := ((Inflate.blocks (8 * input.size + 1)).run input).run.run {}
  match result with
  | .ok () => (state.output, true)
  | .error .truncated => (state.output, false)
  | .error .corrupt =>
    (state.output.extract 0 (state.output.size / Inflate.window * Inflate.window), false)

end ToolWrappers.Zip
