/-!
# Compressed data

Reading the deflate format, and writing it without compression. A stream is a row of blocks, which
hold bytes as they are, or literals and references to earlier bytes under prefix-free codes.
-/

namespace FxStack.Deflate

/-! ### Bits -/

/-- A place in a row of bytes, counted in bits; bytes are read from their least significant bit on. -/
structure BitCursor where
  bytes : ByteArray
  position : Nat

/-- Reading bits, which fails where they are no proper stream. -/
abbrev Read := StateT BitCursor Option

def bit : Read Nat := fun c => do
  let byte ← c.bytes[c.position / 8]?
  return (byte.toNat / Nat.pow 2 (c.position % 8) % 2, { c with position := c.position + 1 })

/-- The number made of the next `count` bits, least significant bit first. -/
def bits : Nat → Read Nat
  | 0 => return 0
  | count + 1 => do
    let low ← bit
    let high ← bits count
    return low + 2 * high

/-- Skips the bits up to the next whole byte. -/
def align : Read Unit := fun c => some ((), { c with position := (c.position + 7) / 8 * 8 })

/-- The next `count` bytes, at a place where a byte starts. -/
def takeBytes (count : Nat) : Read ByteArray := fun c =>
  let start := c.position / 8
  if start + count ≤ c.bytes.size then
    some (c.bytes.extract start (start + count), { c with position := c.position + 8 * count })
  else none

/-! ### Codes -/

/-- A prefix-free code: how many symbols have a code of each length from 1 on, and the symbols in the
    order of their codes. -/
structure Code where
  counts : List Nat
  symbols : Array Nat

def maxLength : Nat := 15

/-- The code in which symbol `i` has a code of length `lengths[i]`, or none if that is 0. -/
def Code.ofLengths (lengths : Array Nat) : Code :=
  let used := (List.range maxLength).map fun k =>
    (lengths.toList.zipIdx.filter fun l => l.1 = k + 1).map (·.2)
  ⟨used.map List.length, used.flatten.toArray⟩

/-- The symbol of the next bits. The codes that have been ruled out so far are those of the first
    `index` symbols; of the codes of the next length the first one is `first`. -/
def Code.symbolFrom (symbols : Array Nat) (code first index : Nat) : List Nat → Read Nat
  | [] => failure
  | count :: counts => do
    let code := 2 * code + (← bit)
    if first ≤ code ∧ code < first + count then
      match symbols[index + (code - first)]? with
      | some s => return s
      | none => failure
    else symbolFrom symbols code (2 * (first + count)) (index + count) counts

/-- The symbol of the next bits. -/
def Code.symbol (c : Code) : Read Nat := Code.symbolFrom c.symbols 0 0 0 c.counts

/-! ### Lengths and distances -/

/-- The least length of each length symbol, and the number of bits that are added to it. -/
def lengthTable : Array (Nat × Nat) := #[
  (3, 0), (4, 0), (5, 0), (6, 0), (7, 0), (8, 0), (9, 0), (10, 0), (11, 1), (13, 1), (15, 1), (17, 1),
  (19, 2), (23, 2), (27, 2), (31, 2), (35, 3), (43, 3), (51, 3), (59, 3), (67, 4), (83, 4), (99, 4),
  (115, 4), (131, 5), (163, 5), (195, 5), (227, 5), (258, 0)]

/-- The least distance of each distance symbol, and the number of bits that are added to it. -/
def distanceTable : Array (Nat × Nat) := #[
  (1, 0), (2, 0), (3, 0), (4, 0), (5, 1), (7, 1), (9, 2), (13, 2), (17, 3), (25, 3), (33, 4), (49, 4),
  (65, 5), (97, 5), (129, 6), (193, 6), (257, 7), (385, 7), (513, 8), (769, 8), (1025, 9), (1537, 9),
  (2049, 10), (3073, 10), (4097, 11), (6145, 11), (8193, 12), (12289, 12), (16385, 13), (24577, 13)]

/-- The number that a symbol of a table and the bits after it stand for. -/
def extended (table : Array (Nat × Nat)) (symbol : Nat) : Read Nat :=
  match table[symbol]? with
  | none => failure
  | some (least, count) => do return least + (← bits count)

/-- Bytes with `length` more, each the one `distance` before it. -/
def copyBack (length distance : Nat) (out : ByteArray) : ByteArray :=
  Nat.repeat (fun out => out.push (out[out.size - distance]?.getD 0)) length out

/-! ### Blocks -/

/-- The bytes up to the end of a block under two codes. -/
def readSymbols (literals distances : Code) : Nat → ByteArray → Read ByteArray
  | 0, _ => failure
  | fuel + 1, out => do
    let symbol ← literals.symbol
    if symbol < 256 then readSymbols literals distances fuel (out.push (UInt8.ofNat symbol))
    else if symbol = 256 then return out
    else
      let length ← extended lengthTable (symbol - 257)
      let distance ← extended distanceTable (← distances.symbol)
      if out.size < distance then failure
      else readSymbols literals distances fuel (copyBack length distance out)

/-- The lengths of the codes that a block uses if it does not bring its own. -/
def fixedLiterals : Code :=
  .ofLengths (Array.ofFn fun i : Fin 288 =>
    if i.val < 144 then 8 else if i.val < 256 then 9 else if i.val < 280 then 7 else 8)

def fixedDistances : Code := .ofLengths (Array.replicate 30 5)

/-- The order in which the lengths of the code of code lengths are given. -/
def lengthOrder : List Nat := [16, 17, 18, 0, 8, 7, 9, 6, 10, 5, 11, 4, 12, 3, 13, 2, 14, 1, 15]

/-- Code lengths read until there are `count`. Three symbols stand for repetitions. -/
def readLengths (code : Code) (count : Nat) : Nat → Array Nat → Read (Array Nat)
  | 0, _ => failure
  | fuel + 1, lengths =>
    if lengths.size = count then return lengths
    else if count < lengths.size then failure
    else do
      let symbol ← code.symbol
      let more ← match symbol, lengths.back? with
        | 16, none => failure
        | 16, some last => do pure (Array.replicate (3 + (← bits 2)) last)
        | 17, _ => do pure (Array.replicate (3 + (← bits 3)) 0)
        | 18, _ => do pure (Array.replicate (11 + (← bits 7)) 0)
        | n, _ => pure #[n]
      readLengths code count fuel (lengths ++ more)

def readCodes : Read (Code × Code) := do
  let literalCount := 257 + (← bits 5)
  let distanceCount := 1 + (← bits 5)
  let given ← (lengthOrder.take (4 + (← bits 4))).mapM fun s => do pure (s, ← bits 3)
  let code := Code.ofLengths (Array.ofFn fun i : Fin 19 => (given.lookup i.val).getD 0)
  let count := literalCount + distanceCount
  let lengths ← readLengths code count (count + 1) #[]
  return (.ofLengths (lengths.extract 0 literalCount), .ofLengths (lengths.extract literalCount count))

/-- The bytes with those of one more block. -/
def readBlock (fuel : Nat) (out : ByteArray) : Read ByteArray := do
  match ← bits 2 with
  | 0 =>
    align
    let count ← bits 16
    let check ← bits 16
    if count + check = 0xffff then return out ++ (← takeBytes count) else failure
  | 1 => readSymbols fixedLiterals fixedDistances fuel out
  | 2 =>
    let (literals, distances) ← readCodes
    readSymbols literals distances fuel out
  | _ => failure

/-- The bytes with those of all blocks up to the one that is marked as the last. -/
def readBlocks (size : Nat) : Nat → ByteArray → Read ByteArray
  | 0, _ => failure
  | fuel + 1, out => do
    let last ← bit
    let out ← readBlock size out
    if last = 1 then return out else readBlocks size fuel out

/-- The bytes that a compressed row of bytes starts with, and the place after them. Every symbol and
    every block takes up a bit, so the fuel is enough. -/
def inflate (bytes : ByteArray) : Option (ByteArray × Nat) := do
  let size := 8 * bytes.size + 1
  let (out, c) ← (readBlocks size size ByteArray.empty).run ⟨bytes, 0⟩
  return (out, (c.position + 7) / 8)

/-! ### Writing -/

/-- The two bytes of a number, least significant first. -/
def word16 (n : Nat) : ByteArray := ⟨#[UInt8.ofNat n, UInt8.ofNat (n / 256)]⟩

/-- A block that holds bytes as they are. -/
def storedBlock (last : Bool) (bytes : ByteArray) : ByteArray :=
  (ByteArray.empty.push (if last then 1 else 0)) ++ word16 bytes.size ++ word16 (0xffff - bytes.size)
    ++ bytes

def blockSize : Nat := 0xffff

/-- Bytes in the deflate format, not compressed. -/
def store (bytes : ByteArray) : ByteArray :=
  let full := (bytes.size - 1) / blockSize
  let head := (List.range full).foldl (fun out k =>
    out ++ storedBlock false (bytes.extract (k * blockSize) ((k + 1) * blockSize))) ByteArray.empty
  head ++ storedBlock true (bytes.extract (full * blockSize) bytes.size)

end FxStack.Deflate
