/-!
# Checksums

The two checksums of image files: CRC-32 over the chunks of a file, and Adler-32 over data that has been
decompressed.
-/

namespace FxStack.Checksum

/-! ### CRC-32 -/

/-- One bit of the division by the CRC-32 polynomial, least significant bit first. -/
def crcBit (c : UInt32) : UInt32 := if c &&& 1 = 1 then (c >>> 1) ^^^ 0xedb88320 else c >>> 1

def crcByte (c : UInt32) (b : UInt8) : UInt32 := Nat.repeat crcBit 8 (c ^^^ b.toUInt32)

/-- The CRC-32 of some bytes. -/
def crc32 (bytes : ByteArray) : UInt32 := bytes.foldl crcByte 0xffffffff ^^^ 0xffffffff

/-! ### Adler-32 -/

/-- The greatest prime below `2 ^ 16`. -/
def adlerModulus : UInt32 := 65521

/-- The Adler-32 of some bytes. -/
def adler32 (bytes : ByteArray) : UInt32 :=
  let (a, b) := bytes.foldl (fun (a, b) x =>
    let a := (a + x.toUInt32) % adlerModulus
    (a, (b + a) % adlerModulus)) ((1 : UInt32), (0 : UInt32))
  (b <<< 16) ||| a

end FxStack.Checksum
