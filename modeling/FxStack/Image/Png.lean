import FxStack.Image
import FxStack.Image.Checksum
import FxStack.Image.Deflate

/-!
# Image files

Reading and writing the PNG format. What is read may be gray or colored, with or without alpha, if it
has eight bits a channel and is not interlaced; what is written has color and alpha.
-/

namespace FxStack.Png

/-! ### Numbers -/

/-- The number of four bytes, most significant first. -/
def number32? (bytes : ByteArray) (start : Nat) : Option Nat := do
  let a ← bytes[start]?
  let b ← bytes[start + 1]?
  let c ← bytes[start + 2]?
  let d ← bytes[start + 3]?
  return ((a.toNat * 256 + b.toNat) * 256 + c.toNat) * 256 + d.toNat

/-- The four bytes of a number, most significant first. -/
def word32 (n : Nat) : ByteArray :=
  ⟨#[UInt8.ofNat (n / 0x1000000), UInt8.ofNat (n / 0x10000), UInt8.ofNat (n / 0x100), UInt8.ofNat n]⟩

/-! ### Chunks -/

/-- A part of a file. -/
structure Chunk where
  kind : String
  data : ByteArray

/-- The bytes that every file starts with. -/
def signature : ByteArray := ⟨#[0x89, 0x50, 0x4e, 0x47, 0x0d, 0x0a, 0x1a, 0x0a]⟩

def Chunk.bytes (c : Chunk) : ByteArray :=
  let named := c.kind.toUTF8 ++ c.data
  word32 c.data.size ++ named ++ word32 (Checksum.crc32 named).toNat

/-- The chunks from a place on, up to the one that ends the file. -/
def readChunks? (bytes : ByteArray) : Nat → Nat → Option (List Chunk)
  | 0, _ => none
  | fuel + 1, start => do
    let size ← number32? bytes start
    let stop := start + 8 + size
    let check ← number32? bytes stop
    let named := bytes.extract (start + 4) stop
    if (Checksum.crc32 named).toNat ≠ check then none
    else
      let kind ← String.fromUTF8? (named.extract 0 4)
      let chunk : Chunk := ⟨kind, named.extract 4 named.size⟩
      if kind = "IEND" then return [chunk]
      else return chunk :: (← readChunks? bytes fuel (stop + 4))

/-! ### Channels -/

/-- What the bytes of a pixel mean. -/
inductive ColorType where
  | gray | rgb | grayAlpha | rgba

namespace ColorType

def ofNumber? : Nat → Option ColorType
  | 0 => some .gray
  | 2 => some .rgb
  | 4 => some .grayAlpha
  | 6 => some .rgba
  | _ => none

/-- The number of bytes of a pixel. -/
def channels : ColorType → Nat
  | .gray => 1
  | .rgb => 3
  | .grayAlpha => 2
  | .rgba => 4

/-- The pixel of the bytes that `byte` gives. -/
def pixel (t : ColorType) (byte : Nat → UInt8) : Pixel :=
  match t with
  | .gray => ⟨byte 0, byte 0, byte 0, 255⟩
  | .rgb => ⟨byte 0, byte 1, byte 2, 255⟩
  | .grayAlpha => ⟨byte 0, byte 0, byte 0, byte 1⟩
  | .rgba => ⟨byte 0, byte 1, byte 2, byte 3⟩

end ColorType

/-! ### Rows -/

/-- Of three neighbors the one nearest to what a plane through them would have. -/
def paeth (left above corner : UInt8) : UInt8 :=
  let plane : Int := (left.toNat : Int) + above.toNat - corner.toNat
  let distance (x : UInt8) : Nat := (plane - x.toNat).natAbs
  if distance left ≤ distance above ∧ distance left ≤ distance corner then left
  else if distance above ≤ distance corner then above
  else corner

/-- What a row filter adds to a byte. -/
def prediction? (filter : Nat) (left above corner : UInt8) : Option UInt8 :=
  match filter with
  | 0 => some 0
  | 1 => some left
  | 2 => some above
  | 3 => some (UInt8.ofNat ((left.toNat + above.toNat) / 2))
  | 4 => some (paeth left above corner)
  | _ => none

/-- The bytes of a row whose pixels have `channels` bytes, given the filtered ones and the row above. -/
def unfilterRow? (channels filter : Nat) (above row : ByteArray) : Option ByteArray :=
  (List.range row.size).foldlM (fun out k => do
    let before (bytes : ByteArray) : UInt8 := if k < channels then 0 else bytes[k - channels]?.getD 0
    let p ← prediction? filter (before out) (above[k]?.getD 0) (before above)
    return out.push ((← row[k]?) + p)) (ByteArray.emptyWithCapacity row.size)

/-- The bytes of all rows, each of which starts with the number of its filter. -/
def unfilter? (channels rowSize height : Nat) (bytes : ByteArray) : Option ByteArray := do
  let (out, _) ← (List.range height).foldlM (fun (out, above) y => do
    let start := y * (rowSize + 1)
    let filter ← bytes[start]?
    let row := bytes.extract (start + 1) (start + 1 + rowSize)
    if row.size < rowSize then none
    else
      let row ← unfilterRow? channels filter.toNat above row
      return (out ++ row, row)) (ByteArray.empty, ByteArray.empty)
  return out

/-! ### Files -/

/-- The data of a compressed stream with its header and checksum. -/
def decompress? (bytes : ByteArray) : Option ByteArray := do
  let method ← bytes[0]?
  let flags ← bytes[1]?
  if method.toNat % 16 ≠ 8 ∨ (method.toNat * 256 + flags.toNat) % 31 ≠ 0 then none
  else
    let (out, stop) ← Deflate.inflate (bytes.extract 2 bytes.size)
    let check ← number32? bytes (2 + stop)
    if (Checksum.adler32 out).toNat = check then some out else none

/-- A stream that holds data without compressing it. -/
def compress (bytes : ByteArray) : ByteArray :=
  (⟨#[0x78, 0x01]⟩ : ByteArray) ++ Deflate.store bytes ++ word32 (Checksum.adler32 bytes).toNat

def decode? (bytes : ByteArray) : Option Image := do
  if (bytes.extract 0 8).data != signature.data then none
  else
    let chunks ← readChunks? bytes bytes.size 8
    let header ← chunks.head?
    let width ← number32? header.data 0
    let height ← number32? header.data 4
    let type ← ColorType.ofNumber? (← header.data[9]?).toNat
    let isPlain := header.data[8]? == some 8 && (header.data.extract 10 13).data == #[0, 0, 0]
    if header.kind != "IHDR" || width == 0 || height == 0 || !isPlain then none
    else
      let stream := (chunks.filter (·.kind = "IDAT")).foldl (fun out c => out ++ c.data) ByteArray.empty
      let rowSize := width * type.channels
      let bytes ← unfilter? type.channels rowSize height (← decompress? stream)
      return .ofFn width height fun x y =>
        type.pixel fun k => bytes[y * rowSize + x * type.channels + k]?.getD 0

/-- The rows of an image, each after the number of the filter that adds nothing. -/
def rows (i : Image) : ByteArray :=
  (List.range i.height).foldl (fun out y =>
    (List.range i.width).foldl (fun out x => (i.get x y).bytes.foldl ByteArray.push out) (out.push 0))
    ByteArray.empty

def encode (i : Image) : ByteArray :=
  let header := word32 i.width ++ word32 i.height ++ ⟨#[8, 6, 0, 0, 0]⟩
  signature ++ Chunk.bytes ⟨"IHDR", header⟩ ++ Chunk.bytes ⟨"IDAT", compress (rows i)⟩
    ++ Chunk.bytes ⟨"IEND", ByteArray.empty⟩

end FxStack.Png
