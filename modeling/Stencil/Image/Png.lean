import Stencil.Image

/-!
# Image/Png — rows of colours as a file

A PNG file is a signature followed by chunks, each with its length before it and a checksum after
it. `Png.encode` makes one of rows of colours. The rows are stored as they are, in blocks of the
greatest length that a block may have, so nothing has to be compressed.
-/

namespace Stencil.Png

/-- The four bytes of a number, the highest first. -/
def word (n : UInt32) : ByteArray :=
  ⟨#[(n >>> 24).toUInt8, (n >>> 16).toUInt8, (n >>> 8).toUInt8, n.toUInt8]⟩

/-- The two bytes of a number, the lowest first. -/
def half (n : Nat) : ByteArray :=
  ⟨#[UInt8.ofNat n, UInt8.ofNat (n / 256)]⟩

/-! ## Checksums -/

/-- The remainder of a checksum after one bit more. -/
def crcBit (c : UInt32) : UInt32 :=
  if c &&& 1 == 1 then (c >>> 1) ^^^ 0xEDB88320 else c >>> 1

/-- The remainder of a checksum after one byte more. -/
def crcByte (c : UInt32) (b : UInt8) : UInt32 :=
  Nat.repeat crcBit 8 (c ^^^ b.toUInt32)

/-- **The checksum of a chunk**: the remainder of its bytes as one long binary polynomial. -/
def crc (bytes : ByteArray) : UInt32 :=
  bytes.foldl crcByte 0xFFFFFFFF ^^^ 0xFFFFFFFF

/-- The two sums after one byte more: that of the bytes, and that of the sums so far. -/
def adlerByte (sums : UInt32 × UInt32) (b : UInt8) : UInt32 × UInt32 :=
  let low := (sums.1 + b.toUInt32) % 65521
  (low, (sums.2 + low) % 65521)

/-- **The checksum of stored data**: its two sums in one number. -/
def adler (bytes : ByteArray) : UInt32 :=
  let sums := bytes.foldl adlerByte (1, 0)
  sums.2 <<< 16 ||| sums.1

/-! ## Parts of a file -/

/-- The greatest length of a stored block. -/
def blockLength : Nat := 65535

/-- A stored block; `last` says that none follows. -/
def block (bytes : ByteArray) (last : Bool) : ByteArray :=
  ⟨#[if last then 1 else 0]⟩ ++ half bytes.size ++ half (blockLength - bytes.size) ++ bytes

/-- **The stored form of some bytes**, cut into blocks. -/
def store (bytes : ByteArray) : ByteArray :=
  let count := max 1 ((bytes.size + blockLength - 1) / blockLength)
  let blocks := (List.range count).foldl
    (fun out i =>
      out ++ block (bytes.extract (i * blockLength) ((i + 1) * blockLength)) (i + 1 == count))
    ⟨#[0x78, 0x01]⟩
  blocks ++ word (adler bytes)

/-- A chunk of a file. -/
def chunk (kind : String) (bytes : ByteArray) : ByteArray :=
  let body := kind.toUTF8 ++ bytes
  word (UInt32.ofNat bytes.size) ++ body ++ word (crc body)

/-- A row of colours as bytes: a mark that the row is kept as it is, and three bytes a colour. -/
def addRow (out : ByteArray) (row : List Color) : ByteArray :=
  row.foldl
    (fun out c =>
      ((out.push (UInt8.ofNat c.red.val)).push (UInt8.ofNat c.green.val)).push
        (UInt8.ofNat c.blue.val))
    (out.push 0)

/-- What stands before the colours: the size, and that a channel has eight bits and a pixel three
channels. -/
def header (width height : Nat) : ByteArray :=
  word (UInt32.ofNat width) ++ word (UInt32.ofNat height) ++ ⟨#[8, 2, 0, 0, 0]⟩

/-- **The file of some rows of colours**, all of the same width. -/
def encode (width height : Nat) (rows : List (List Color)) : ByteArray :=
  ⟨#[0x89, 0x50, 0x4E, 0x47, 0x0D, 0x0A, 0x1A, 0x0A]⟩ ++
    chunk "IHDR" (header width height) ++
    chunk "IDAT" (store (rows.foldl addRow ByteArray.empty)) ++
    chunk "IEND" ByteArray.empty

end Stencil.Png

namespace Stencil.Image

/-- **The file of a picture.** -/
def toPng (image : Image) : ByteArray :=
  Png.encode image.size.width image.size.height image.rows

end Stencil.Image
