import Proctor.Archive.Timestamp
import Proctor.Bytes

/-!
# Archives

A zip archive is its entries in order: a name, the contents under it and a time. Compression is
invisible to whoever reads an archive, so an archive is kept as the list of its entries, and
`Archive.encode` gives one byte form, in which the contents are deflated into stored blocks. Every
entry has the same mode, that of a regular file which its owner may write and everybody may read.

The byte form has no numbers of more than 32 bits, and counts the entries in 16 bits. It is meant
for archives for which this is enough; contents for which it is not enough do not fit.
-/

namespace Proctor

/-- An entry of an archive. -/
structure Entry where
  name : Bytes
  data : Bytes
  /-- The time of the last modification. -/
  modified : Archive.Timestamp
  deriving DecidableEq, Repr

namespace Entry

/-- The mode of every entry. -/
def mode : Nat := 0o100644

/-- The number of contained bytes. -/
def size (entry : Entry) : Nat :=
  entry.data.length

end Entry

namespace Crc32

/-- One bit of the division by the generator polynomial, in reflected form. -/
def shift (crc : UInt32) : UInt32 :=
  if crc &&& 1 = 1 then (crc >>> 1) ^^^ 0xEDB88320 else crc >>> 1

/-- One byte of the division. -/
def update (crc : UInt32) (b : UInt8) : UInt32 :=
  (List.range 8).foldl (fun crc _ => shift crc) (crc ^^^ b.toUInt32)

/-- The CRC-32 of a byte string. -/
def ofBytes (bytes : Bytes) : UInt32 :=
  bytes.foldl update 0xFFFFFFFF ^^^ 0xFFFFFFFF

end Crc32

/-- An archive: its entries in order. -/
abbrev Archive := List Entry

namespace Archive

/-- A number in `width` bytes, the least significant first. -/
def littleEndian : (width : Nat) → Nat → Bytes
  | 0, _ => []
  | width + 1, n => UInt8.ofNat n :: littleEndian width (n / 256)

/-- The names of the entries in order. -/
def names (archive : Archive) : List Bytes :=
  archive.map Entry.name

/-- The largest number of bytes in a stored block. -/
def blockSize : Nat := 65535

/-- The deflate stream without contents: one block in the fixed code, which ends at once. -/
def emptyStream : Bytes := [0x03, 0x00]

/-- What stands before the contents of a stored block: whether it is the last one, its size and the
complement of its size. -/
def blockHead (last : Bool) (size : Nat) : Bytes :=
  (if last then 1 else 0) :: (littleEndian 2 size ++ littleEndian 2 (blockSize - size))

/-- A deflate stream of stored blocks. -/
def storedBlocks (data : Bytes) : Bytes :=
  if _h : data.length ≤ blockSize then blockHead true data.length ++ data
  else blockHead false blockSize ++ data.take blockSize ++ storedBlocks (data.drop blockSize)
termination_by data.length
decreasing_by
  simp only [List.length_drop, blockSize] at _h ⊢
  omega

/-- A deflate stream with the given contents. -/
def deflate (data : Bytes) : Bytes :=
  if data.isEmpty then emptyStream else storedBlocks data

/-- The size of a deflate stream with contents of the given size. Each block has five bytes before
its contents. -/
def deflatedSize (size : Nat) : Nat :=
  if size = 0 then emptyStream.length else size + 5 * ((size + (blockSize - 1)) / blockSize)

/-- The greatest size of the contents of an entry, before and after deflation. -/
def sizeLimit : Nat := Nat.pow 2 32 - 1

/-- Whether contents of the given size can be those of an entry. -/
def fits (size : Nat) : Bool :=
  size ≤ sizeLimit && deflatedSize size ≤ sizeLimit

/-- The flags of an entry: its name is marked as UTF-8 unless it is ASCII. -/
def flags (name : Bytes) : Nat :=
  if name.all (· < 0x80) then 0 else 0x800

/-- What the header before the contents and the directory at the end have in common. -/
def description (name : Bytes) (modified : Timestamp) (crc compressed size : Nat) : Bytes :=
  littleEndian 2 20 ++ littleEndian 2 (flags name) ++ littleEndian 2 8 ++
    littleEndian 2 modified.time ++ littleEndian 2 modified.date ++ littleEndian 4 crc ++
    littleEndian 4 compressed ++ littleEndian 4 size ++ littleEndian 2 name.length ++
    littleEndian 2 0

/-- The header before the contents of an entry. -/
def localHeader (name : Bytes) (modified : Timestamp) (crc compressed size : Nat) : Bytes :=
  [0x50, 0x4B, 0x03, 0x04] ++ description name modified crc compressed size ++ name

/-- The header written when an entry is begun, before its contents are known. -/
def openHeader (name : Bytes) (modified : Timestamp) : Bytes :=
  localHeader name modified 0 0 0

/-- An entry with its header and its contents. -/
def record (entry : Entry) : Bytes :=
  let body := deflate entry.data
  localHeader entry.name entry.modified (Crc32.ofBytes entry.data).toNat body.length entry.size ++
    body

/-- The entries with their headers, before the directory at the end. -/
def records (archive : Archive) : Bytes :=
  archive.flatMap record

/-- The line of the directory for an entry whose record begins at `offset`. -/
def directoryLine (offset : Nat) (entry : Entry) : Bytes :=
  [0x50, 0x4B, 0x01, 0x02] ++ littleEndian 2 (3 * 256 + 20) ++
    description entry.name entry.modified (Crc32.ofBytes entry.data).toNat
      (deflate entry.data).length entry.size ++
    littleEndian 2 0 ++ littleEndian 2 0 ++ littleEndian 2 0 ++
    littleEndian 4 (Entry.mode * 65536) ++ littleEndian 4 offset ++ entry.name

/-- The directory for entries whose records begin at `offset`. -/
def directory : (offset : Nat) → Archive → Bytes
  | _, [] => []
  | offset, entry :: rest =>
    directoryLine offset entry ++ directory (offset + (record entry).length) rest

/-- The bytes of an archive. -/
def encode (archive : Archive) : Bytes :=
  let body := archive.records
  let index := directory 0 archive
  body ++ index ++ [0x50, 0x4B, 0x05, 0x06] ++ littleEndian 2 0 ++ littleEndian 2 0 ++
    littleEndian 2 archive.length ++ littleEndian 2 archive.length ++
    littleEndian 4 index.length ++ littleEndian 4 body.length ++ littleEndian 2 0

end Archive

end Proctor
