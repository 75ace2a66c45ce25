import Proctor.Archive.Image
import Proctor.Archive.Member
import Proctor.Text.CodePage

/-!
# Lines of a directory

The directory of an archive has a line for each member. Behind the fixed fields of a line stand the
name, additional fields and a comment. An additional field has a number for its kind, a width and
its contents; some kinds replace what the fixed fields say: sizes and places that need 64 bits, and
names in UTF-8. A field that is cut off ends the fields, whereas one that contradicts its own rules
makes the line unreadable.
-/

namespace Proctor.Archive

open Bytes (field takeExact?)

/-- The number in place of one that needs 64 bits. -/
def wideMark : Nat := 0xFFFFFFFF

/-- A name or a comment in the encoding of its archive. -/
structure Label where
  bytes : Bytes
  /-- Whether the bytes are meant as UTF-8, and not as characters of the code page. -/
  isUtf8 : Bool

/-- A label as text. -/
def Label.text (label : Label) : List Char :=
  if label.isUtf8 then Utf8.lossy label.bytes else CodePage.decode label.bytes

/-- A line of a directory. -/
structure Line where
  /-- The system that wrote the line. -/
  system : Nat
  isEncrypted : Bool
  method : Nat
  date : Nat
  time : Nat
  crc : Nat
  /-- The number of bytes that the contents take up in the archive. -/
  kept : Nat
  size : Nat
  name : Label
  comment : Label
  attributes : Nat
  /-- Where the header of the member begins. -/
  place : Nat
  /-- Whether the contents are encrypted in the newer way. -/
  isSealed : Bool := false

/-- The numbers of a line that may need 64 bits. -/
inductive WideNumber where
  | size
  | kept
  | place
  deriving DecidableEq, Repr

/-- The value of such a number in a line. -/
def WideNumber.get (line : Line) : WideNumber → Nat
  | size => line.size
  | kept => line.kept
  | place => line.place

/-- A line with another value of such a number. -/
def WideNumber.set (line : Line) (value : Nat) : WideNumber → Line
  | size => { line with size := value }
  | kept => { line with kept := value }
  | place => { line with place := value }

/-- What comes of an additional field. -/
inductive FieldOutcome where
  /-- The line that the field leads to, and the bytes after the field. -/
  | read (line : Line) (rest : Bytes)
  /-- The field is cut off. -/
  | cut (line : Line)
  /-- The field contradicts its rules. -/
  | refused

namespace FieldOutcome

/-- Read some bytes of a field and go on with them. -/
def taking (count : Nat) (line : Line) (bytes : Bytes) (next : Bytes → Bytes → FieldOutcome) :
    FieldOutcome :=
  match takeExact? count bytes with
  | some (taken, rest) => next taken rest
  | none => cut line

/-- Pass over some bytes of a field that do not matter. -/
def skip (count : Nat) (line : Line) (bytes : Bytes) : FieldOutcome :=
  taking count line bytes fun _ rest => read line rest

end FieldOutcome

namespace Line

open FieldOutcome

/-- Read numbers of 64 bits: all of them, or those that the line marks as missing. `width` is what
is left of the field. -/
def widen (all : Bool) : List WideNumber → (width : Nat) → Line → Bytes → FieldOutcome
  | [], width, line, bytes => skip width line bytes
  | number :: numbers, width, line, bytes =>
    if all || number.get line = wideMark then
      taking 8 line bytes fun taken rest =>
        let line := number.set line (Bytes.number taken)
        if width < 8 then
          -- The numbers that follow are still read, and a line that is cut off there is kept.
          match widen all numbers 0 line rest with
          | cut line => cut line
          | _ => refused
        else widen all numbers (width - 8) line rest
    else widen all numbers width line bytes

/-- A field for a name or a comment in UTF-8, which has to give the checksum of what it replaces. -/
def unicode (width : Nat) (replaced : Bytes) (line : Line) (bytes : Bytes)
    (next : Label → Line) : FieldOutcome :=
  taking 5 line bytes fun head rest =>
    if width < 5 then refused
    else
      taking (width - 5) line rest fun text rest =>
        if Utf8.isValid text && Bytes.number (head.drop 1) = (Crc32.ofBytes replaced).toNat then
          read (next ⟨text, true⟩) rest
        else refused

/-- The number of ones among the bits of a byte. -/
def ones (b : UInt8) : Nat :=
  ((List.range 8).filter b.toNat.testBit).length

/-- The number of times that a field can give. -/
def timesLimit : Nat := 3

/-- A field with times: a bit for each one that there is, and then each in four bytes. A field with
one time may claim others, which stand elsewhere. -/
def times (width : Nat) (line : Line) (bytes : Bytes) : FieldOutcome :=
  taking 1 line bytes fun which rest =>
    let fits := width = 5 || width = 1 + 4 * (which.map ones).foldl (· + ·) 0
    if fits && Bytes.number which < Nat.pow 2 timesLimit then
      skip (width - 1) line rest
    else refused

/-- A field with times to a tenth of a microsecond. -/
def preciseTimes (width : Nat) (line : Line) (bytes : Bytes) : FieldOutcome :=
  if width ≠ 32 then refused
  else
    taking 6 line bytes fun head rest =>
      if field 2 4 head ≠ 1 then refused
      else
        taking 2 line rest fun size rest =>
          if Bytes.number size ≠ 24 then refused else skip 24 line rest

/-- A field that says how contents are encrypted in the newer way, and how they were kept before. -/
def sealing (width : Nat) (line : Line) (bytes : Bytes) : FieldOutcome :=
  if width ≠ 7 then refused
  else
    taking 7 line bytes fun taken rest =>
      let version := field 2 0 taken
      let strength := field 1 4 taken
      if field 2 2 taken = 0x4541 && 1 ≤ version && version ≤ 2 && 1 ≤ strength && strength ≤ 3 then
        read { line with isSealed := true, method := field 2 5 taken } rest
      else refused

/-- Read one additional field of the given kind and width. -/
def addField (kind width : Nat) (line : Line) (bytes : Bytes) : FieldOutcome :=
  if kind = 0x0001 then
    widen (24 ≤ width) [.size, .kept, .place] width line bytes
  else if kind = 0x000A then preciseTimes width line bytes
  else if kind = 0x9901 then sealing width line bytes
  else if kind = 0x5455 then times width line bytes
  else if kind = 0x6375 then
    unicode width (Utf8.encode line.comment.text) line bytes fun label =>
      { line with comment := label }
  else if kind = 0x7075 then
    unicode width line.name.bytes line bytes fun label => { line with name := label }
  else skip width line bytes

/-- Read additional fields to their end. Each takes at least the four bytes of its kind and width,
so that `fuel`, the number of bytes, is enough. -/
def addFields : (fuel : Nat) → Line → Bytes → Option Line
  | 0, line, _ => some line
  | fuel + 1, line, bytes =>
    match takeExact? 4 bytes with
    | none => some line
    | some (head, rest) =>
      match addField (field 2 0 head) (field 2 2 head) line rest with
      | .read line rest => addFields fuel line rest
      | .cut line => some line
      | .refused => none

/-- The bytes at which a line begins. -/
def mark : Bytes := [0x50, 0x4B, 0x01, 0x02]

/-- The size of the fixed fields. -/
def fixedSize : Nat := 46

/-- The method of contents that are encrypted in the newer way. -/
def sealedMethod : Nat := 99

/-- The line at a place, and the place after it. -/
def at? (image : Image) (place : Nat) : Option (Line × Nat) := do
  guard (place + fixedSize ≤ image.size && image.hasMark mark place)
  let namePlace := place + fixedSize
  let fieldsPlace := namePlace + image.number 2 (place + 28)
  let commentPlace := fieldsPlace + image.number 2 (place + 30)
  let next := commentPlace + image.number 2 (place + 32)
  guard (next ≤ image.size)
  let flags := image.number 2 (place + 8)
  let label (start stop : Nat) : Label :=
    ⟨image.bytesAt start (stop - start), flags.testBit 11⟩
  let line : Line :=
    { system := image.number 1 (place + 5)
      isEncrypted := flags.testBit 0
      method := image.number 2 (place + 10)
      time := image.number 2 (place + 12)
      date := image.number 2 (place + 14)
      crc := image.number 4 (place + 16)
      kept := image.number 4 (place + 20)
      size := image.number 4 (place + 24)
      name := label namePlace fieldsPlace
      comment := label commentPlace next
      attributes := image.number 4 (place + 38)
      place := image.number 4 (place + 42) }
  let additional := image.bytesAt fieldsPlace (commentPlace - fieldsPlace)
  let line ← addFields additional.length line additional
  guard (line.method ≠ sealedMethod || line.isSealed)
  return (line, next)

end Line

end Proctor.Archive
