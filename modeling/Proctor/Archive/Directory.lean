import Proctor.Archive.Line
import Std.Data.TreeMap
import Std.Data.TreeSet

/-!
# The directory of an archive

An archive ends with a record that says where its directory is and how many lines it has. A comment
may follow the record, and the archive may stand after and before other bytes, so that all places
are counted from where the archive itself begins. The record is the last one in the bytes whose
directory can be read. An archive with numbers that need 64 bits has a second record before the
first, and a note between the two that says where the second one is.
-/

namespace Proctor.Archive

/-- Where a directory is. -/
structure Directory where
  /-- Where the archive begins. -/
  origin : Nat
  /-- Where the directory begins, counted from the beginning of the archive. -/
  offset : Nat
  /-- The number of lines. -/
  count : Nat
  /-- The volume that the record is on. -/
  volume : Nat
  /-- The volume that the directory begins on. -/
  firstVolume : Nat
  deriving DecidableEq, Repr

namespace Directory

/-- Where a directory begins. -/
def start (directory : Directory) : Nat :=
  directory.origin + directory.offset

/-- The bytes at which the last record begins. -/
def endMark : Bytes := [0x50, 0x4B, 0x05, 0x06]

/-- The size of the last record, without the comment. -/
def endSize : Nat := 22

/-- The bytes at which a record with 64 bits begins. -/
def wideEndMark : Bytes := [0x50, 0x4B, 0x06, 0x06]

/-- The size of the fixed fields of a record with 64 bits. -/
def wideEndSize : Nat := 56

/-- The bytes at which the note begins that leads to a record with 64 bits. -/
def noteMark : Bytes := [0x50, 0x4B, 0x06, 0x07]

/-- The size of that note. -/
def noteSize : Nat := 20

/-- Where the note before the record at a place begins, if there is one. -/
def notePlace? (image : Image) (place : Nat) : Option Nat :=
  if noteSize ≤ place && image.hasMark noteMark (place - noteSize) then some (place - noteSize)
  else none

/-- What marks the parts of an archive that a record leads to. -/
structure Marks where
  /-- The places of the marks of lines. -/
  lines : Std.TreeSet Nat
  /-- The places of the marks of records with 64 bits, in their order, by where the records end
  according to the size that they tell. -/
  wideEnds : Std.TreeMap Nat (List Nat)

/-- The marks in an image. -/
def Marks.ofImage (image : Image) : Marks where
  lines := .ofList (image.places Line.mark)
  wideEnds := (image.places wideEndMark).foldr
    (fun place ends =>
      let stop := place + 12 + image.number 8 (place + 4)
      ends.insert stop (place :: ends.getD stop []))
    ∅

/-- The first mark of a line from one place up to another one. -/
def Marks.firstLine? (marks : Marks) (start stop : Nat) : Option Nat :=
  (marks.lines.getGE? start).filter (· + Line.mark.length ≤ stop)

/-- The directory that the last record, at a place, tells. The first line of the directory shows
where the archive begins; an archive without members is taken to end at the record. -/
def ofEnd? (image : Image) (marks : Marks) (place : Nat) : Option Directory := do
  let offset := image.number 4 (place + 16)
  let directory (origin : Nat) : Directory :=
    ⟨origin, offset, image.number 2 (place + 8), image.number 2 (place + 4),
      image.number 2 (place + 6)⟩
  if image.number 2 (place + 10) = 0 then return directory (place - offset)
  guard (offset < place)
  let first ← marks.firstLine? offset place
  return directory (first - offset)

/-- The directory that the record with 64 bits at a place tells. `told` is where the note after it
expects the record, and `volume` the volume that the note tells. -/
def ofWideEnd? (image : Image) (told volume place : Nat) : Option Directory := do
  guard (image.number 4 (place + 20) = volume)
  let count := image.number 8 (place + 32)
  let offset := image.number 8 (place + 48)
  guard (count * Line.fixedSize + offset ≤ place)
  return ⟨place - told, offset, count, image.number 4 (place + 16), volume⟩

/-- Whether the record with 64 bits at a place can be relied on: it does not count more members
here than there are, and a reader of the version that wrote it can read it. -/
def isSoundWideEnd (image : Image) (place : Nat) : Bool :=
  image.number 8 (place + 24) ≤ image.number 8 (place + 32) &&
    image.number 2 (place + 14) ≤ image.number 2 (place + 12)

/-- The directory that the note at `note` leads to: that of the first record which ends there. -/
def ofNote? (image : Image) (marks : Marks) (note : Nat) : Option Directory := do
  let told := image.number 8 (note + 8)
  guard (told < note)
  guard (image.number 4 (note + 16) ≤ 1)
  let found (place : Nat) : Option (Nat × Directory) :=
    if told ≤ place && place + wideEndSize ≤ note then
      (ofWideEnd? image told (image.number 4 (note + 4)) place).map (place, ·)
    else none
  let (place, directory) ← (marks.wideEnds.getD note []).findSome? found
  guard (isSoundWideEnd image place)
  return directory

/-- The directory that the record at a place leads to. The comment after the record has to be
there. -/
def ofRecord? (image : Image) (marks : Marks) (place : Nat) : Option Directory := do
  guard (place + endSize ≤ image.size)
  guard (place + endSize + image.number 2 (place + 20) ≤ image.size)
  let mayBeWide := image.number 2 (place + 10) = 0xFFFF || image.number 4 (place + 16) = wideMark
  match if mayBeWide then notePlace? image place else none with
  | some note => ofNote? image marks note
  | none => ofEnd? image marks place

/-- A line together with where the header of its member begins. -/
structure Located where
  line : Line
  header : Nat

/-- The next lines of a directory from a place on, after those already read, which are in reverse
order. The header of a member stands before the directory. -/
def linesAux? (image : Image) (directory : Directory) : (count place : Nat) →
    (read : List Located) → Option (List Located)
  | 0, _, read => some read.reverse
  | count + 1, place, read =>
    match Line.at? image place with
    | none => none
    | some (line, next) =>
      let header := directory.origin + line.place
      if header < directory.start then
        linesAux? image directory count next (⟨line, header⟩ :: read)
      else none

/-- The lines of a directory. -/
def lines? (image : Image) (directory : Directory) : Option (List Located) :=
  if directory.volume = directory.firstVolume then
    linesAux? image directory directory.count directory.start []
  else none

/-- The lines of the directory of an archive: of the last one that can be read. -/
def ofImage? (image : Image) : Option (List Located) :=
  match (image.places endMark).reverse with
  | [] => none
  | ends =>
    let marks := Marks.ofImage image
    ends.findSome? fun place => (ofRecord? image marks place).bind (lines? image)

end Directory

end Proctor.Archive
