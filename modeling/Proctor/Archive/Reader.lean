import Proctor.Archive.Directory
import Proctor.Archive.Inflate
import Std.Data.TreeMap

/-!
# Reading archives

The members of a zip archive that is given as bytes. Members whose contents are encrypted or
compressed in another way than by deflation cannot be read, and neither can one whose contents do
not have the checksum that the directory gives. Contents that go beyond the end of the bytes are cut
off there. If a name occurs twice in the directory, the later line counts, at the place of the
earlier one.
-/

namespace Proctor.Archive

/-- The bytes at which the header of a member begins. -/
def headerMark : Bytes := [0x50, 0x4B, 0x03, 0x04]

/-- The size of the fixed fields of the header of a member. -/
def headerSize : Nat := 30

/-- Where the contents of a member begin whose header is at a place. The name and the additional
fields of the header do not matter. -/
def contentsPlace? (image : Image) (place : Nat) : Option Nat := do
  guard (place + headerSize ≤ image.size && image.hasMark headerMark place)
  return place + headerSize + image.number 2 (place + 26) + image.number 2 (place + 28)

/-- The contents that bytes keep by the given method. -/
def contents? (method : Nat) (kept : Image) : Option (Method × Bytes) :=
  if method = 0 then some (.stored, kept.toList)
  else if method = 8 then (Inflate.contents? kept).map (.deflated, ·)
  else none

/-- The last line for each name, by name. -/
def lastLines (lines : List Directory.Located) :
    Std.TreeMap (List Char) Directory.Located :=
  lines.foldl (fun last located => last.insert located.line.name.text located) ∅

/-- Lines with the last one of each name at the place of the first one. `last` has the last lines
for the names that have not yet occurred. -/
def latestAux (last : Std.TreeMap (List Char) Directory.Located) :
    (lines : List Directory.Located) → (found : List Directory.Located) → List Directory.Located
  | [], found => found.reverse
  | located :: lines, found =>
    match last[located.line.name.text]? with
    | some latest => latestAux (last.erase located.line.name.text) lines (latest :: found)
    | none => latestAux last lines found

/-- The lines that count: the last one of each name, at the place of the first one. -/
def latest (lines : List Directory.Located) : List Directory.Located :=
  latestAux (lastLines lines) lines []

/-- The member that a line of the directory tells. -/
def memberOf? (image : Image) (located : Directory.Located) : Option Member := do
  let line := located.line
  guard !(line.isEncrypted || line.isSealed)
  let place ← contentsPlace? image located.header
  let (method, data) ← contents? line.method (image.extract place (place + line.kept))
  guard ((Crc32.ofBytes data).toNat = line.crc)
  return {
    name := line.name.text
    method
    crc := line.crc
    size := line.size
    modified := Timestamp.ofFields? line.date line.time
    mode := modeOf? line.system line.attributes
    data }

/-- The members of an archive, unless the bytes are not an archive that can be read. -/
def members? (bytes : Bytes) : Option (List Member) :=
  let image : Image := bytes.toArray
  (Directory.ofImage? image).bind fun lines => (latest lines).mapM (memberOf? image)

end Proctor.Archive
