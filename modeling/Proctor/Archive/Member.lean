import Proctor.Archive
import Proctor.Text.Utf8

/-!
# Members of archives

A member of an archive as whoever reads the archive sees it: a name, the way its contents are kept,
their checksum and size, the time of the last modification and the mode of the file. An archive may
give a time that no calendar has, and then the member has none.
-/

namespace Proctor.Archive

/-- How the contents of a member are kept. -/
inductive Method where
  | stored
  | deflated
  deriving DecidableEq, Repr

/-- A member of an archive. -/
structure Member where
  name : List Char
  method : Method
  crc : Nat
  /-- The size that the archive gives. -/
  size : Nat
  /-- The time of the last modification, if the calendar has it. -/
  modified : Option Timestamp
  /-- The mode of the file, if the archive tells it. -/
  mode : Option Nat
  data : Bytes
  deriving DecidableEq, Repr

/-- An entry as the reader of its archive sees it. -/
def member (entry : Entry) : Member where
  name := Utf8.lossy entry.name
  method := .deflated
  crc := (Crc32.ofBytes entry.data).toNat
  size := entry.size
  modified := Timestamp.ofFields? entry.modified.date entry.modified.time
  mode := some Entry.mode
  data := entry.data

/-- The mode of a file as an archive tells it for the system that wrote it: as such, or through the
attributes of a file system without modes. -/
def modeOf? (system attributes : Nat) : Option Nat :=
  if attributes = 0 then none
  else if system = 3 then some (attributes / 65536)
  else if system = 0 then
    let mode := if attributes.testBit 4 then 0o40775 else 0o100664
    some (if attributes.testBit 0 then mode &&& 0o555 else mode)
  else none

end Proctor.Archive
