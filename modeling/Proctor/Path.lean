import Proctor.Text.Utf8

/-!
# Paths

A path is a byte string whose names are separated by slashes. It is read as a list of steps: into
a named entry, to the directory itself, or to the directory above it.
-/

namespace Proctor

/-- The name of a directory entry. -/
abbrev Name := Bytes

/-- A path as it is written. -/
abbrev Path := Bytes

namespace Path

/-- The byte between the names of a path. -/
def separator : UInt8 := 0x2F

/-- The name by which a directory refers to itself. -/
def selfName : Name := [0x2E]

/-- The name by which a directory refers to the one above it. -/
def parentName : Name := [0x2E, 0x2E]

/-- Whether a path starts from the root. -/
def isAbsolute (path : Path) : Bool :=
  path.head? == some separator

/-- The path of an entry of a directory. A slash is put between them unless the directory is
empty or ends with one. -/
def join (dir : Path) (name : Name) : Path :=
  if dir.isEmpty || dir.getLast? == some separator then dir ++ name
  else dir ++ separator :: name

/-- The names between the slashes of a path. -/
def names (path : Path) : List Name :=
  (Sequence.splitOn separator path).filter fun name => !name.isEmpty

/-- The last name of a path, unless it is the one for the directory above. Names for the
directory itself do not count. -/
def lastName? (path : Path) : Option Name :=
  (path.names.filter (· ≠ selfName)).getLast?.filter (· ≠ parentName)

/-- One step along a path. -/
inductive Step where
  /-- Stay, which only a directory allows. -/
  | here
  /-- Go to the directory above. -/
  | up
  /-- Go to the entry of that name. -/
  | name (name : Name)
  /-- A slash at the end of the path: stay, which only a directory allows. -/
  | slash
  deriving DecidableEq, Repr

/-- The step for one name of a path. -/
def Step.ofName (name : Name) : Step :=
  if name = selfName then .here else if name = parentName then .up else .name name

/-- The steps of a path, from the root or from the directory it is relative to. -/
def steps (path : Path) : List Step :=
  path.names.map Step.ofName ++ if path.getLast? == some separator then [.slash] else []

/-- A path as text. -/
def display (path : Path) : String :=
  Utf8.display path

end Path

end Proctor
