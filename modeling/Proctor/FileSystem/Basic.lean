import Proctor.Archive.Reader
import Proctor.FileSystem.Location
import Proctor.Program

/-!
# File systems

A file system is a finite map from locations to nodes. The root itself is always a directory.
`node?` is the view of a file system: everything else is said through it.

A node has one location, but a file may have more than one name: the node under each of its names is
then a hard link to the location where the file stands. If no path leads there, as to a location
under the empty name, then the file outlives the removal of any of its names.

Besides the nodes there is what belongs to whoever uses the files: the working directory, the
directories in which programs are searched for, and which locations may be read and written. Every
directory may be searched on the way to its entries, and no operation has to wait for another
process, as it may have to when a pipe is opened.
-/

namespace Proctor

/-- What a regular file holds. -/
inductive Content where
  /-- Bytes of no known structure. -/
  | data (bytes : Bytes)
  /-- A complete archive. -/
  | archive (entries : Archive)
  /-- An archive that is being written: its complete entries, the last one first, and what follows
  them. -/
  | unfinished (entries : Archive) (rest : Bytes)
  deriving DecidableEq, Repr

/-- What a reader of the file sees. -/
def Content.bytes : Content → Bytes
  | data bytes => bytes
  | archive entries => entries.encode
  | unfinished entries rest => Archive.records entries.reverse ++ rest

/-- The members of the archive that a file holds, if it can be read as one. Those of a complete
archive are its entries, without a look at the bytes. -/
def Content.members? : Content → Option (List Archive.Member)
  | data bytes => Archive.members? bytes
  | archive entries => some (entries.map Archive.member)
  | unfinished .. => none

/-- A device that takes the place of a file. -/
inductive Device where
  /-- The device that is always empty and forgets what is written to it. -/
  | null
  /-- The device that has no end and forgets what is written to it. -/
  | zero
  /-- The device that has no end and on which every write fails. -/
  | full
  /-- A pipe that is at its end. It takes what is written to it, but only in order. -/
  | pipe
  deriving DecidableEq, Repr

/-- Whether reading a device never ends. -/
def Device.isEndless : Device → Bool
  | null | pipe => false
  | zero | full => true

/-- Whether an archive can be written to a device. The device has to take the bytes, and to let the
writer go back to the header of an entry once the contents are known. -/
def Device.takesArchive : Device → Bool
  | null | zero => true
  | full | pipe => false

/-- What there is at a location. -/
inductive Node where
  /-- A regular file, which can be run as a program or not. -/
  | file (content : Content) (executable : Bool)
  | directory
  /-- A symbolic link to a path. -/
  | link (target : Path)
  /-- A name of the file at another location. -/
  | hardLink (file : Location)
  | device (device : Device)
  deriving DecidableEq, Repr

/-- Whether no archive can be written to a node. -/
def Node.refusesArchive : Node → Bool
  | .device kind => !kind.takesArchive
  | _ => false

/-- A finite map from locations to nodes, and what belongs to whoever uses it. -/
structure FileSystem where
  nodes : Std.TreeMap Location Node Location.order
  /-- The location that relative paths start from. -/
  workingDirectory : Location
  /-- The directories in which a program is searched for that is named without a slash. -/
  programDirectories : List Path
  /-- Whether a location may be read: the file there, or the names in the directory there. -/
  readable : Location → Bool := fun _ => true
  /-- Whether a location may be written: the file there, or the names in the directory there. -/
  writable : Location → Bool := fun _ => true

namespace FileSystem

/-- What there is at a location. The root is a directory. -/
def node? (fs : FileSystem) (location : Location) : Option Node :=
  if location.depth = 0 then some .directory else fs.nodes[location]?

/-- Put a node at a location, in place of what was there. -/
def put (fs : FileSystem) (location : Location) (node : Node) : FileSystem :=
  { fs with nodes := fs.nodes.insert location node }

/-- Remove what is at a location and below it. What is put there later may be read and written. -/
def erase (fs : FileSystem) (location : Location) : FileSystem :=
  { fs with
    nodes := fs.nodes.filter fun other _ => !location.isWithin other
    readable := fun other => location.isWithin other || fs.readable other
    writable := fun other => location.isWithin other || fs.writable other }

/-- The names of the entries of a directory, in no particular order. -/
def children (fs : FileSystem) (directory : Location) : List Name :=
  fs.nodes.keys.filterMap directory.nameIn?

/-- What every system has: the devices, and the shell. -/
def systemNodes : List (List String × Node) :=
  [(["dev"], .directory), (["dev", "null"], .device .null), (["dev", "zero"], .device .zero),
    (["dev", "full"], .device .full), (["bin"], .directory),
    (["bin", "sh"], .file (.data Program.leastBinary) true)]

/-- Where programs are searched for, unless something else is said. -/
def systemDirectories : List Path :=
  ["/usr/local/bin", "/usr/bin", "/bin"].map Bytes.ofString

/-- Put directories at the places that names lead to one after the other, from a location on. -/
def putDirectories (fs : FileSystem) : Location → List Name → FileSystem
  | _, [] => fs
  | location, name :: names =>
    (fs.put (location.enter name) .directory).putDirectories (location.enter name) names
termination_by structural _ names => names

/-- The file system that has nothing but what every system has, the working directory that the given
names lead to, and the directories above it. -/
def empty (workingDirectory : List Name) : FileSystem :=
  let base : FileSystem :=
    { nodes := ∅
      workingDirectory := Location.ofNames workingDirectory
      programDirectories := systemDirectories }
  let add (fs : FileSystem) : List String × Node → FileSystem
    | (names, node) => fs.put (Location.ofNames (names.map Bytes.ofString)) node
  (systemNodes.foldl add base).putDirectories Location.root workingDirectory

/-- The absolute path of the working directory. -/
def workingPath (fs : FileSystem) : Path :=
  fs.workingDirectory.path

/-! ### What the operations do to the view -/

@[simp] theorem node?_root (fs : FileSystem) :
  fs.node? .root = some .directory
  := rfl

theorem node?_enter (fs : FileSystem) (directory : Location) (name : Name) :
  fs.node? (directory.enter name) = fs.nodes[directory.enter name]?
  := rfl

theorem node?_put_self (fs : FileSystem) {location : Location} (node : Node)
    (h : location ≠ .root) :
  (fs.put location node).node? location = some node
  := by
  have hdepth : location.depth ≠ 0 := fun hzero =>
    h (Location.eq_of_names (List.length_eq_zero_iff.1 (location.depth_eq ▸ hzero)))
  simp [node?, put, hdepth]

theorem node?_put_of_ne (fs : FileSystem) {location other : Location} (node : Node)
    (h : other ≠ location) :
  (fs.put location node).node? other = fs.node? other
  := by
  have hne : ¬ Location.order location other = .eq := fun heq =>
    h (Std.LawfulEqCmp.eq_of_compare heq).symm
  simp only [node?, put, Std.TreeMap.getElem?_insert, if_neg hne]

theorem mem_children {fs : FileSystem} {directory : Location} {name : Name} :
  name ∈ fs.children directory ↔ (fs.node? (directory.enter name)).isSome
  := by
  simp [children, node?_enter, Location.nameIn?_eq_some_iff, Std.TreeMap.mem_keys]

end FileSystem

end Proctor
