import Proctor.FileSystem.Basic
import Proctor.IoFault

/-!
# Looking up paths

A path is followed step by step from the root or from the working directory. A symbolic link is
replaced by the steps of its target, at most forty times for one path. The outcome is either a
location at which there is something, or a vacant place: a name that a directory lacks, where a
file could be created.

The walk sees of a node only its shape, that is, whether it is a directory or a link, and where the
link leads. What files hold has therefore no influence on where a path leads.
-/

namespace Proctor

/-- What the walk along a path sees of a node. -/
inductive Shape where
  | directory
  | link (target : Path)
  | hardLink (file : Location)
  | leaf
  deriving DecidableEq, Repr

/-- The shape of a node. -/
def Node.shape : Node → Shape
  | .file .. => .leaf
  | .directory => .directory
  | .link target => .link target
  | .hardLink location => .hardLink location
  | .device _ => .leaf

/-- Where a path leads. -/
inductive Spot where
  /-- To a node. -/
  | found (location : Location)
  /-- To a name that the directory does not have. -/
  | vacant (directory : Location) (name : Name)
  deriving DecidableEq, Repr

namespace Lookup

/-- The longest name. -/
def nameLimit : Nat := 255

/-- The length from which on a path is too long. -/
def pathLimit : Nat := 4096

/-- The number of links that may be followed for one path. -/
def linkLimit : Nat := 40

/-- How a walk ends: at a spot, with a fault, or at a link in `directory` that has to be followed
before the remaining steps. -/
inductive Halt where
  | arrived (spot : Spot)
  | failed (fault : IoFault)
  | atLink (target : Path) (directory : Location) (rest : List Path.Step)
  deriving DecidableEq, Repr

/-- Walk from a directory until the steps are used up, a step fails, or a link is met. When
`creating`, a path whose last name is followed by a slash is refused, because what would be
created there is a file. A hard link leads to the location of its file at once; there are none to
directories. -/
def advance (shape? : Location → Option Shape) (creating : Bool) :
    (directory : Location) → List Path.Step → Halt
  | directory, [] => .arrived (.found directory)
  | directory, .here :: rest => advance shape? creating directory rest
  | directory, .slash :: rest => advance shape? creating directory rest
  | directory, .up :: rest => advance shape? creating directory.parent rest
  | directory, .name name :: rest =>
    if creating && rest == [.slash] then .failed .isADirectory
    else if nameLimit < name.length then .failed .nameTooLong
    else
      match shape? (directory.enter name) with
      | none => if rest.isEmpty then .arrived (.vacant directory name) else .failed .notFound
      | some (.link target) => .atLink target directory rest
      | some (.hardLink file) =>
        if rest.isEmpty && shape? file ≠ some .directory then .arrived (.found file)
        else .failed .notADirectory
      | some .leaf =>
        if rest.isEmpty then .arrived (.found (directory.enter name)) else .failed .notADirectory
      | some .directory => advance shape? creating (directory.enter name) rest

/-- Walk from a location, which has to be a directory. -/
def start (shape? : Location → Option Shape) (creating : Bool) (location : Location)
    (steps : List Path.Step) : Halt :=
  match shape? location with
  | none => .failed .notFound
  | some .directory => advance shape? creating location steps
  | some _ => .failed .notADirectory

/-- Where a path starts: at the root if it is absolute, else at the given directory. -/
def origin (directory : Location) (path : Path) : Location :=
  if path.isAbsolute then .root else directory

/-- Walk to the end, following at most `links` links. -/
def walk (shape? : Location → Option Shape) (creating : Bool) :
    (links : Nat) → Location → List Path.Step → Except IoFault Spot
  | 0, location, steps =>
    match start shape? creating location steps with
    | .arrived spot => .ok spot
    | .failed fault => .error fault
    | .atLink .. => .error .linkLoop
  | links + 1, location, steps =>
    match start shape? creating location steps with
    | .arrived spot => .ok spot
    | .failed fault => .error fault
    | .atLink target directory rest =>
      if target.isEmpty then .error .notFound
      else walk shape? creating links (origin directory target) (target.steps ++ rest)

end Lookup

namespace FileSystem

open Lookup

/-- The shape of what there is at a location. -/
def shape? (fs : FileSystem) (location : Location) : Option Shape :=
  (fs.node? location).map Node.shape

/-- Where a path leads. A path that contains the byte zero, is too long or is empty leads
nowhere. -/
def find (fs : FileSystem) (creating : Bool) (path : Path) : Except IoFault Spot :=
  if path.contains 0 then .error .nulInName
  else if pathLimit ≤ path.length then .error .nameTooLong
  else if path.isEmpty then .error .notFound
  else walk fs.shape? creating linkLimit (origin fs.workingDirectory path) path.steps

/-- The location of what a path leads to, with links followed. -/
def locate (fs : FileSystem) (path : Path) : Except IoFault Location :=
  match fs.find false path with
  | .ok (.found location) => .ok location
  | .ok (.vacant ..) => .error .notFound
  | .error fault => .error fault

/-- What a path leads to, with links followed. -/
def nodeAt (fs : FileSystem) (path : Path) : Except IoFault Node :=
  match fs.locate path with
  | .ok location =>
    match fs.node? location with
    | some node => .ok node
    | none => .error .notFound
  | .error fault => .error fault

/-- What the regular file at a path holds, with links followed. -/
def content? (fs : FileSystem) (path : Path) : Option Content :=
  match fs.nodeAt path with
  | .ok (.file content _) => some content
  | _ => none

/-- Whether a path leads to a regular file, with links followed. -/
def isFile (fs : FileSystem) (path : Path) : Bool :=
  (fs.content? path).isSome

/-- The contents of the file at a path, which has to be one that may be read. -/
def read (fs : FileSystem) (path : Path) : Except IoFault Bytes :=
  match fs.locate path with
  | .error fault => .error fault
  | .ok location =>
    if !fs.readable location then .error .permissionDenied
    else
      match fs.node? location with
      | some (.file content _) => .ok content.bytes
      | some (.device device) => if device.isEndless then .error .outOfMemory else .ok []
      | some _ => .error .isADirectory
      | none => .error .notFound

/-- The contents of the file at a path as text. -/
def readText (fs : FileSystem) (path : Path) : Except IoFault (List Char) :=
  match fs.read path with
  | .ok bytes =>
    match Utf8.decode? bytes with
    | some text => .ok text
    | none => .error .notText
  | .error fault => .error fault

/-- The names of the entries of the directory at a path, which has to be one that may be read. -/
def list (fs : FileSystem) (path : Path) : Except IoFault (List Name) :=
  match fs.locate path with
  | .ok location =>
    match fs.node? location with
    | some .directory =>
      if fs.readable location then .ok (fs.children location) else .error .permissionDenied
    | some _ => .error .notADirectory
    | none => .error .notFound
  | .error fault => .error fault

end FileSystem

end Proctor
