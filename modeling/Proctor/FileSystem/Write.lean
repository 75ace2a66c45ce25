import Proctor.FileSystem.Lookup

/-!
# Changing files

Creating and overwriting files, directories and links. A file that is written through a link
changes at the end of the link, and a dangling link creates the file that it leads to.
-/

namespace Proctor

namespace FileSystem

/-- Open the file at a path for writing: a file that is there is emptied, and one that is not
there is created. Both have to be allowed. The location is that of the file behind all links. -/
def create (fs : FileSystem) (path : Path) : Except IoFault (Location × FileSystem) :=
  match fs.find true path with
  | .error fault => .error fault
  | .ok (.vacant directory name) =>
    let location := directory.enter name
    if fs.writable directory && fs.writable location then
      .ok (location, fs.put location (.file (.data []) false))
    else .error .permissionDenied
  | .ok (.found location) =>
    match fs.node? location with
    | some (.file _ executable) =>
      if fs.writable location then .ok (location, fs.put location (.file (.data []) executable))
      else .error .permissionDenied
    | some (.device _) =>
      if fs.writable location then .ok (location, fs) else .error .permissionDenied
    | _ => .error .isADirectory

/-- Replace what the regular file at a location holds. -/
def setContent (fs : FileSystem) (location : Location) (content : Content) : FileSystem :=
  match fs.node? location with
  | some (.file _ executable) => fs.put location (.file content executable)
  | _ => fs

/-- Write a file in one go. -/
def write (fs : FileSystem) (path : Path) (bytes : Bytes) : Except IoFault FileSystem :=
  match fs.create path with
  | .ok (location, fs) => .ok (fs.setContent location (.data bytes))
  | .error fault => .error fault

/-- Make the file at a path executable. -/
def allowExecution (fs : FileSystem) (path : Path) : FileSystem :=
  match fs.locate path with
  | .ok location =>
    match fs.node? location with
    | some (.file content _) => fs.put location (.file content true)
    | _ => fs
  | .error _ => fs

/-- Create the directories that some names lead to one after the other, from a location on, where
they are missing. -/
def makeDirectoriesFrom (fs : FileSystem) : Location → List Name → FileSystem
  | _, [] => fs
  | location, name :: names =>
    match Lookup.walk fs.shape? false Lookup.linkLimit location [Path.Step.ofName name] with
    | .ok (.found next) => fs.makeDirectoriesFrom next names
    | .ok (.vacant directory name) =>
      (fs.put (directory.enter name) .directory).makeDirectoriesFrom (directory.enter name) names
    | .error _ => fs
termination_by structural _ names => names

/-- Create a directory and the directories above it, where they are missing. -/
def makeDirectories (fs : FileSystem) (path : Path) : FileSystem :=
  fs.makeDirectoriesFrom (Lookup.origin fs.workingDirectory path) path.names

/-- The path of the directory that a path names an entry of; empty for the working directory. -/
def parentPath (path : Path) : Path :=
  (if path.isAbsolute then [Path.separator] else []) ++
    [Path.separator].intercalate path.names.dropLast

/-- The location that a path names, without following a link there. -/
def entryLocation (fs : FileSystem) (path : Path) : Option Location := do
  let name ← path.names.getLast?
  let parent := parentPath path
  if parent.isEmpty then return fs.workingDirectory.enter name
  match fs.locate parent with
  | .ok directory => return directory.enter name
  | .error _ => none

end FileSystem

/-- A change to a file system. Directories that are missing on the way to a new file, directory or
link are created too, wherever that is. -/
inductive Change where
  /-- Write a file, in place of one that is there. -/
  | file (path : Path) (bytes : Bytes)
  | directory (path : Path)
  | link (path target : Path)
  /-- Remove a file or a link, or a directory with all that is in it. -/
  | removal (path : Path)
  deriving DecidableEq, Repr

namespace FileSystem

/-- Carry out a change. One that is impossible has no effect. -/
def apply (fs : FileSystem) : Change → FileSystem
  | .file path bytes =>
    let fs := fs.makeDirectories (parentPath path)
    (fs.write path bytes).toOption.getD fs
  | .directory path => fs.makeDirectories path
  | .link path target =>
    let fs := fs.makeDirectories (parentPath path)
    match fs.entryLocation path with
    | some location => if (fs.node? location).isSome then fs else fs.put location (.link target)
    | none => fs
  | .removal path =>
    match fs.entryLocation path with
    | some location => fs.erase location
    | none => fs

/-- Carry out changes in order. -/
def applyAll (fs : FileSystem) (changes : List Change) : FileSystem :=
  changes.foldl apply fs

end FileSystem

end Proctor
