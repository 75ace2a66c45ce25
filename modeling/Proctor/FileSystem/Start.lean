import Proctor.FileSystem.Lookup

/-!
# Starting programs

Whether the program at a path can be started. A script is started through its interpreter, which
may again be a script, up to a limit, and a binary through its loader, if it has one. A program that
is named without a slash is searched for in the directories for programs.
-/

namespace Proctor.FileSystem

open Lookup

/-- The contents of the file at a path, if it may be run. -/
def runnable (fs : FileSystem) (path : Path) : Except IoFault Bytes :=
  match fs.nodeAt path with
  | .ok (.file content true) => .ok content.bytes
  | .ok _ => .error .permissionDenied
  | .error fault => .error fault

/-- The contents of an interpreter or a loader, if it may be run. An empty name stands for the
working directory. -/
def interpreter (fs : FileSystem) (path : Path) : Except IoFault Bytes :=
  if path.isEmpty then .error .permissionDenied else fs.runnable path

/-- Whether the loader at a path can load a binary. -/
def loadable (fs : FileSystem) (path : Path) : Except IoFault Unit :=
  match fs.interpreter path with
  | .error fault => .error fault
  | .ok contents =>
    match Program.loaderFault? contents with
    | some fault => .error fault
    | none => .ok ()

/-- Whether a file with the given contents can be started, if at most `depth` interpreters may be
scripts. -/
def startableContents (fs : FileSystem) : (depth : Nat) → Bytes → Except IoFault Unit
  | depth, bytes =>
    match Program.ofBytes bytes with
    | .error fault => .error fault
    | .ok (.binary none) => .ok ()
    | .ok (.binary (some path)) => fs.loadable path
    | .ok (.script path) =>
      match fs.interpreter path, depth with
      | .error fault, _ => .error fault
      | .ok _, 0 => .error .linkLoop
      | .ok contents, depth + 1 => fs.startableContents depth contents

/-- The number of interpreters that may be scripts. -/
def interpreterLimit : Nat := 5

/-- Whether the program at a path can be started. -/
def startableAt (fs : FileSystem) (path : Path) : Except IoFault Unit :=
  match fs.runnable path with
  | .ok contents => fs.startableContents interpreterLimit contents
  | .error fault => .error fault

/-- Whether the search for a program goes on after a fault in one directory. -/
def isPassedOver (fault : IoFault) : Bool :=
  fault = .notFound || fault = .notADirectory || fault = .permissionDenied

/-- Whether the program under a name in one of some directories can be started. The directories are
tried in order. `fault` is why the search has failed so far, where a program that may not be run
counts more than one that is not there. -/
def startableIn (fs : FileSystem) (name : Name) :
    (fault : IoFault) → (directories : List Path) → Except IoFault Unit
  | fault, [] => .error fault
  | fault, directory :: rest =>
    match fs.startableAt (directory.join name) with
    | .ok () => .ok ()
    | .error next =>
      if isPassedOver next then
        fs.startableIn name (if fault = .permissionDenied then fault else next) rest
      else .error next

/-- Whether a program can be started that is named without a slash. -/
def startableByName (fs : FileSystem) (name : Name) : Except IoFault Unit :=
  if name.isEmpty then .error .notFound
  else if nameLimit < name.length then .error .nameTooLong
  else fs.startableIn name .notFound fs.programDirectories

/-- Whether the program at a path can be started, and why not. -/
def startable (fs : FileSystem) (program : Path) : Except IoFault Unit :=
  if program.contains 0 then .error .nulInArgument
  else if !program.contains Path.separator then fs.startableByName program
  else fs.startableAt program

end Proctor.FileSystem
