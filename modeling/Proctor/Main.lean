import Proctor.CommandLine.Program

/-!
# The command line

The outer layer of the program. It takes a picture of the files that a call can read, calls
`CommandLine.invoke` on the picture, prints what the call wrote, and stores the archive. No process
is started from here: the verifier stands before the program in a pipe, so that its output is what
the standard input holds.
-/

namespace Proctor.CommandLine

/-- Add a file or a directory of the computer to a picture of its files, if it exists. Every file
counts as executable. -/
def addToPicture (files : FileSystem) (name : String) : IO FileSystem := do
  let path := Bytes.ofString name
  try
    let place ← IO.FS.realPath name
    if ← place.isDir then
      return files.apply (.directory path)
    else
      let data ← IO.FS.readBinFile place
      return (files.apply (.file path data.toList)).allowExecution path
  catch _ =>
    return files

/-- The names of the files that options mention, the verifier apart. -/
def mentioned (options : Options) : List String :=
  ([options.propertyFile, options.benchmark, options.settings].filterMap id).map Path.display

/-- The verifier that options ask for, if their settings can be loaded. -/
def verifier? (options : Options) (files : FileSystem) : Option Path :=
  match (loadSettings options).runIn { files } with
  | (.ok settings, _) => some settings.verifier
  | (.error _, _) => none

/-- Add a program to a picture, and the program through which it is started, up to a number of
such steps. -/
def addProgram (files : FileSystem) : (steps : Nat) → Path → IO FileSystem
  | steps, path => do
    let files ← addToPicture files (Path.display path)
    match steps, (files.read path).toOption.bind Program.helper? with
    | steps + 1, some helper => addProgram files steps helper
    | _, _ => return files

/-- A picture of the files that a call with the given options can read. -/
def picture (options : Options) : IO FileSystem := do
  let directory ← IO.currentDir
  let mut files := FileSystem.empty (Path.names (Bytes.ofString directory.toString))
  for entry in ← directory.readDir do
    files ← addToPicture files entry.fileName
  for name in mentioned options do
    files ← addToPicture files name
  match verifier? options files with
  | some verifier => addProgram files (FileSystem.interpreterLimit + 2) verifier
  | none => return files

/-- All that a stream still holds. -/
partial def readAll (stream : IO.FS.Stream) : IO Bytes := do
  let block ← stream.read 65536
  if block.isEmpty then return [] else return block.toList ++ (← readAll stream)

/-- The programs of a system on which every program prints the given bytes and changes nothing. -/
def printing (output : Bytes) : Programs := fun _ files =>
  ⟨output, [], .code 0, files⟩

/-- Carry out a call on the computer, and give its exit status. -/
def callOnComputer (arguments : List String) : IO UInt32 := do
  let arguments := arguments.map Bytes.ofString
  let (files, output) ← match parse arguments with
    | .ok (.proceed options) => do
      let output ← if options.has .dryRun then pure [] else readAll (← IO.getStdin)
      pure (← picture options, output)
    | _ => pure (FileSystem.empty [], [])
  let invocation := invoke (printing output) files arguments
  (← IO.getStdout).write ⟨invocation.stdout.toArray⟩
  invocation.stderr.forM fun line => IO.eprintln line
  match invocation.world.files.content? (Bytes.ofString Evidence.archiveFile) with
  | some (.archive entries) => IO.FS.writeBinFile Evidence.archiveFile ⟨entries.encode.toArray⟩
  | _ => pure ()
  return UInt32.ofNat invocation.status

end Proctor.CommandLine

/-- The entry point of the program. -/
def main (arguments : List String) : IO UInt32 :=
  Proctor.CommandLine.callOnComputer arguments
