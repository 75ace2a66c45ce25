import Proctor.Path

/-!
# Commands

A program and its arguments, as they are handed to the operating system.
-/

namespace Proctor

/-- A program with its arguments. -/
structure Command where
  program : Path
  arguments : List Bytes
  deriving DecidableEq, Repr

namespace Command

/-- The command as text: the program and the arguments with a space between them. Spaces within
arguments are not marked. -/
def display (command : Command) : String :=
  String.ofList (Utf8.lossy command.program ++
    command.arguments.flatMap fun argument => ' ' :: Utf8.lossy argument)

/-- Whether flags stand among the arguments one right after the other. -/
def containsSequence (command : Command) (flags : List String) : Bool :=
  Sequence.occurs (flags.map Bytes.ofString) command.arguments

end Command

end Proctor
