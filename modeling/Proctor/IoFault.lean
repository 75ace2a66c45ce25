/-!
# Faults of the operating system

The reasons for which reading, writing, listing or launching something fails, each with the text
the operating system gives it.
-/

namespace Proctor

/-- Why an operation on a file, a program or a stream failed. -/
inductive IoFault where
  /-- There is nothing at the path, or a directory on the way to it is missing. -/
  | notFound
  /-- Something on the way to the path is not a directory. -/
  | notADirectory
  /-- A directory was read or written as if it were a file. -/
  | isADirectory
  /-- Too many symbolic links had to be followed. -/
  | linkLoop
  /-- The path, or a name in it, is too long. -/
  | nameTooLong
  /-- The path contains the byte zero. -/
  | nulInName
  /-- The contents of the file are not UTF-8. -/
  | notText
  /-- The file may not be read, written or run. -/
  | permissionDenied
  /-- The file may be run but is not a program. -/
  | notAProgram
  /-- What belongs to a program lies beyond the end of its file. -/
  | cutOff
  /-- What belongs to a program lies where no file can be read. -/
  | invalidArgument
  /-- The loader of a program is not a binary. -/
  | badLoader
  /-- The name or an argument of a program contains the byte zero. -/
  | nulInArgument
  /-- The contents have no end. -/
  | outOfMemory
  /-- The stream takes no further bytes. -/
  | outputFull
  /-- The stream could not be flushed. -/
  | flushFailed
  deriving DecidableEq, Repr

namespace IoFault

/-- The text of a fault. -/
def message : IoFault → String
  | notFound => "No such file or directory (os error 2)"
  | notADirectory => "Not a directory (os error 20)"
  | isADirectory => "Is a directory (os error 21)"
  | linkLoop => "Too many levels of symbolic links (os error 40)"
  | nameTooLong => "File name too long (os error 36)"
  | nulInName => "file name contained an unexpected NUL byte"
  | notText => "stream did not contain valid UTF-8"
  | permissionDenied => "Permission denied (os error 13)"
  | notAProgram => "Exec format error (os error 8)"
  | cutOff => "Input/output error (os error 5)"
  | invalidArgument => "Invalid argument (os error 22)"
  | badLoader => "Accessing a corrupted shared library (os error 80)"
  | nulInArgument => "nul byte found in provided data"
  | outOfMemory => "Cannot allocate memory (os error 12)"
  | outputFull => "output full"
  | flushFailed => "flush failed"

end IoFault

end Proctor
