import Proctor.Command
import Proctor.Failure
import Proctor.FileSystem.Write
import Proctor.Log

/-!
# Sessions

What a run does to the world: it reads and changes files, writes to an output stream, launches the
verifier, and leaves log records. A session is a computation that may fail and that changes a
world, also when it fails. The world keeps the trace of all effects in order, and the log and the
launched commands are views of the trace.
-/

namespace Proctor

/-- An output stream. It takes at most `limit` bytes, if there is a limit, and its flush number
`failingFlush`, counted from one, fails. -/
structure Stream where
  written : Bytes := []
  limit : Option Nat := none
  failingFlush : Option Nat := none
  flushes : Nat := 0
  deriving DecidableEq, Repr

namespace Stream

/-- The part of some bytes that a stream has room for. -/
def accepted (stream : Stream) (bytes : Bytes) : Bytes :=
  match stream.limit with
  | none => bytes
  | some limit => bytes.take (limit - stream.written.length)

/-- Write what there is room for. -/
def write (stream : Stream) (bytes : Bytes) : Stream :=
  { stream with written := stream.written ++ stream.accepted bytes }

/-- Flush the stream. -/
def flush (stream : Stream) : Stream :=
  { stream with flushes := stream.flushes + 1 }

end Stream

/-- Something that a session does. -/
inductive Effect where
  | logged (record : Record)
  /-- Bytes that the output stream took. -/
  | wrote (bytes : Bytes)
  | flushed
  /-- A command that the runner was given. -/
  | launched (command : Command)
  /-- Evidence was to be packaged in a directory. -/
  | packaging (directory : Path)
  deriving DecidableEq, Repr

/-- What a session reads and changes. -/
structure World where
  files : FileSystem
  stream : Stream := {}
  trace : List Effect := []

namespace World

/-- The log records in order. -/
def records (world : World) : List Record :=
  world.trace.filterMap fun
    | .logged record => some record
    | _ => none

/-- The commands that the runner was given, in order. -/
def commands (world : World) : List Command :=
  world.trace.filterMap fun
    | .launched command => some command
    | _ => none

/-- Note an effect. -/
def note (world : World) (effect : Effect) : World :=
  { world with trace := world.trace ++ [effect] }

end World

/-- A computation that changes a world and may fail. -/
abbrev Session := ExceptT Failure (StateM World)

namespace Session

/-- Run a session in a world. -/
def runIn {α : Type} (session : Session α) (world : World) : Except Failure α × World :=
  (ExceptT.run session).run world

/-- Change the world. -/
def change (f : World → World) : Session Unit :=
  modifyThe World f

/-- The files of the world. -/
def files : Session FileSystem :=
  return (← getThe World).files

/-- Leave a log record. -/
def log (level : Level) (source : Source) (text : String) : Session Unit :=
  change (·.note (.logged ⟨level, source, text⟩))

/-- Leave log records in order. -/
def logAll (records : List Record) : Session Unit :=
  records.forM fun record => change (·.note (.logged record))

/-- Write to the output stream. -/
def write (bytes : Bytes) : Session Unit := do
  let stream := (← getThe World).stream
  let accepted := stream.accepted bytes
  change fun world => { world with stream := stream.write bytes }.note (.wrote accepted)
  if accepted.length < bytes.length then throw (.io .outputFull)

/-- Write a line of text to the output stream. -/
def writeLine (text : List Char) : Session Unit :=
  write (Utf8.encode (text ++ ['\n']))

/-- Flush the output stream. -/
def flush : Session Unit := do
  let stream := (← getThe World).stream.flush
  change fun world => { world with stream := stream }.note .flushed
  if stream.failingFlush = some stream.flushes then throw (.io .flushFailed)

/-- The result of a session, whether it failed or not; what it did stays done. -/
def attempt {α : Type} (session : Session α) : Session (Except Failure α) :=
  fun world =>
    let (result, world) := session.runIn world
    (.ok result, world)

end Session

end Proctor
