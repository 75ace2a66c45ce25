import Proctor.FileSystem.Start
import Proctor.Output
import Proctor.Session
import Proctor.Text.Blank

/-!
# Runners

A runner carries out a command. It may change files on the way, and it answers with the output of
the command, or that it launched nothing because only the command was asked for, or with a failure.
The runner of processes starts the program named by the command; what that program does is given as
a function, because the rest of the library must hold for every verifier.
-/

namespace Proctor

/-- What came of a command. -/
inductive Execution where
  | completed (output : Output)
  /-- Nothing was launched. -/
  | dryRun
  deriving DecidableEq, Repr

/-- The answer of a runner: the result, the log records, and the files after it. -/
structure Reply where
  result : Except Failure Execution
  records : List Record := []
  files : FileSystem

/-- What carries out a command. -/
abbrev Runner := Command → FileSystem → Reply

/-- How a process ended. -/
inductive ExitStatus where
  | code (n : Nat)
  /-- It was ended by a signal, and an image of its memory was kept or not. -/
  | signal (number : Nat) (dumped : Bool)
  deriving DecidableEq, Repr

namespace ExitStatus

/-- The names of the signals, from number one on. -/
def signalNames : List String :=
  ["SIGHUP", "SIGINT", "SIGQUIT", "SIGILL", "SIGTRAP", "SIGABRT", "SIGBUS", "SIGFPE", "SIGKILL",
    "SIGUSR1", "SIGSEGV", "SIGUSR2", "SIGPIPE", "SIGALRM", "SIGTERM", "SIGSTKFLT", "SIGCHLD",
    "SIGCONT", "SIGSTOP", "SIGTSTP", "SIGTTIN", "SIGTTOU", "SIGURG", "SIGXCPU", "SIGXFSZ",
    "SIGVTALRM", "SIGPROF", "SIGWINCH", "SIGIO", "SIGPWR", "SIGSYS"]

/-- The name of a signal in brackets; some signals have none. -/
def signalLabel (number : Nat) : String :=
  match number with
  | 0 => ""
  | number + 1 =>
    match signalNames[number]? with
    | some name => s!" ({name})"
    | none => ""

/-- An exit status as text. -/
def text : ExitStatus → String
  | code n => s!"exit status: {n}"
  | signal number dumped =>
    s!"signal: {number}" ++ signalLabel number ++ if dumped then " (core dumped)" else ""

/-- It was killed. -/
def killed : ExitStatus := signal 9 false

/-- It used memory that it does not have. -/
def crashed : ExitStatus := signal 11 false

end ExitStatus

/-- What a program that was started did. -/
structure Finished where
  stdout : Bytes
  stderr : Bytes
  status : ExitStatus
  files : FileSystem

/-- What the programs of a system do with their arguments. -/
abbrev Programs := Command → FileSystem → Finished

namespace Runner

/-- The runner of processes. In dry mode it launches nothing. -/
def process (programs : Programs) (dryRun : Bool) : Runner := fun command files =>
  let program := command.program.display
  if dryRun then
    { result := .ok .dryRun, files,
      records := [⟨.debug, .runner, s!"Dry run: not launching {program}"⟩] }
  else
    match files.startable command.program with
    | .error fault =>
      { result := .error (.process s!"Failed to start {program}: {fault.message}"), files }
    | .ok () =>
      let finished := programs command files
      { result := .ok (.completed (Output.ofStreams finished.stdout finished.stderr)),
        files := finished.files,
        records := [⟨.debug, .runner, s!"{program} finished with {finished.status.text}"⟩] }

end Runner

namespace Session

/-- Give a command to a runner. -/
def launch (runner : Runner) (command : Command) : Session Execution := do
  let reply := runner command (← files)
  change fun world => { world with files := reply.files }.note (.launched command)
  logAll reply.records
  reply.result

end Session

namespace Version

/-- The command that asks a verifier for its version. -/
def command (verifier : Path) : Command :=
  ⟨verifier, [Bytes.ofString "--version"]⟩

/-- The number of characters before the version. -/
def bannerLength : Nat := 6

/-- The version in the answer of a verifier: what follows the name of the verifier, without blanks
around it. -/
def ofText (text : List Char) : List Char :=
  Text.trim (text.drop bannerLength)

/-- Ask a verifier for its version. There is none if nothing is launched. -/
def query (runner : Runner) (verifier : Path) : Session (Option (List Char)) := do
  match ← Session.launch runner (command verifier) with
  | .completed output => return some (ofText output.text)
  | .dryRun => return none

end Version

end Proctor
