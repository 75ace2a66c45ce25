import Proctor.Architecture
import Proctor.Path
import Proctor.Strategy
import Proctor.Text.Unstyled

/-!
# Command-line arguments

Flags, parameters with a value, and one argument that stands for itself, the benchmark. The
arguments are read from left to right. A value that stands in an argument of its own is kept
pending and checked when the next flag or value comes, or at the end; an argument that cannot be
read at all is reported before that.
-/

namespace Proctor.CommandLine

/-- Something that is present or not. -/
inductive Flag where
  | version
  | concurrency
  | dryRun
  | ci
  | help
  deriving DecidableEq, Repr

/-- Something that has a value. -/
inductive Parameter where
  | architecture
  | propertyFile
  | strategy
  | settings
  | benchmark
  deriving DecidableEq, Repr

/-- A flag in messages. -/
def Flag.label : Flag → String
  | version => "--version"
  | concurrency => "--concurrency"
  | dryRun => "--dry-run"
  | ci => "--ci"
  | help => "--help"

/-- A parameter in messages. -/
def Parameter.label : Parameter → String
  | architecture => "--arch <ARCH>"
  | propertyFile => "--propertyfile <PROPERTYFILE>"
  | strategy => "--strategy <STRATEGY>"
  | settings => "--config <CONFIG>"
  | benchmark => "[BENCHMARK]"

/-- What is wrong with the arguments. -/
inductive UsageFault where
  /-- The value is not among the possible ones. -/
  | invalidValue (value : Bytes) (parameter : Parameter)
  | missingValue (parameter : Parameter)
  | repeatedFlag (flag : Flag)
  | repeatedParameter (parameter : Parameter)
  | unexpectedArgument (argument : Bytes)
  /-- A flag was given a value. -/
  | unexpectedValue (value : Bytes) (flag : Flag)
  | notText
  deriving DecidableEq, Repr

/-- What messages show of an argument. -/
def shown (argument : Bytes) : String :=
  String.ofList (Text.unstyled (Utf8.lossy argument))

/-- The text of a usage fault. -/
def UsageFault.message : UsageFault → String
  | invalidValue value parameter =>
    s!"invalid value '{shown value}' for '{parameter.label}'"
  | missingValue parameter =>
    s!"a value is required for '{parameter.label}' but none was supplied"
  | repeatedFlag flag => s!"the argument '{flag.label}' cannot be used multiple times"
  | repeatedParameter parameter =>
    s!"the argument '{parameter.label}' cannot be used multiple times"
  | unexpectedArgument argument => s!"unexpected argument '{shown argument}' found"
  | unexpectedValue value flag =>
    s!"unexpected value '{shown value}' for '{flag.label}' found; no more were expected"
  | notText => "invalid UTF-8 was detected in one or more arguments"

/-- What the arguments ask for. -/
structure Options where
  flags : List Flag := []
  architecture : Option Architecture := none
  propertyFile : Option Path := none
  strategy : Option Strategy := none
  settings : Option Path := none
  benchmark : Option Path := none
  deriving DecidableEq, Repr

namespace Options

/-- Whether a flag is given. -/
def has (options : Options) (flag : Flag) : Bool :=
  options.flags.contains flag

/-- Whether a parameter is given. -/
def gives (options : Options) : Parameter → Bool
  | .architecture => options.architecture.isSome
  | .propertyFile => options.propertyFile.isSome
  | .strategy => options.strategy.isSome
  | .settings => options.settings.isSome
  | .benchmark => options.benchmark.isSome

/-- The data models that can be asked for. -/
def architectures : List (String × Architecture) :=
  [("32", .bits32), ("64", .bits64)]

/-- The one of some named things that a value names exactly. -/
def choose {α : Type} (choices : List (String × α)) (parameter : Parameter) (value : Bytes) :
    Except UsageFault α :=
  if !Utf8.isValid value then .error .notText
  else if value.isEmpty then .error (.missingValue parameter)
  else
    match choices.find? fun choice => Bytes.ofString choice.1 == value with
    | some choice => .ok choice.2
    | none => .error (.invalidValue value parameter)

/-- A value that is a path, which is not empty. -/
def nonempty (parameter : Parameter) (value : Bytes) : Except UsageFault Path :=
  if value.isEmpty then .error (.missingValue parameter) else .ok value

/-- Set a parameter, which may be done once. -/
def set (options : Options) (parameter : Parameter) (value : Bytes) :
    Except UsageFault Options :=
  if options.gives parameter then .error (.repeatedParameter parameter)
  else
    match parameter with
    | .architecture => do
      return { options with architecture := some (← choose architectures parameter value) }
    | .strategy => do
      let strategies := Strategy.all.map fun strategy => (strategy.name, strategy)
      return { options with strategy := some (← choose strategies parameter value) }
    | .propertyFile => do
      return { options with propertyFile := some (← nonempty parameter value) }
    | .settings => do return { options with settings := some (← nonempty parameter value) }
    | .benchmark => do return { options with benchmark := some (← nonempty parameter value) }

end Options

/-- A parameter whose value has not been checked yet. -/
inductive Pending where
  /-- The value is the next argument. -/
  | waiting (parameter : Parameter)
  | given (parameter : Parameter) (value : Bytes)
  deriving DecidableEq, Repr

/-- How far the reader of the arguments has come. -/
structure Progress where
  options : Options := {}
  pending : Option Pending := none
  /-- Whether the benchmark has been seen. -/
  positional : Bool := false
  /-- Whether only arguments that stand for themselves follow. -/
  trailing : Bool := false
  deriving DecidableEq, Repr

/-- How the reading of one argument ends. -/
inductive Step where
  | next (progress : Progress)
  | help
  | wrong (fault : UsageFault)
  deriving DecidableEq, Repr

namespace Progress

/-- Check the value that is pending. -/
def settle (progress : Progress) : Except UsageFault Progress :=
  match progress.pending with
  | none => .ok progress
  | some (.waiting parameter) => .error (.missingValue parameter)
  | some (.given parameter value) => do
    return { progress with options := ← progress.options.set parameter value, pending := none }

/-- Read a flag. -/
def flag (progress : Progress) (flag : Flag) : Step :=
  match progress.settle with
  | .error fault => .wrong fault
  | .ok progress =>
    if flag = .help then .help
    else if progress.options.has flag then .wrong (.repeatedFlag flag)
    else
      let flags := progress.options.flags ++ [flag]
      .next { progress with options := { progress.options with flags } }

/-- Read a parameter together with its value. -/
def attached (progress : Progress) (parameter : Parameter) (value : Bytes) : Step :=
  match progress.settle with
  | .error fault => .wrong fault
  | .ok progress =>
    match progress.options.set parameter value with
    | .error fault => .wrong fault
    | .ok options => .next { progress with options }

/-- Read a parameter whose value is the next argument. -/
def detached (progress : Progress) (parameter : Parameter) : Step :=
  match progress.settle with
  | .error fault => .wrong fault
  | .ok progress => .next { progress with pending := some (.waiting parameter) }

/-- What a long option is. -/
def longName? (name : Bytes) : Option (Flag ⊕ Parameter) :=
  let options : List (String × (Flag ⊕ Parameter)) :=
    [("arch", .inr .architecture), ("version", .inl .version),
      ("propertyfile", .inr .propertyFile), ("strategy", .inr .strategy),
      ("concurrency", .inl .concurrency), ("dry-run", .inl .dryRun), ("ci", .inl .ci),
      ("config", .inr .settings), ("help", .inl .help)]
  (options.find? fun option => Bytes.ofString option.1 == name).map Prod.snd

/-- What a short option is. -/
def shortName? (b : UInt8) : Option (Flag ⊕ Parameter) :=
  let options : List (Char × (Flag ⊕ Parameter)) :=
    [('a', .inr .architecture), ('v', .inl .version), ('p', .inr .propertyFile),
      ('s', .inr .strategy), ('c', .inl .concurrency), ('n', .inl .dryRun), ('h', .inl .help)]
  (options.find? fun option => option.1.toNat == b.toNat).map Prod.snd

/-- The two hyphens before a long option. -/
def longMark : Bytes := Bytes.ofString "--"

/-- The hyphen before short options. -/
def shortMark : Bytes := Bytes.ofString "-"

/-- The sign between an option and its value. -/
def equals : UInt8 := 0x3D

/-- Read a long option, given without its hyphens, with or without a value. -/
def long (progress : Progress) (argument : Bytes) : Step :=
  let name := argument.takeWhile (· ≠ equals)
  let value? := (argument.dropWhile (· ≠ equals)).tail?
  match longName? name, value? with
  | none, _ => .wrong (.unexpectedArgument (longMark ++ name))
  | some (.inl flag), none => progress.flag flag
  | some (.inl flag), some value => .wrong (.unexpectedValue value flag)
  | some (.inr parameter), none => progress.detached parameter
  | some (.inr parameter), some value => progress.attached parameter value

/-- The fault for short options that go on with an unknown one: its character is told, or all the
rest if that does not begin with a character. -/
def unknownShort (rest : Bytes) : UsageFault :=
  match Utf8.scan rest with
  | some c :: _ => .unexpectedArgument (shortMark ++ String.utf8EncodeChar c)
  | _ => .unexpectedArgument (shortMark ++ rest)

/-- Read short options that stand together, given without their hyphen. The first one with a value
takes all that follows it, without an equals sign, or the next argument if nothing follows. -/
def short : Progress → Bytes → Step
  | progress, [] => .next progress
  | progress, b :: rest =>
    match shortName? b with
    | none => .wrong (unknownShort (b :: rest))
    | some (.inl flag) =>
      match progress.flag flag with
      | .next progress => short progress rest
      | step => step
    | some (.inr parameter) =>
      match rest with
      | [] => progress.detached parameter
      | first :: value =>
        progress.attached parameter (if first = equals then value else first :: value)

/-- Read an argument that stands for itself. -/
def positionalArgument (progress : Progress) (argument : Bytes) : Step :=
  if progress.positional then .wrong (.unexpectedArgument argument)
  else
    match progress.settle with
    | .error fault => .wrong fault
    | .ok progress =>
      .next { progress with pending := some (.given .benchmark argument), positional := true }

/-- Read an argument that is no option: a value that is waited for, or one that stands for
itself. -/
def plain (progress : Progress) (argument : Bytes) : Step :=
  match progress.pending with
  | some (.waiting parameter) =>
    .next { progress with pending := some (.given parameter argument) }
  | _ => progress.positionalArgument argument

/-- Read one argument. -/
def step (progress : Progress) (argument : Bytes) : Step :=
  if progress.trailing then progress.positionalArgument argument
  else if argument = longMark then .next { progress with trailing := true }
  else
    match Sequence.dropBeginning? longMark argument with
    | some rest => progress.long rest
    | none =>
      match Sequence.dropBeginning? shortMark argument with
      | some (b :: rest) => progress.short (b :: rest)
      | _ => progress.plain argument

end Progress

/-- What the arguments amount to. -/
inductive Request where
  | help
  | proceed (options : Options)
  deriving DecidableEq, Repr

/-- Read the arguments from left to right. -/
def parseFrom : Progress → List Bytes → Except UsageFault Request
  | progress, [] => do return .proceed (← progress.settle).options
  | progress, argument :: rest =>
    match progress.step argument with
    | .next progress => parseFrom progress rest
    | .help => .ok .help
    | .wrong fault => .error fault

/-- Read the arguments. -/
def parse (arguments : List Bytes) : Except UsageFault Request :=
  parseFrom {} arguments

end Proctor.CommandLine
