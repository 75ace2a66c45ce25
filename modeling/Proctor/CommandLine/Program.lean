import Proctor.CommandLine.Arguments
import Proctor.Run

/-!
# The program

What the program does with its arguments, from the settings to the exit status. The settings are
loaded first; then the version is asked for, if it is wanted, and otherwise the property file and
the benchmark must be given and the run takes place in the working directory.
-/

namespace Proctor.CommandLine

/-- The lines of the help text. -/
def helpLines : List String :=
  ["Run ESBMC on a Test-Comp benchmark and package the generated test suite",
    "",
    "Usage: esbmc-wrapper [OPTIONS] [BENCHMARK]",
    "",
    "Arguments:",
    "  [BENCHMARK]  C benchmark to verify",
    "",
    "Options:",
    "  -a, --arch <ARCH>                  " ++
      "Data model of the benchmark [default: 32] [possible values: 32, 64]",
    "  -v, --version                      Print the verifier version and exit",
    "  -p, --propertyfile <PROPERTYFILE>  Test-Comp property file",
    "  -s, --strategy <STRATEGY>          Verification strategy [default: fixed] " ++
      "[possible values: kinduction, falsi, incr, fixed]",
    "  -c, --concurrency                  " ++
      "Hint that the benchmark is concurrent (the benchmark scan decides)",
    "  -n, --dry-run                      Print the verifier command without running it",
    "      --ci                           Running on CI",
    "      --config <CONFIG>              JSON settings file (verifier location)",
    "  -h, --help                         Print help"]

/-- The help text. -/
def help : String :=
  String.join (helpLines.map (· ++ "\n"))

/-- The configuration that options ask for, with the files and the settings known. -/
def configuration (options : Options) (settings : Settings) (property benchmark : Path) :
    Configuration where
  property := property
  benchmark := benchmark
  strategy := options.strategy.getD .fixedKInduction
  architecture := options.architecture.getD .assumed
  concurrencyHint := options.has .concurrency
  dryRun := options.has .dryRun
  ci := options.has .ci
  settings := settings

/-- The settings that options ask for. -/
def loadSettings (options : Options) : Session Settings := do
  match options.settings with
  | some path => Configuration.settingsOfFile (← Session.files) path
  | none => return {}

/-- A file that has to be given. -/
def required (argument : MissingArgument) (path? : Option Path) : Session Path :=
  match path? with
  | some path => return path
  | none => throw (.missingArgument argument)

/-- Do what options ask for, on a system with the given programs. -/
def perform (programs : Programs) (options : Options) : Session Unit := do
  let settings ← loadSettings options
  let runner := Runner.process programs (options.has .dryRun)
  if options.has .version then
    match ← Version.query runner settings.verifier with
    | some version => Session.writeLine version
    | none => return
  else
    let property ← required .property options.propertyFile
    let benchmark ← required .benchmark options.benchmark
    let directory := (← Session.files).workingPath
    discard <| Run.orchestrate (configuration options settings property benchmark) runner directory

/-- The name under which the log shows a part of the program. -/
def sourceLabel : Source → String
  | .property => "bmcwrap::config::property"
  | .benchmark => "bmcwrap::inspect::benchmark"
  | .runner => "bmcwrap::exec::runner"
  | .verdict => "bmcwrap::verdict::verdict"
  | .evidence => "bmcwrap::evidence::packager"
  | .run => "bmcwrap::core::orchestrator"

/-- The lines that the log shows: the warnings. -/
def logLines (records : List Record) : List String :=
  (records.filter (·.level = .warn)).map fun record =>
    s!"[WARN  {sourceLabel record.source}] {record.text}"

/-- The lines that tell a failure. -/
def failureLines (failure : Failure) : List String :=
  s!"Error: {failure.message}" ::
    match failure.cause? with
    | some fault => ["", "Caused by:", "    " ++ fault.message]
    | none => []

/-- What a call of the program leaves behind. -/
structure Invocation where
  status : Nat
  stdout : Bytes
  stderr : List String
  world : World

/-- Call the program with arguments in a file system. -/
def invoke (programs : Programs) (files : FileSystem) (arguments : List Bytes) : Invocation :=
  match parse arguments with
  | .error fault => ⟨2, [], [s!"error: {fault.message}"], { files }⟩
  | .ok .help => ⟨0, Bytes.ofString help, [], { files }⟩
  | .ok (.proceed options) =>
    match (perform programs options).runIn { files } with
    | (.ok (), world) => ⟨0, world.stream.written, logLines world.records, world⟩
    | (.error failure, world) =>
      ⟨1, world.stream.written, logLines world.records ++ failureLines failure, world⟩

end Proctor.CommandLine
