import Proctor.Benchmark
import Proctor.Configuration
import Proctor.Evidence
import Proctor.Property
import Proctor.Runner
import Proctor.Verdict

/-!
# Runs

A run takes a benchmark from a configuration to a report. It goes through eight states, each with a
type of its own, and each step from one to the next is a session. A step that fails ends the run.
The evidence is packed last, and a failure to do so is only noted.
-/

namespace Proctor.Run

/-- The states of a run. -/
inductive State where
  | init
  | categoryResolved
  | concurrencyResolved
  | commandBuilt
  | executed
  | classified
  | printed
  | packaged
  deriving DecidableEq, Repr

/-- The states in the order in which a run goes through them. -/
def State.all : List State :=
  [init, categoryResolved, concurrencyResolved, commandBuilt, executed, classified, printed,
    packaged]

/-- The name of a state. -/
def State.name : State → String
  | init => "Init"
  | categoryResolved => "CategoryResolved"
  | concurrencyResolved => "ConcurrencyResolved"
  | commandBuilt => "CommandBuilt"
  | executed => "Executed"
  | classified => "Classified"
  | printed => "Printed"
  | packaged => "Packaged"

/-- A run that has not done anything. -/
structure Initial where
  configuration : Configuration
  visited : List State
  deriving DecidableEq, Repr

/-- A run that knows what is to be shown. -/
structure Categorised extends Initial where
  category : Category
  deriving DecidableEq, Repr

/-- A run that knows whether the benchmark is concurrent. -/
structure Scanned extends Categorised where
  concurrent : Bool
  deriving DecidableEq, Repr

/-- A run that has its command. -/
structure Prepared extends Scanned where
  command : Command
  deriving DecidableEq, Repr

/-- A run that has the output of the verifier. -/
structure Executed extends Prepared where
  output : Output
  deriving DecidableEq, Repr

/-- A run that has a result code. -/
structure Classified extends Prepared where
  code : ResultCode
  deriving DecidableEq, Repr

/-- A run that has announced its verdict. -/
structure Announced extends Classified where
  verdict : Verdict
  deriving DecidableEq, Repr

/-- What is reported about a complete run. -/
structure Report where
  category : Category
  concurrent : Bool
  command : Command
  code : ResultCode
  verdict : Verdict
  /-- The packed evidence, unless packing failed. -/
  package : Option Evidence.Package
  states : List State
  deriving DecidableEq, Repr

/-- What came of a run that did not fail. -/
inductive Outcome where
  /-- Nothing was launched. -/
  | dryRun
  | completed (report : Report)
  deriving DecidableEq, Repr

/-- Note that a run reaches a state: the states visited so far are extended by it. -/
def enter (visited : List State) (state : State) : Session (List State) := do
  Session.log .debug .run s!"Run state: {state.name}"
  return visited ++ [state]

/-- A new run. -/
def start (configuration : Configuration) : Initial where
  configuration := configuration
  visited := [.init]

/-- Read the property file. -/
def resolveCategory (run : Initial) : Session Categorised := do
  let category ← Property.resolve run.configuration.property
  let visited ← enter run.visited .categoryResolved
  return { run with visited, category }

/-- Scan the benchmark. The hint of the configuration is overridden by the scan. -/
def resolveConcurrency (run : Categorised) : Session Scanned := do
  let concurrent ← Benchmark.scan run.configuration.benchmark
  let hint := run.configuration.concurrencyHint
  if concurrent ≠ hint then
    Session.log .info .run
      s!"Concurrency hint ({hint}) overridden by benchmark scan ({concurrent})"
  let visited ← enter run.visited .concurrencyResolved
  return { run with visited, concurrent }

/-- Build the command. -/
def buildCommand (run : Scanned) : Session Prepared := do
  let configuration := run.configuration
  if run.concurrent && configuration.strategy ≠ .incremental then
    Session.log .info .run
      s!"Concurrent benchmark: using incremental BMC instead of '{configuration.strategy.name}'"
  let policy := configuration.policy run.category run.concurrent
  let command := policy.command configuration.settings.verifier
  let visited ← enter run.visited .commandBuilt
  return { run with visited, command }

/-- The line before the command. -/
def greeting : String := "Verifying with ESBMC"

/-- The line that shows the command. -/
def commandLine (command : Command) : List Char :=
  "Command: ".toList ++ command.display.toList

/-- Announce the command, give it to the runner, and repeat the output. There is no result when
nothing was launched. -/
def execute (runner : Runner) (run : Prepared) : Session (Option Executed) := do
  Session.writeLine greeting.toList
  Session.writeLine (commandLine run.command)
  Session.flush
  match ← Session.launch runner run.command with
  | .dryRun => return none
  | .completed output =>
    Session.writeLine output.text
    let visited ← enter run.visited .executed
    return some { run with visited, output }

/-- Classify the output. -/
def classifyOutput (run : Executed) : Session Classified := do
  let (code, records) := classify run.output.text run.category
  Session.logAll records
  let visited ← enter run.visited .classified
  return { run with visited, code }

/-- Announce the verdict. -/
def announce (run : Classified) : Session Announced := do
  let verdict := run.code.verdict
  Session.writeLine verdict.text.toList
  Session.flush
  let visited ← enter run.visited .printed
  return { run with visited, verdict }

/-- Pack the evidence in a directory; a failure is noted. -/
def packEvidence (directory : Path) : Session (Option Evidence.Package) := do
  match ← Session.attempt (Evidence.package directory) with
  | .ok package => return some package
  | .error failure =>
    Session.log .warn .run
      s!"Evidence packaging in {directory.display} failed: {failure.message}"
    return none

/-- Pack the evidence and make the report. -/
def finish (directory : Path) (run : Announced) : Session Report := do
  let package ← packEvidence directory
  let states ← enter run.visited .packaged
  return { run with package, states }

/-- A run from its configuration to its outcome, with the evidence in a directory. -/
def orchestrate (configuration : Configuration) (runner : Runner) (directory : Path) :
    Session Outcome := do
  let benchmark := configuration.benchmark.display
  let strategy := configuration.strategy.name
  let bits := configuration.architecture.bits
  let ci := configuration.ci
  Session.log .debug .run
    s!"Starting run: benchmark={benchmark} strategy={strategy} arch={bits} ci={ci}"
  let categorised ← resolveCategory (start configuration)
  let scanned ← resolveConcurrency categorised
  let prepared ← buildCommand scanned
  match ← execute runner prepared with
  | none => return .dryRun
  | some executed =>
    let classified ← classifyOutput executed
    let announced ← announce classified
    return .completed (← finish directory announced)

end Proctor.Run
