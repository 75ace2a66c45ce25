import Proctor.Proofs.Session.Silent
import Proctor.Run

/-!
# The stages of a run

A run falls into three parts. It is prepared from the configuration and two files; it is executed,
which involves the output stream and the runner; and it is concluded by a verdict and by packing the
evidence. For the stages that only read files and leave log records it is said here what they come
to.
-/

namespace Proctor

/-- The command that a configuration asks for, given what is to be shown and whether the benchmark
is concurrent. -/
def Configuration.command (configuration : Configuration) (category : Category)
    (concurrent : Bool) : Command :=
  (configuration.policy category concurrent).command configuration.settings.verifier

namespace Run

/-! ### Log records -/

/-- The record of a new run. -/
def startRecord (configuration : Configuration) : Record :=
  let benchmark := configuration.benchmark.display
  let strategy := configuration.strategy.name
  let bits := configuration.architecture.bits
  let ci := configuration.ci
  ⟨.debug, .run, s!"Starting run: benchmark={benchmark} strategy={strategy} arch={bits} ci={ci}"⟩

/-- The record of a state that is reached. -/
def stateRecord (state : State) : Record :=
  ⟨.debug, .run, s!"Run state: {state.name}"⟩

/-- The record of what a property file asks for. -/
def propertyRecord (configuration : Configuration) (category : Category) : Record :=
  ⟨.debug, .property,
    s!"Property {configuration.property.display} resolved to {category.name}"⟩

/-- The records of a scan for threads. -/
def threadRecords (path : Path) (concurrent : Bool) : List Record :=
  if concurrent then [⟨.debug, .benchmark, s!"Thread creation found in {path.display}"⟩] else []

/-- The records of a hint that the scan overrides. -/
def hintRecords (configuration : Configuration) (concurrent : Bool) : List Record :=
  let hint := configuration.concurrencyHint
  if concurrent ≠ hint then
    [⟨.info, .run, s!"Concurrency hint ({hint}) overridden by benchmark scan ({concurrent})"⟩]
  else []

/-- The records of the choice of an engine. -/
def engineRecords (configuration : Configuration) (concurrent : Bool) : List Record :=
  let strategy := configuration.strategy.name
  if concurrent && configuration.strategy ≠ .incremental then
    [⟨.info, .run, s!"Concurrent benchmark: using incremental BMC instead of '{strategy}'"⟩]
  else []

/-! ### Preparation -/

variable (world : World)

@[simp] theorem runIn_enter (visited : List State) (state : State) :
  (enter visited state).runIn world = (.ok (visited ++ [state]), world.logged [stateRecord state])
  := rfl

theorem runIn_resolveCategory (run : Initial) :
  (resolveCategory run).runIn world
    = match Property.ofFile world.files run.configuration.property with
      | .ok category =>
        (.ok { run with visited := run.visited ++ [.categoryResolved], category },
          world.logged [propertyRecord run.configuration category, stateRecord .categoryResolved])
      | .error failure => (.error failure, world)
  := by
  simp only [resolveCategory, Property.resolve, Session.runIn_bind, Session.runIn_files,
    Session.runIn_liftM]
  cases Property.ofFile world.files run.configuration.property with
  | error failure => rfl
  | ok category =>
      simp only [Session.runIn_log, Session.runIn_pure, runIn_enter, World.logged_logged]
      rfl

theorem runIn_scan (path : Path) :
  (Benchmark.scan path).runIn world
    = match Benchmark.ofFile world.files path with
      | .ok concurrent => (.ok concurrent, world.logged (threadRecords path concurrent))
      | .error failure => (.error failure, world)
  := by
  simp only [Benchmark.scan, Session.runIn_bind, Session.runIn_files, Session.runIn_liftM]
  cases Benchmark.ofFile world.files path with
  | error failure => rfl
  | ok concurrent =>
      cases concurrent with
      | false => simp [threadRecords]
      | true => rfl

theorem runIn_resolveConcurrency (run : Categorised) :
  (resolveConcurrency run).runIn world
    = match Benchmark.ofFile world.files run.configuration.benchmark with
      | .ok concurrent =>
        (.ok { run with visited := run.visited ++ [.concurrencyResolved], concurrent },
          world.logged (threadRecords run.configuration.benchmark concurrent
            ++ hintRecords run.configuration concurrent ++ [stateRecord .concurrencyResolved]))
      | .error failure => (.error failure, world)
  := by
  rw [resolveConcurrency, Session.runIn_bind, runIn_scan]
  cases Benchmark.ofFile world.files run.configuration.benchmark with
  | error failure => rfl
  | ok concurrent =>
      dsimp only
      rw [hintRecords]
      split
      · simp only [Session.runIn_bind, Session.runIn_log, Session.runIn_pure, runIn_enter,
          World.logged_logged]
      · simp only [Session.runIn_bind, Session.runIn_pure, runIn_enter, World.logged_logged,
          List.append_nil]

theorem runIn_buildCommand (run : Scanned) :
  (buildCommand run).runIn world
    = (.ok { run with
          visited := run.visited ++ [.commandBuilt]
          command := run.configuration.command run.category run.concurrent },
        world.logged (engineRecords run.configuration run.concurrent
          ++ [stateRecord .commandBuilt]))
  := by
  rw [buildCommand, engineRecords]
  dsimp only
  split
  · simp only [Session.runIn_bind, Session.runIn_log, Session.runIn_pure, runIn_enter,
      World.logged_logged]
    rfl
  · simp only [Session.runIn_bind, Session.runIn_pure, runIn_enter, List.nil_append]
    rfl

/-- What a run finds out from the files before it builds its command. -/
def inputs (configuration : Configuration) (files : FileSystem) :
    Except Failure (Category × Bool) := do
  let category ← Property.ofFile files configuration.property
  let concurrent ← Benchmark.ofFile files configuration.benchmark
  return (category, concurrent)

/-- The property file of a configuration is text that asks for a category, and its benchmark can be
read and is concurrent or not. -/
def Finds (configuration : Configuration) (files : FileSystem) (category : Category)
    (concurrent : Bool) : Prop :=
  (∃ bytes text, files.read configuration.property = .ok bytes ∧ Utf8.decode? bytes = some text
    ∧ Property.category? text = some category)
  ∧ ∃ source, files.read configuration.benchmark = .ok source
    ∧ Benchmark.usesThreads source = concurrent

theorem property_ofFile_eq_ok_iff (files : FileSystem) (path : Path) (category : Category) :
  Property.ofFile files path = .ok category
    ↔ ∃ bytes text, files.read path = .ok bytes ∧ Utf8.decode? bytes = some text
      ∧ Property.category? text = some category
  := by
  rw [Property.ofFile, FileSystem.readText]
  cases files.read path with
  | error fault => simp
  | ok bytes =>
      cases hdecode : Utf8.decode? bytes with
      | none => simp [hdecode]
      | some text =>
          simp only [Except.ok.injEq, exists_and_left, exists_eq_left', hdecode,
            Option.some.injEq, Property.category]
          cases Property.category? text with
          | none => simp
          | some found => simp

theorem benchmark_ofFile_eq_ok_iff (files : FileSystem) (path : Path) (concurrent : Bool) :
  Benchmark.ofFile files path = .ok concurrent
    ↔ ∃ source, files.read path = .ok source ∧ Benchmark.usesThreads source = concurrent
  := by
  rw [Benchmark.ofFile]
  cases files.read path with
  | error fault => simp
  | ok source => simp

/-- A run finds out what its two files say. -/
theorem inputs_eq_ok_iff (configuration : Configuration) (files : FileSystem)
    (category : Category) (concurrent : Bool) :
  inputs configuration files = .ok (category, concurrent)
    ↔ Finds configuration files category concurrent
  := by
  rw [Finds, ← property_ofFile_eq_ok_iff, ← benchmark_ofFile_eq_ok_iff, inputs]
  cases Property.ofFile files configuration.property with
  | error failure => simp [bind, Except.bind]
  | ok found =>
      cases Benchmark.ofFile files configuration.benchmark with
      | error failure => simp [bind, Except.bind]
      | ok threads => simp [bind, Except.bind, pure, Except.pure]

/-- A run that has its command, from what it found out. -/
def prepared (configuration : Configuration) (category : Category) (concurrent : Bool) :
    Prepared where
  configuration := configuration
  visited := [.init, .categoryResolved, .concurrencyResolved, .commandBuilt]
  category := category
  concurrent := concurrent
  command := configuration.command category concurrent

/-- What preparing a run comes to. -/
def preparation (configuration : Configuration) (files : FileSystem) : Except Failure Prepared :=
  (inputs configuration files).map fun (category, concurrent) =>
    prepared configuration category concurrent

/-- The records up to the command, or up to the file that could not be used. -/
def preparationRecords (configuration : Configuration) (files : FileSystem) : List Record :=
  startRecord configuration :: match Property.ofFile files configuration.property with
    | .error _ => []
    | .ok category =>
      propertyRecord configuration category :: stateRecord .categoryResolved ::
        match Benchmark.ofFile files configuration.benchmark with
        | .error _ => []
        | .ok concurrent =>
          threadRecords configuration.benchmark concurrent ++ hintRecords configuration concurrent
            ++ stateRecord .concurrencyResolved :: engineRecords configuration concurrent
            ++ [stateRecord .commandBuilt]

/-- The part of a run that leads to its command. -/
def prepare (configuration : Configuration) : Session Prepared := do
  Session.logAll [startRecord configuration]
  let categorised ← resolveCategory (start configuration)
  let scanned ← resolveConcurrency categorised
  buildCommand scanned

/-- Preparing a run depends on two files and only leaves log records. -/
theorem runIn_prepare (configuration : Configuration) :
  (prepare configuration).runIn world
    = (preparation configuration world.files,
      world.logged (preparationRecords configuration world.files))
  := by
  simp only [prepare, preparation, preparationRecords, inputs, Session.runIn_bind,
    Session.runIn_logAll, runIn_resolveCategory, World.files_logged, start]
  cases Property.ofFile world.files configuration.property with
  | error failure => rfl
  | ok category =>
      simp only [runIn_resolveConcurrency, World.files_logged]
      cases Benchmark.ofFile world.files configuration.benchmark with
      | error failure =>
          simp only [World.logged_logged]
          rfl
      | ok concurrent =>
          simp only [runIn_buildCommand, World.logged_logged]
          simp [prepared, Except.map, bind, Except.bind, pure, Except.pure]

end Run

end Proctor
