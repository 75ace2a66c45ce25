import Proctor.Proofs.Run.Ending

/-!
# States in the log

A run tells in its log which states it reaches. Here it is said which records these are, and for
each stage of a run that it tells its state exactly if it succeeds, and no other state. A runner may
log what it likes, so its records are kept apart.
-/

namespace Proctor

/-- Whether a record tells a state of a run. -/
def Record.tellsState (record : Record) : Bool :=
  record.source = .run && "Run state: ".toList.isPrefixOf record.text.toList

theorem Record.tellsState_of_source {record : Record} (h : record.source ≠ .run) :
  record.tellsState = false
  := by simp [tellsState, h]

namespace World

/-- The records that tell the states of a run, in order. -/
def stateRecords (world : World) : List Record :=
  world.records.filter Record.tellsState

section Views

variable (world : World)

theorem stateRecords_note {effect : Effect} (h : effect.isAction) :
  (world.note effect).stateRecords = world.stateRecords
  := by
  rw [stateRecords, records, note, List.filterMap_append]
  cases effect with
  | logged record => cases h
  | wrote bytes => simp [stateRecords, records]
  | flushed => simp [stateRecords, records]
  | launched command => simp [stateRecords, records]
  | packaging directory => simp [stateRecords, records]

@[simp] theorem stateRecords_logged (records : List Record) :
  (world.logged records).stateRecords
    = world.stateRecords ++ records.filter Record.tellsState
  := by
  have hlogged : (world.logged records).records = world.records ++ records := by
    rw [World.records, logged, List.filterMap_append, List.filterMap_map]
    apply congrArg (world.records ++ ·) List.filterMap_some
  rw [stateRecords, hlogged, List.filter_append, stateRecords]

@[simp] theorem stateRecords_wrote (bytes : Bytes) :
  (world.wrote bytes).stateRecords = world.stateRecords
  := stateRecords_note _ rfl

@[simp] theorem stateRecords_flushed :
  world.flushed.stateRecords = world.stateRecords
  := stateRecords_note _ rfl

@[simp] theorem stateRecords_launched (runner : Runner) (command : Command) :
  (world.launched runner command).stateRecords
    = world.stateRecords ++ (runner command world.files).records.filter Record.tellsState
  := by
  rw [launched, stateRecords_logged, stateRecords_note _ rfl]
  rfl

theorem stateRecords_followed {after : World}
    (h : ∀ record, .logged record ∈ after.trace → record.tellsState = false) :
  (world.followed after).stateRecords = world.stateRecords
  := by
  have hnone : after.stateRecords = [] := by
    rw [stateRecords, List.filter_eq_nil_iff]
    intro record hmem
    rw [Bool.not_eq_true]
    apply h
    obtain ⟨effect, heffect, hrecord⟩ := List.mem_filterMap.mp hmem
    cases effect with
    | logged other =>
        cases hrecord
        apply heffect
    | wrote bytes => cases hrecord
    | flushed => cases hrecord
    | launched command => cases hrecord
    | packaging directory => cases hrecord
  rw [stateRecords, records, followed, List.filterMap_append, List.filter_append]
  apply Eq.trans (congrArg _ hnone)
  rw [List.append_nil]
  rfl

end Views

end World

namespace Run

/-! ### Which records tell a state -/

@[simp] theorem tellsState_stateRecord (state : State) :
  (stateRecord state).tellsState = true
  := by cases state <;> decide

@[simp] theorem tellsState_startRecord (configuration : Configuration) :
  (startRecord configuration).tellsState = false
  := by simp [startRecord, Record.tellsState, toString, List.isPrefixOf]

@[simp] theorem tellsState_propertyRecord (configuration : Configuration) (category : Category) :
  (propertyRecord configuration category).tellsState = false
  := Record.tellsState_of_source (by simp [propertyRecord])

@[simp] theorem filter_threadRecords (path : Path) (concurrent : Bool) :
  (threadRecords path concurrent).filter Record.tellsState = []
  := by
  cases concurrent with
  | false => rfl
  | true => simp [threadRecords, Record.tellsState]

@[simp] theorem filter_hintRecords (configuration : Configuration) (concurrent : Bool) :
  (hintRecords configuration concurrent).filter Record.tellsState = []
  := by
  rw [hintRecords]
  split
  · simp [Record.tellsState, toString]
  · rfl

@[simp] theorem filter_engineRecords (configuration : Configuration) (concurrent : Bool) :
  (engineRecords configuration concurrent).filter Record.tellsState = []
  := by
  rw [engineRecords]
  split
  · simp [Record.tellsState, toString]
  · rfl

@[simp] theorem filter_classify (text : List Char) (category : Category) :
  (classify text category).2.filter Record.tellsState = []
  := by
  rw [classify]
  split
  · rfl
  · dsimp only
    split <;> simp [Record.tellsState]

@[simp] theorem filter_packingRecords (directory : Path)
    (result : Except Failure Evidence.Package) :
  (packingRecords directory result).filter Record.tellsState = []
  := by
  cases result with
  | ok package => rfl
  | error failure => simp [packingRecords, Record.tellsState, toString]

@[simp] theorem stateRecords_packed (directory : Path) (world : World) :
  (packed directory world).stateRecords = world.stateRecords
  := by
  have hsilent := Evidence.silent_collect
    (fun effect => ∀ record, effect = .logged record → record.tellsState = false)
  have hrecord (record : Record) (hsource : record.source = .evidence) (other : Record)
      (h : Effect.logged record = .logged other) : other.tellsState = false := by
    cases h
    apply Record.tellsState_of_source
    rw [hsource]
    decide
  rw [packed, World.stateRecords_logged, filter_packingRecords, List.append_nil,
    World.stateRecords_followed, World.stateRecords_note _ rfl]
  intro record hmem
  apply (hsilent hrecord directory).allowed world.files _ hmem _ rfl

/-! ### What the stages of a run leave in the log -/

section Stages

variable {α : Type}

/-- The record that tells a state if there is a result. -/
def told (state : State) : Except Failure α → List Record
  | .ok _ => [stateRecord state]
  | .error _ => []

/-- A session tells a state if it succeeds and no state if it fails, and it launches nothing. -/
def Tells (state : State) (session : Session α) : Prop :=
  ∀ world : World, Session.Gives world session fun result after =>
    after.commands = world.commands
    ∧ after.stateRecords = world.stateRecords ++ told state result

theorem tells_resolveCategory (run : Initial) :
  Tells .categoryResolved (resolveCategory run)
  := by
  intro world
  rw [Session.Gives, runIn_resolveCategory]
  cases Property.ofFile world.files run.configuration.property with
  | error failure => simp [told]
  | ok category => simp [told]

theorem tells_resolveConcurrency (run : Categorised) :
  Tells .concurrencyResolved (resolveConcurrency run)
  := by
  intro world
  rw [Session.Gives, runIn_resolveConcurrency]
  cases Benchmark.ofFile world.files run.configuration.benchmark with
  | error failure => simp [told]
  | ok concurrent => simp [told]

theorem tells_buildCommand (run : Scanned) :
  Tells .commandBuilt (buildCommand run)
  := by
  intro world
  rw [Session.Gives, runIn_buildCommand]
  simp [told]

theorem runIn_classifyOutput (world : World) (run : Executed) :
  (classifyOutput run).runIn world
    = (.ok { run with
          visited := run.visited ++ [.classified]
          code := (classify run.output.text run.category).1 },
        world.logged ((classify run.output.text run.category).2 ++ [stateRecord .classified]))
  := by
  simp only [classifyOutput, Session.runIn_bind, Session.runIn_logAll, runIn_enter,
    Session.runIn_pure, World.logged_logged]

theorem tells_classifyOutput (run : Executed) :
  Tells .classified (classifyOutput run)
  := by
  intro world
  rw [Session.Gives, runIn_classifyOutput]
  simp [told]

theorem runIn_finish (world : World) (directory : Path) (run : Announced) :
  (finish directory run).runIn world
    = (.ok { run with
          package := Evidence.packed? directory world.files
          states := run.visited ++ [.packaged] },
        (packed directory world).logged [stateRecord .packaged])
  := by
  simp only [finish, Session.runIn_bind, runIn_packEvidence, runIn_enter, Session.runIn_pure]

theorem tells_finish (directory : Path) (run : Announced) :
  Tells .packaged (finish directory run)
  := by
  intro world
  rw [Session.Gives, runIn_finish]
  simp [told]

/-- What comes of announcing the verdict in a world. -/
inductive Announces (run : Classified) (world : World) : Except Failure Announced → World → Prop
  | cut (htakes : ¬ world.stream.Takes (Session.line run.code.verdict.text.toList)) :
      Announces run world (.error (.io .outputFull))
        (world.wrote (Session.line run.code.verdict.text.toList))
  | unflushed : Announces run world (.error (.io .flushFailed))
      (world.wrote (Session.line run.code.verdict.text.toList)).flushed
  | announced : Announces run world
      (.ok { run with visited := run.visited ++ [.printed], verdict := run.code.verdict })
      ((world.wrote (Session.line run.code.verdict.text.toList)).flushed.logged
        [stateRecord .printed])

theorem gives_announce (run : Classified) (world : World) :
  Session.Gives world (announce run) (Announces run world)
  := by
  rw [announce, Session.writeLine_eq_write]
  by_cases htakes : world.stream.Takes (Session.line run.code.verdict.text.toList)
  · apply Session.gives_bind_of_ok (Session.runIn_write_of_takes world htakes)
    by_cases hflush :
        (world.wrote (Session.line run.code.verdict.text.toList)).stream.FlushFails
    · apply Session.gives_bind_of_error (Session.runIn_flush_of_fails _ hflush)
      apply Announces.unflushed
    · apply Session.gives_bind_of_ok (Session.runIn_flush_of_not_fails _ hflush)
      apply Announces.announced
  · apply Session.gives_bind_of_error (Session.runIn_write_of_not_takes world htakes)
    apply Announces.cut htakes

theorem tells_announce (run : Classified) :
  Tells .printed (announce run)
  := by
  intro world
  apply (gives_announce run world).imp
  intro result after hannounces
  cases hannounces with
  | cut htakes => simp [told]
  | unflushed => simp [told]
  | announced => simp [told]

/-- What comes of executing a run in a world. -/
inductive Executes (runner : Runner) (run : Prepared) (world : World) :
    Except Failure (Option Executed) → World → Prop
  /-- The command cannot be announced. -/
  | unannounced {failure : Failure} {after : World}
      (hsaid : Session.Said greeting.toList [] (commandLine run.command) world (.error failure)
        after) :
      Executes runner run world (.error failure) after
  /-- The runner fails. -/
  | refused {failure : Failure} {after : World}
      (hsaid : Session.Said greeting.toList [] (commandLine run.command) world (.ok ()) after)
      (hresult : (runner run.command world.files).result = .error failure) :
      Executes runner run world (.error failure) (after.launched runner run.command)
  /-- The runner launches nothing. -/
  | dryRun {after : World}
      (hsaid : Session.Said greeting.toList [] (commandLine run.command) world (.ok ()) after)
      (hresult : (runner run.command world.files).result = .ok .dryRun) :
      Executes runner run world (.ok none) (after.launched runner run.command)
  /-- The output cannot be repeated. -/
  | cut {output : Output} {after : World}
      (hsaid : Session.Said greeting.toList [] (commandLine run.command) world (.ok ()) after)
      (hresult : (runner run.command world.files).result = .ok (.completed output)) :
      Executes runner run world (.error (.io .outputFull))
        ((after.launched runner run.command).wrote (Session.line output.text))
  | executed {output : Output} {after : World}
      (hsaid : Session.Said greeting.toList [] (commandLine run.command) world (.ok ()) after)
      (hresult : (runner run.command world.files).result = .ok (.completed output)) :
      Executes runner run world
        (.ok (some { run with visited := run.visited ++ [.executed], output }))
        (((after.launched runner run.command).wrote (Session.line output.text)).logged
          [stateRecord .executed])

theorem execute_eq_say (runner : Runner) (run : Prepared) :
  execute runner run = do
    Session.say greeting.toList [] (commandLine run.command)
    match ← Session.launch runner run.command with
    | .dryRun => return none
    | .completed output =>
      Session.writeLine output.text
      let visited ← enter run.visited .executed
      return some { run with visited, output }
  := by
  conv =>
    rhs
    simp only [Session.say, Session.logAll_nil, bind_assoc, pure_bind]
  rfl

theorem gives_execute (runner : Runner) (run : Prepared) (world : World) :
  Session.Gives world (execute runner run) (Executes runner run world)
  := by
  rw [execute_eq_say]
  apply (Session.gives_say ..).bind
  · intro failure after hsaid
    apply Executes.unannounced hsaid
  intro _ after hsaid
  have hlaunch := Session.runIn_launch after runner run.command
  rw [hsaid.files] at hlaunch
  cases hresult : (runner run.command world.files).result with
  | error failure =>
      rw [hresult] at hlaunch
      apply Session.gives_bind_of_error hlaunch
      apply Executes.refused hsaid hresult
  | ok execution =>
      rw [hresult] at hlaunch
      apply Session.gives_bind_of_ok hlaunch
      cases execution with
      | dryRun => apply Executes.dryRun hsaid hresult
      | completed output =>
          dsimp only
          rw [Session.writeLine_eq_write]
          by_cases htakes :
              (after.launched runner run.command).stream.Takes (Session.line output.text)
          · apply Session.gives_bind_of_ok (Session.runIn_write_of_takes _ htakes)
            apply Executes.executed hsaid hresult
          · apply Session.gives_bind_of_error (Session.runIn_write_of_not_takes _ htakes)
            apply Executes.cut hsaid hresult

theorem Said.stateRecords {first second : List Char} {world after : World}
    {result : Except Failure Unit} (h : Session.Said first [] second world result after) :
  after.stateRecords = world.stateRecords
  := by
  cases h with
  | firstCut => simp
  | secondCut => simp
  | unflushed => simp
  | said => simp

theorem Said.commands {first second : List Char} {world after : World}
    {result : Except Failure Unit} (h : Session.Said first [] second world result after) :
  after.commands = world.commands
  := by
  cases h with
  | firstCut => simp
  | secondCut => simp
  | unflushed => simp
  | said => simp

end Stages

end Run

end Proctor
