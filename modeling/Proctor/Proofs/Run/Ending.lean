import Proctor.Proofs.Run.Stages
import Proctor.Proofs.Session.Say

/-!
# How runs end

A run speaks twice: it announces its command before it launches it, and it repeats the output of the
verifier together with the verdict. Between these the runner answers, and at the end the evidence is
packed. This gives six ways in which a run ends, each with everything that was done before.
-/

namespace Proctor

/-! ### Packing -/

namespace Evidence

/-- The package that comes of the files in a directory, if packing does not fail. -/
def packed? (directory : Path) (files : FileSystem) : Option Package :=
  ((collect directory).alone files).1.toOption

theorem runIn_package_eq (directory : Path) (world : World) :
  (package directory).runIn world = (collect directory).runIn (world.note (.packaging directory))
  := by simp only [package, Session.runIn_bind, Session.runIn_change]

end Evidence

namespace Run

/-- The records of a failure to pack. -/
def packingRecords (directory : Path) : Except Failure Evidence.Package → List Record
  | .ok _ => []
  | .error failure =>
    [⟨.warn, .run, s!"Evidence packaging in {directory.display} failed: {failure.message}"⟩]

/-- The world after the evidence was packed. -/
def packed (directory : Path) (world : World) : World :=
  ((world.note (.packaging directory)).followed
      ((Evidence.collect directory).alone world.files).2).logged
    (packingRecords directory ((Evidence.collect directory).alone world.files).1)

/-- Packing the evidence never fails. -/
theorem runIn_packEvidence (directory : Path) (world : World) :
  (packEvidence directory).runIn world
    = (.ok (Evidence.packed? directory world.files), packed directory world)
  := by
  have hsilent := Evidence.silent_collect (fun _ => True) (fun _ _ => trivial) directory
  simp only [packEvidence, Session.runIn_bind, Session.runIn_attempt, Evidence.runIn_package_eq,
    hsilent.runIn, World.files_note, packed, Evidence.packed?]
  cases ((Evidence.collect directory).alone world.files).1 with
  | ok package => simp [packingRecords, Except.toOption]
  | error failure => rfl

/-- Packing is one action. -/
theorem actions_packed (directory : Path) (world : World) :
  (packed directory world).actions = world.actions ++ [.packaging directory]
  := by
  have hsilent := Evidence.silent_collect (fun effect => effect.isAction = false)
    (fun _ _ => rfl) directory
  have hnone := List.filter_eq_nil_iff.mpr fun effect heffect =>
    Bool.not_eq_true _ ▸ hsilent.allowed world.files effect heffect
  rw [packed, World.actions_logged, World.actions, World.followed, List.filter_append, hnone,
    List.append_nil]
  apply World.actions_note

@[simp] theorem stream_packed (directory : Path) (world : World) :
  (packed directory world).stream = world.stream
  := rfl

@[simp] theorem commands_packed (directory : Path) (world : World) :
  (packed directory world).commands = world.commands
  := by simp [World.commands_eq_filterMap_actions, actions_packed, Effect.command?]

/-! ### A run with its lines put together -/

/-- The records between the output of the verifier and the verdict. -/
def verdictRecords (category : Category) (output : Output) : List Record :=
  [stateRecord .executed] ++ (classify output.text category).2 ++ [stateRecord .classified]

/-- The verdict on an output. -/
def verdictOn (category : Category) (output : Output) : Verdict :=
  (classify output.text category).1.verdict

/-- What is reported about a prepared run that has its output. -/
def Prepared.report (run : Prepared) (output : Output) (package : Option Evidence.Package) :
    Report where
  category := run.category
  concurrent := run.concurrent
  command := run.command
  code := (classify output.text run.category).1
  verdict := verdictOn run.category output
  package := package
  states := run.visited ++ [.executed] ++ [.classified] ++ [.printed] ++ [.packaged]

theorem enter_eq (visited : List State) (state : State) :
  enter visited state = (do Session.logAll [stateRecord state]; return visited ++ [state])
  := rfl

/-- A run with its lines put together: it is prepared, it announces its command and launches it, and
if there is an output it repeats it with the verdict and packs the evidence. -/
theorem orchestrate_eq (configuration : Configuration) (runner : Runner) (directory : Path) :
  orchestrate configuration runner directory = do
    let run ← prepare configuration
    Session.say greeting.toList [] (commandLine run.command)
    match ← Session.launch runner run.command with
    | .dryRun => return .dryRun
    | .completed output =>
      Session.say output.text (verdictRecords run.category output)
        (verdictOn run.category output).text.toList
      Session.logAll [stateRecord .printed]
      let package ← packEvidence directory
      Session.logAll [stateRecord .packaged]
      return .completed (run.report output package)
  := by
  simp only [orchestrate, prepare, execute, Session.say, bind_assoc, Session.log_eq_logAll,
    startRecord]
  apply bind_congr
  intro _
  apply bind_congr
  intro categorised
  apply bind_congr
  intro scanned
  apply bind_congr
  intro run
  apply bind_congr
  intro _
  rw [Session.logAll_nil, pure_bind]
  apply bind_congr
  intro _
  apply bind_congr
  intro _
  apply bind_congr
  intro execution
  cases execution with
  | dryRun => rfl
  | completed output =>
      simp only [verdictRecords, classifyOutput, announce, finish, enter_eq, bind_assoc, pure_bind,
        Session.logAll_append]
      rfl

/-! ### Endings -/

section Ending

variable (configuration : Configuration) (runner : Runner) (directory : Path) (world : World)

/-- What comes of announcing the command for some category and some result of the scan. -/
def SaidCommand (category : Category) (concurrent : Bool) : Except Failure Unit → World → Prop :=
  Session.Said greeting.toList [] (commandLine (configuration.command category concurrent))
    (world.logged (preparationRecords configuration world.files))

/-- What comes of repeating an output with the verdict on it. -/
def SaidOutput (category : Category) (output : Output) : Except Failure Unit → World → Prop :=
  Session.Said output.text (verdictRecords category output) (verdictOn category output).text.toList
    world

/-- The world after the last two states of a run, with the evidence packed. -/
def concluded : World :=
  (packed directory (world.logged [stateRecord .printed])).logged [stateRecord .packaged]

@[simp] theorem stream_concluded :
  (concluded directory world).stream = world.stream
  := rfl

@[simp] theorem actions_concluded :
  (concluded directory world).actions = world.actions ++ [.packaging directory]
  := by rw [concluded, World.actions_logged, actions_packed, World.actions_logged]

/-- The ways in which a run in a world can end, with its result and the world that it leaves. -/
inductive Ends : Except Failure Outcome → World → Prop
  /-- The property file or the benchmark cannot be used. -/
  | unprepared {failure : Failure}
      (hinputs : inputs configuration world.files = .error failure) :
      Ends (.error failure) (world.logged (preparationRecords configuration world.files))
  /-- The command cannot be announced. -/
  | unannounced {category : Category} {concurrent : Bool} {failure : Failure} {after : World}
      (hinputs : inputs configuration world.files = .ok (category, concurrent))
      (hsaid : SaidCommand configuration world category concurrent (.error failure) after) :
      Ends (.error failure) after
  /-- The runner fails. -/
  | refused {category : Category} {concurrent : Bool} {failure : Failure} {after : World}
      (hinputs : inputs configuration world.files = .ok (category, concurrent))
      (hsaid : SaidCommand configuration world category concurrent (.ok ()) after)
      (hresult : (runner (configuration.command category concurrent) world.files).result
        = .error failure) :
      Ends (.error failure) (after.launched runner (configuration.command category concurrent))
  /-- The runner launches nothing. -/
  | dryRun {category : Category} {concurrent : Bool} {after : World}
      (hinputs : inputs configuration world.files = .ok (category, concurrent))
      (hsaid : SaidCommand configuration world category concurrent (.ok ()) after)
      (hresult : (runner (configuration.command category concurrent) world.files).result
        = .ok .dryRun) :
      Ends (.ok .dryRun) (after.launched runner (configuration.command category concurrent))
  /-- The output and the verdict cannot be written. -/
  | unreported {category : Category} {concurrent : Bool} {output : Output} {failure : Failure}
      {after final : World}
      (hinputs : inputs configuration world.files = .ok (category, concurrent))
      (hsaid : SaidCommand configuration world category concurrent (.ok ()) after)
      (hresult : (runner (configuration.command category concurrent) world.files).result
        = .ok (.completed output))
      (hreported : SaidOutput
        (after.launched runner (configuration.command category concurrent)) category output
        (.error failure) final) :
      Ends (.error failure) final
  | completed {category : Category} {concurrent : Bool} {output : Output} {after final : World}
      (hinputs : inputs configuration world.files = .ok (category, concurrent))
      (hsaid : SaidCommand configuration world category concurrent (.ok ()) after)
      (hresult : (runner (configuration.command category concurrent) world.files).result
        = .ok (.completed output))
      (hreported : SaidOutput
        (after.launched runner (configuration.command category concurrent)) category output
        (.ok ()) final) :
      Ends
        (.ok (.completed ((prepared configuration category concurrent).report output
          (Evidence.packed? directory final.files))))
        (concluded directory final)

/-- Every run ends in one of these ways. -/
theorem gives_orchestrate :
  Session.Gives world (orchestrate configuration runner directory)
    (Ends configuration runner directory world)
  := by
  rw [orchestrate_eq]
  have hprepare := runIn_prepare world configuration
  cases hinputs : inputs configuration world.files with
  | error failure =>
      rw [preparation, hinputs] at hprepare
      apply Session.gives_bind_of_error hprepare
      apply Ends.unprepared hinputs
  | ok found =>
      obtain ⟨category, concurrent⟩ := found
      rw [preparation, hinputs] at hprepare
      apply Session.gives_bind_of_ok hprepare
      apply (Session.gives_say ..).bind
      · intro failure after hsaid
        apply Ends.unannounced hinputs hsaid
      intro _ after hsaid
      have hfiles : after.files = world.files := hsaid.files
      have hlaunch := Session.runIn_launch after runner (configuration.command category concurrent)
      rw [hfiles] at hlaunch
      cases hresult : (runner (configuration.command category concurrent) world.files).result with
      | error failure =>
          rw [hresult] at hlaunch
          apply Session.gives_bind_of_error hlaunch
          apply Ends.refused hinputs hsaid hresult
      | ok execution =>
          rw [hresult] at hlaunch
          apply Session.gives_bind_of_ok hlaunch
          cases execution with
          | dryRun => apply Ends.dryRun hinputs hsaid hresult
          | completed output =>
              apply (Session.gives_say ..).bind
              · intro failure final hreported
                apply Ends.unreported hinputs hsaid hresult hreported
              intro _ final hreported
              apply Session.gives_bind_of_ok (Session.runIn_logAll ..)
              apply Session.gives_bind_of_ok (runIn_packEvidence ..)
              apply Session.gives_bind_of_ok (Session.runIn_logAll ..)
              apply Ends.completed hinputs hsaid hresult hreported

variable {configuration runner directory world}

theorem ends_of_runIn_eq {result : Except Failure Outcome} {final : World}
    (h : (orchestrate configuration runner directory).runIn world = (result, final)) :
  Ends configuration runner directory world result final
  := by
  have hends := gives_orchestrate configuration runner directory world
  rw [Session.Gives, h] at hends
  apply hends

/-- How a complete run came about. -/
theorem Ends.of_completed {report : Report} {final : World}
    (h : Ends configuration runner directory world (.ok (.completed report)) final) :
  ∃ category concurrent output after reported,
    inputs configuration world.files = .ok (category, concurrent)
    ∧ SaidCommand configuration world category concurrent (.ok ()) after
    ∧ (runner (configuration.command category concurrent) world.files).result
      = .ok (.completed output)
    ∧ SaidOutput (after.launched runner (configuration.command category concurrent)) category output
      (.ok ()) reported
    ∧ report = (prepared configuration category concurrent).report output
      (Evidence.packed? directory reported.files)
    ∧ final = concluded directory reported
  := by
  cases h with
  | completed hinputs hsaid hresult hreported =>
      exact ⟨_, _, _, _, _, hinputs, hsaid, hresult, hreported, rfl, rfl⟩

end Ending

/-! ### Stream and actions -/

/-- The bytes that announce a command. -/
def echo (command : Command) : Bytes :=
  Session.line greeting.toList ++ Session.line (commandLine command)

/-- The bytes that repeat an output with the verdict on it. -/
def answer (category : Category) (output : Output) : Bytes :=
  Session.line output.text ++ Session.line (verdictOn category output).text.toList

/-- The actions that announce a command. -/
def announcement (command : Command) : List Effect :=
  [.wrote (Session.line greeting.toList), .wrote (Session.line (commandLine command)), .flushed]

/-- The actions that repeat an output with the verdict on it. -/
def reply (category : Category) (output : Output) : List Effect :=
  [.wrote (Session.line output.text),
    .wrote (Session.line (verdictOn category output).text.toList), .flushed]

section Spoken

variable {configuration : Configuration} {runner : Runner} {world after final : World}
  {category : Category} {concurrent : Bool} {command : Command} {output : Output}
  {result : Except Failure Unit}

theorem SaidCommand.files (h : SaidCommand configuration world category concurrent result after) :
  after.files = world.files
  := by apply Session.Said.files h

theorem SaidCommand.eq_ok_iff
    (h : SaidCommand configuration world category concurrent result after) :
  result = .ok () ↔ world.stream.Takes (echo (configuration.command category concurrent))
    ∧ ¬ world.stream.FlushFails
  := by apply Session.Said.eq_ok_iff h

theorem SaidCommand.stream
    (h : SaidCommand configuration world category concurrent (.ok ()) after) :
  after.stream = { world.stream with
    written := world.stream.written ++ echo (configuration.command category concurrent)
    flushes := world.stream.flushes + 1 }
  := by apply Session.Said.stream h

theorem SaidCommand.actions
    (h : SaidCommand configuration world category concurrent (.ok ()) after) :
  after.actions = world.actions ++ announcement (configuration.command category concurrent)
  := by
  rw [Session.Said.actions h, World.actions_logged]
  rfl

theorem SaidCommand.follows
    (h : SaidCommand configuration world category concurrent result after) :
  ∃ actions, after.actions = world.actions ++ actions
    ∧ Effect.Follows actions (announcement (configuration.command category concurrent))
  := by
  obtain ⟨actions, hactions, hfollows⟩ := Session.Said.follows h
  rw [World.actions_logged] at hactions
  use actions, hactions
  apply hfollows

theorem SaidOutput.files
    (h : SaidOutput (after.launched runner command) category output result final) :
  final.files = (runner command after.files).files
  := by apply Session.Said.files h

theorem SaidOutput.eq_ok_iff
    (h : SaidOutput (after.launched runner command) category output result final) :
  result = .ok () ↔ after.stream.Takes (answer category output) ∧ ¬ after.stream.FlushFails
  := by apply Session.Said.eq_ok_iff h

theorem SaidOutput.stream
    (h : SaidOutput (after.launched runner command) category output (.ok ()) final) :
  final.stream = { after.stream with
    written := after.stream.written ++ answer category output
    flushes := after.stream.flushes + 1 }
  := by apply Session.Said.stream h

theorem SaidOutput.actions
    (h : SaidOutput (after.launched runner command) category output (.ok ()) final) :
  final.actions = after.actions ++ [.launched command] ++ reply category output
  := by
  rw [Session.Said.actions h, World.actions_launched]
  rfl

theorem SaidOutput.follows
    (h : SaidOutput (after.launched runner command) category output result final) :
  ∃ actions, final.actions = after.actions ++ [.launched command] ++ actions
    ∧ Effect.Follows actions (reply category output)
  := by
  obtain ⟨actions, hactions, hfollows⟩ := Session.Said.follows h
  rw [World.actions_launched] at hactions
  use actions, hactions
  apply hfollows

end Spoken

end Run

end Proctor
