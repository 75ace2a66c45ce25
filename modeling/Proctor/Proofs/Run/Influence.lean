import Proctor.Proofs.Run.Ending
import Proctor.Proofs.Session.Alike

/-!
# What does not influence a run

The hint about concurrency, the request for a dry run and the note on where a run takes place are
only logged, and so is the way in which the verifier ended. Packing the evidence comes last and
cannot fail, so the directory of the evidence shows in nothing but the package that is reported.
-/

namespace Proctor

/-- A configuration with other advice: whether the benchmark is thought to be concurrent, whether a
dry run is asked for, and where the run takes place. -/
def Configuration.advised (configuration : Configuration) (hint dryRun ci : Bool) :
    Configuration :=
  { configuration with concurrencyHint := hint, dryRun, ci }

/-- Programs that do the same as others but end in their own way. -/
def Programs.ending (programs : Programs) (status : Command → FileSystem → ExitStatus) : Programs :=
  fun command files => { programs command files with status := status command files }

/-- How programs end is only logged. -/
theorem Runner.process_alike_ending (programs : Programs)
    (status : Command → FileSystem → ExitStatus) (dryRun : Bool) :
  Runner.Alike (.process programs dryRun) (.process (programs.ending status) dryRun)
  := by
  intro command files
  simp only [Runner.process]
  cases dryRun with
  | true => exact ⟨rfl, rfl⟩
  | false =>
      cases files.startable command.program with
      | error fault => exact ⟨rfl, rfl⟩
      | ok => exact ⟨rfl, rfl⟩

namespace Run

/-! ### Advice -/

section Advice

variable (configuration : Configuration) (hint dryRun ci : Bool)

/-- Two prepared runs that differ in their advice. -/
def SameButAdvice (run other : Prepared) : Prop :=
  ∃ category concurrent, run = prepared configuration category concurrent
    ∧ other = prepared (configuration.advised hint dryRun ci) category concurrent

/-- Preparing a run does not depend on advice. -/
theorem alike_prepare :
  Session.Alike (SameButAdvice configuration hint dryRun ci) (prepare configuration)
    (prepare (configuration.advised hint dryRun ci))
  := by
  intro world world' h
  have hinputs : inputs (configuration.advised hint dryRun ci) world'.files
      = inputs configuration world.files := by
    rw [h.files]
    rfl
  rw [runIn_prepare, runIn_prepare, preparation, preparation, hinputs]
  refine ⟨?_, h.logged _ _⟩
  cases inputs configuration world.files with
  | error failure => apply Session.SameResult.error
  | ok found =>
      obtain ⟨category, concurrent⟩ := found
      apply Session.SameResult.ok
      exact ⟨category, concurrent, rfl, rfl⟩

/-- Packing depends on the files alone. -/
theorem alike_packEvidence (directory : Path) :
  Session.Alike Eq (packEvidence directory) (packEvidence directory)
  := by
  intro world world' h
  rw [runIn_packEvidence, runIn_packEvidence, h.files]
  refine ⟨.refl _, ?_⟩
  constructor
  · rw [packed, packed, h.files]
    rfl
  · apply h.stream
  · rw [actions_packed, actions_packed, h.actions]

/-- A run depends neither on advice nor on what the runner logs. -/
theorem alike_orchestrate {runner runner' : Runner} (hrunner : Runner.Alike runner runner')
    (directory : Path) :
  Session.Alike Eq (orchestrate configuration runner directory)
    (orchestrate (configuration.advised hint dryRun ci) runner' directory)
  := by
  rw [orchestrate_eq, orchestrate_eq]
  apply (alike_prepare configuration hint dryRun ci).bind
  rintro run _ ⟨category, concurrent, rfl, rfl⟩
  apply (Session.alike_say _ _ _ _).bind_eq
  intro _
  apply (Session.alike_launch hrunner _).bind_eq
  intro execution
  cases execution with
  | dryRun => apply Session.alike_pure rfl
  | completed output =>
      apply (Session.alike_say _ _ _ _).bind_eq
      intro _
      apply (Session.alike_logAll _ _).bind_eq
      intro _
      apply (alike_packEvidence directory).bind_eq
      intro package
      apply (Session.alike_logAll _ _).bind_eq
      intro _
      apply Session.alike_pure rfl

end Advice

/-- Two sessions come to the same in a world: the same result, the same bytes on the stream, the
same commands to the runner, and the same files. -/
def ComesToTheSame {α : Type} (session other : Session α) (world : World) : Prop :=
  ∃ result final final', session.runIn world = (result, final)
    ∧ other.runIn world = (result, final')
    ∧ final'.stream = final.stream ∧ final'.commands = final.commands
    ∧ final'.files = final.files

theorem comesToTheSame_of_alike {α : Type} {session other : Session α}
    (h : Session.Alike Eq session other) (world : World) :
  ComesToTheSame session other world
  := by
  obtain ⟨hresult, hafter⟩ := h world world (World.Alike.refl world)
  refine ⟨(session.runIn world).1, (session.runIn world).2, (other.runIn world).2, rfl, ?_,
    hafter.stream.symm, hafter.commands.symm, hafter.files.symm⟩
  rw [hresult.eq]

/-- Runs whose configurations differ at most in the hint about concurrency, in the request for a dry
run and in the note on where they take place come to the same, and so do runs of verifiers that
print the same and leave the same files but end with another status or by another signal. -/
theorem orchestrate_advised (configuration : Configuration) (directory : Path)
    (files : FileSystem) (stream : Stream) :
  (∀ (runner : Runner) (hint dryRun ci : Bool),
    ComesToTheSame (orchestrate configuration runner directory)
      (orchestrate (configuration.advised hint dryRun ci) runner directory) { files, stream })
  ∧ ∀ (programs : Programs) (status : Command → FileSystem → ExitStatus) (dry : Bool),
    ComesToTheSame (orchestrate configuration (.process programs dry) directory)
      (orchestrate configuration (.process (programs.ending status) dry) directory)
      { files, stream }
  := by
  constructor
  · intro runner hint dryRun ci
    apply comesToTheSame_of_alike
    apply alike_orchestrate _ _ _ _ (Runner.Alike.refl runner)
  · intro programs status dry
    apply comesToTheSame_of_alike
    -- The configuration with its own advice is the configuration itself.
    apply alike_orchestrate configuration configuration.concurrencyHint configuration.dryRun
      configuration.ci (Runner.process_alike_ending programs status dry)

/-! ### Packing -/

/-- A run up to the point where the evidence is packed: the prepared run and its output, unless
nothing was launched. -/
def untilPacking (configuration : Configuration) (runner : Runner) :
    Session (Option (Prepared × Output)) := do
  let run ← prepare configuration
  Session.say greeting.toList [] (commandLine run.command)
  match ← Session.launch runner run.command with
  | .dryRun => return none
  | .completed output =>
    Session.say output.text (verdictRecords run.category output)
      (verdictOn run.category output).text.toList
    Session.logAll [stateRecord .printed]
    return some (run, output)

/-- What is left of a run from the point where the evidence is packed. -/
def fromPacking (directory : Path) : Option (Prepared × Output) → Session Outcome
  | none => return .dryRun
  | some (run, output) => do
    let package ← packEvidence directory
    Session.logAll [stateRecord .packaged]
    return .completed (run.report output package)

theorem orchestrate_eq_untilPacking (configuration : Configuration) (runner : Runner)
    (directory : Path) :
  orchestrate configuration runner directory
    = untilPacking configuration runner >>= fromPacking directory
  := by
  simp only [orchestrate_eq, untilPacking, bind_assoc]
  apply bind_congr
  intro run
  apply bind_congr
  intro _
  apply bind_congr
  intro execution
  cases execution with
  | dryRun => rfl
  | completed output => simp only [bind_assoc, pure_bind, fromPacking]

/-- What is left of a run succeeds, and the directory shows in the package alone. -/
theorem runIn_fromPacking (directory : Path) (world : World) (run : Prepared) (output : Output) :
  (fromPacking directory (some (run, output))).runIn world
    = (.ok (.completed (run.report output (Evidence.packed? directory world.files))),
      (packed directory world).logged [stateRecord .packaged])
  := by
  rw [fromPacking, Session.runIn_bind, runIn_packEvidence]
  rfl

/-- The package that a complete run reports comes of the files that the runner left. -/
theorem package_eq_packed? {configuration : Configuration} {runner : Runner} {directory : Path}
    {world final : World} {report : Report}
    (h : (orchestrate configuration runner directory).runIn world
      = (.ok (.completed report), final)) :
  report.package = Evidence.packed? directory (runner report.command world.files).files
  := by
  obtain ⟨category, concurrent, output, after, reported, -, hsaid, -, hreported, rfl, -⟩ :=
    (ends_of_runIn_eq h).of_completed
  rw [Prepared.report, hreported.files, hsaid.files]
  rfl

/-- A result without the package that it reports. -/
def Outcome.unpacked : Outcome → Outcome
  | dryRun => dryRun
  | completed report => completed { report with package := none }

theorem unpacked_report (run : Prepared) (output : Output) (package : Option Evidence.Package) :
  Outcome.unpacked (.completed (run.report output package)) = .completed (run.report output none)
  := rfl

/-- If a run is complete, then the package that it reports is the one that comes of packing the
evidence in a directory after the runner is done, and there is none exactly if packing fails. -/
def ReportsPacking (runner : Runner) (files : FileSystem) (directory : Path)
    (result : Except Failure Outcome) : Prop :=
  ∀ report, result = .ok (.completed report) →
    ∀ left : World, left.files = (runner report.command files).files →
      (report.package = none
        ↔ ∃ failure, ((Evidence.package directory).runIn left).1 = .error failure)
      ∧ ∀ package, report.package = some package
        ↔ ((Evidence.package directory).runIn left).1 = .ok package

theorem reportsPacking_of_runIn_eq {configuration : Configuration} {runner : Runner}
    {directory : Path} {world final : World} {result : Except Failure Outcome}
    (h : (orchestrate configuration runner directory).runIn world = (result, final)) :
  ReportsPacking runner world.files directory result
  := by
  rintro report rfl left hleft
  have hsilent := Evidence.silent_collect (fun _ => True) (fun _ _ => trivial) directory
  rw [package_eq_packed? h, Evidence.runIn_package_eq, hsilent.runIn, World.files_note, hleft,
    Evidence.packed?]
  cases ((Evidence.collect directory).alone (runner report.command world.files).files).1 with
  | error failure => simp [Except.toOption]
  | ok package => simp [Except.toOption]

/-- Runs with their evidence in different directories write the same bytes, launch the same
commands, and give the same result, up to the package that is reported. In each of them there is no
package exactly if packing fails in the files that the runner left. -/
theorem orchestrate_directory (configuration : Configuration) (runner : Runner)
    (first second : Path) (files : FileSystem) (stream : Stream) :
  ∃ result final result' final',
    (orchestrate configuration runner first).runIn { files, stream } = (result, final)
    ∧ (orchestrate configuration runner second).runIn { files, stream } = (result', final')
    ∧ final'.stream = final.stream
    ∧ final'.commands = final.commands
    ∧ result'.map Outcome.unpacked = result.map Outcome.unpacked
    ∧ ReportsPacking runner files first result
    ∧ ReportsPacking runner files second result'
  := by
  have hfirst := orchestrate_eq_untilPacking configuration runner first
  have hsecond := orchestrate_eq_untilPacking configuration runner second
  cases hrun : (orchestrate configuration runner first).runIn { files, stream } with
  | mk result final =>
  cases hrun' : (orchestrate configuration runner second).runIn { files, stream } with
  | mk result' final' =>
  refine ⟨result, final, result', final', rfl, rfl, ?_⟩
  have hreports := reportsPacking_of_runIn_eq hrun
  have hreports' := reportsPacking_of_runIn_eq hrun'
  rw [hfirst, Session.runIn_bind] at hrun
  rw [hsecond, Session.runIn_bind] at hrun'
  revert hrun hrun'
  -- The two runs are one and the same up to the point where the evidence is packed.
  generalize (untilPacking configuration runner).runIn { files, stream } = middle
  obtain ⟨reached, after⟩ := middle
  intro hrun hrun'
  obtain failure | _ | ⟨run, output⟩ := reached
  · cases hrun
    cases hrun'
    exact ⟨rfl, rfl, rfl, hreports, hreports'⟩
  · cases hrun
    cases hrun'
    exact ⟨rfl, rfl, rfl, hreports, hreports'⟩
  · cases (runIn_fromPacking first after run output).symm.trans hrun
    cases (runIn_fromPacking second after run output).symm.trans hrun'
    refine ⟨?_, ?_, ?_, hreports, hreports'⟩
    · simp only [World.stream_logged, stream_packed]
    · simp only [World.commands_logged, commands_packed]
    · simp only [Except.map, unpacked_report]

end Run

end Proctor
