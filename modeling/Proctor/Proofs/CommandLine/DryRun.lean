import Proctor.CommandLine.Program
import Proctor.Proofs.Run.Completion

/-!
# Dry runs

What a call of the program comes to is planned from its options and the files before anything is
launched or written. In a dry run the plan is carried out without any program being started, so that
the programs of the system have no influence, the files stay as they are, and the output is empty or
announces the command that the same call executes if it is not dry.
-/

namespace Proctor.CommandLine

/-- Options without a flag. -/
def Options.without (options : Options) (flag : Flag) : Options :=
  { options with flags := options.flags.filter (· ≠ flag) }

/-- The settings that options ask for, as they are found in the files. -/
def settingsIn (options : Options) (files : FileSystem) : Except Failure Settings :=
  match options.settings with
  | some path => Configuration.settingsOfFile files path
  | none => .ok {}

/-- What a call comes to before anything is launched or written. -/
inductive Plan where
  | refusal (failure : Failure)
  | version (verifier : Path)
  | run (configuration : Configuration)

/-- The plan for options, with the settings that are found in the files. -/
def plan (options : Options) (files : FileSystem) : Plan :=
  match settingsIn options files with
  | .error failure => .refusal failure
  | .ok settings =>
    if options.has .version then .version settings.verifier
    else
      match options.propertyFile, options.benchmark with
      | none, _ => .refusal (.missingArgument .property)
      | some _, none => .refusal (.missingArgument .benchmark)
      | some property, some benchmark => .run (configuration options settings property benchmark)

/-- Carry out a plan. -/
def Plan.perform (runner : Runner) : Plan → Session Unit
  | refusal failure => throw failure
  | version verifier => do
    match ← Version.query runner verifier with
    | some text => Session.writeLine text
    | none => return
  | run configuration => do
    let directory := (← Session.files).workingPath
    discard <| Run.orchestrate configuration runner directory

section Perform

variable (programs : Programs) (options : Options) (world : World)

theorem runIn_loadSettings :
  (loadSettings options).runIn world = (settingsIn options world.files, world)
  := by
  rw [loadSettings, settingsIn]
  cases options.settings with
  | none => rfl
  | some path => rfl

/-- A call carries out its plan. -/
theorem runIn_perform :
  (perform programs options).runIn world
    = ((plan options world.files).perform
        (Runner.process programs (options.has .dryRun))).runIn world
  := by
  rw [perform, Session.runIn_bind, runIn_loadSettings, plan]
  cases settingsIn options world.files with
  | error failure => rfl
  | ok settings =>
      dsimp only
      split
      · rfl
      · cases options.propertyFile with
        | none => rfl
        | some property =>
            cases options.benchmark with
            | none => rfl
            | some benchmark => rfl

end Perform

/-! ### Carrying out a plan -/

/-- The command that is announced, if it comes to that. -/
def Plan.command? (files : FileSystem) : Plan → Option Command
  | run configuration =>
    match Run.inputs configuration files with
    | .ok (category, concurrent) => some (configuration.command category concurrent)
    | .error _ => none
  | _ => none

/-- A plan can be carried out as far as it depends on files. -/
def Plan.Feasible (files : FileSystem) : Plan → Prop
  | refusal _ => False
  | version _ => True
  | run configuration => ∃ category concurrent, Run.Finds configuration files category concurrent

theorem reliable_newStream :
  Stream.Reliable {}
  := ⟨rfl, rfl⟩

theorem runIn_discard {α : Type} (session : Session α) (world : World) :
  (discard session).runIn world
    = ((session.runIn world).1.map fun _ => (), (session.runIn world).2)
  := by
  rw [Functor.discard, LawfulFunctor.map_const, Function.comp_apply, ← bind_pure_comp,
    Session.runIn_bind]
  cases session.runIn world with
  | mk result after =>
      cases result with
      | error failure => rfl
      | ok a => rfl

/-- A runner that launches nothing leaves the files, and a run with it writes the announcement of
its command if the files can be used. -/
theorem orchestrate_dry (configuration : Configuration) (programs : Programs) (directory : Path)
    (files : FileSystem) :
  ∃ result final,
    (Run.orchestrate configuration (Runner.process programs true) directory).runIn { files }
      = (result, final)
    ∧ final.files = files
    ∧ final.stream.written = (((Plan.run configuration).command? files).map Run.echo).getD []
    ∧ ((∃ outcome, result = .ok outcome) ↔ (Plan.run configuration).Feasible files)
  := by
  cases hrun : (Run.orchestrate configuration (Runner.process programs true) directory).runIn
      { files } with
  | mk result final =>
      refine ⟨result, final, rfl, ?_⟩
      cases Run.ends_of_runIn_eq hrun with
      | unprepared hinputs =>
          refine ⟨rfl, ?_, ?_⟩
          · rw [Plan.command?, hinputs]
            rfl
          · simp [Plan.Feasible, ← Run.inputs_eq_ok_iff, hinputs]
      | unannounced hinputs hsaid =>
          cases hsaid.eq_ok_iff.mpr (reliable_newStream.takes_and_flushes _)
      | refused _ _ hresult => cases hresult
      | dryRun hinputs hsaid hresult =>
          refine ⟨?_, ?_, ?_⟩
          · rw [World.files_launched, hsaid.files]
            rfl
          · rw [World.stream_launched, hsaid.stream, Plan.command?, hinputs]
            rfl
          · simp [Plan.Feasible, ← Run.inputs_eq_ok_iff, hinputs]
      | unreported _ _ hresult => cases hresult
      | completed _ _ hresult => cases hresult

/-- A plan that is carried out dry leaves the files, and writes at most the announcement of its
command. -/
theorem Plan.perform_dry (plan : Plan) (programs : Programs) (files : FileSystem) :
  ∃ result final,
    (plan.perform (Runner.process programs true)).runIn { files } = (result, final)
    ∧ final.files = files
    ∧ final.stream.written = ((plan.command? files).map Run.echo).getD []
    ∧ (result = .ok () ↔ plan.Feasible files)
  := by
  cases plan with
  | refusal failure => exact ⟨_, _, rfl, rfl, rfl, by simp [Feasible]⟩
  | version verifier =>
      have hrun : ((version verifier).perform (Runner.process programs true)).runIn { files }
          = (.ok (), World.launched { files } (Runner.process programs true)
              (Version.command verifier)) := by
        simp only [perform, Version.query, Session.runIn_bind, Session.runIn_launch]
        rfl
      exact ⟨_, _, hrun, rfl, rfl, iff_of_true rfl trivial⟩
  | run configuration =>
      obtain ⟨result, final, hrun, hfiles, hwritten, hok⟩ :=
        orchestrate_dry configuration programs files.workingPath files
      refine ⟨result.map fun _ => (), final, ?_, hfiles, hwritten, ?_⟩
      · simp only [perform, Session.runIn_bind, Session.runIn_files, runIn_discard, hrun]
      · rw [← hok]
        cases result with
        | error failure => simp [Except.map]
        | ok outcome => simp [Except.map]

/-- Whatever carries it out, a run is asked for the command of its plan. -/
theorem Plan.commands_perform_run (configuration : Configuration) (runner : Runner)
    (files : FileSystem) :
  (((Plan.run configuration).perform runner).runIn { files }).2.commands
    = ((Plan.run configuration).command? files).toList
  := by
  simp only [perform, Session.runIn_bind, Session.runIn_files, runIn_discard]
  cases hrun : (Run.orchestrate configuration runner files.workingPath).runIn { files } with
  | mk result final =>
      apply (Run.ends_of_runIn_eq hrun).commands.trans
      rw [Run.launch?, command?]
      cases Run.inputs configuration files with
      | error failure => rfl
      | ok found =>
          dsimp only
          rw [if_pos]
          · rfl
          · apply reliable_newStream.takes_and_flushes

/-! ### The options of a dry run -/

section Options

variable (options : Options) (files : FileSystem)

theorem Options.has_without (flag other : Flag) :
  (options.without flag).has other = (options.has other && other ≠ flag)
  := by
  rw [Bool.eq_iff_iff]
  simp [has, without]

theorem configuration_without_dryRun (settings : Settings) (property benchmark : Path) :
  configuration (options.without .dryRun) settings property benchmark
    = { configuration options settings property benchmark with dryRun := false }
  := by
  simp only [configuration, Options.has_without]
  simp [Options.without]

/-- Whether a call is dry makes no difference to its plan but for what the configuration says. -/
theorem plan_without_dryRun :
  plan (options.without .dryRun) files
    = match plan options files with
      | .run configuration => .run { configuration with dryRun := false }
      | other => other
  := by
  have hsettings : settingsIn (options.without .dryRun) files = settingsIn options files := rfl
  have hversion : (options.without .dryRun).has .version = options.has .version := by
    rw [Options.has_without]
    apply Bool.and_true
  simp only [plan, hsettings, hversion, configuration_without_dryRun]
  cases settingsIn options files with
  | error failure => rfl
  | ok settings =>
      dsimp only
      split
      · rfl
      · simp only [Options.without]
        cases options.propertyFile with
        | none => rfl
        | some property =>
            cases options.benchmark with
            | none => rfl
            | some benchmark => rfl

/-- The plan can be carried out if there are settings and the version is asked for, or the property
file and the benchmark are given and can be used. -/
theorem feasible_plan_iff :
  (plan options files).Feasible files
    ↔ ∃ settings, settingsIn options files = .ok settings
      ∧ (options.has .version
        ∨ ∃ property benchmark category concurrent, options.propertyFile = some property
          ∧ options.benchmark = some benchmark
          ∧ Run.Finds (configuration options settings property benchmark) files category concurrent)
  := by
  rw [plan]
  cases settingsIn options files with
  | error failure => simp [Plan.Feasible]
  | ok settings =>
      dsimp only
      split
      · next hversion => simp [Plan.Feasible, hversion]
      · next hversion =>
        cases options.propertyFile with
        | none => simp [Plan.Feasible, hversion]
        | some property =>
            cases options.benchmark with
            | none => simp [Plan.Feasible, hversion]
            | some benchmark => simp [Plan.Feasible, hversion]

theorem has_version_of_plan_eq {options : Options} {files : FileSystem} {verifier : Path}
    (h : plan options files = .version verifier) :
  options.has .version
  := by
  rw [plan] at h
  split at h
  · cases h
  split at h
  · next hversion => apply hversion
  · split at h <;> cases h

theorem not_has_version_of_plan_eq {options : Options} {files : FileSystem}
    {configuration : Configuration} (h : plan options files = .run configuration) :
  options.has .version = false
  := by
  rw [plan] at h
  split at h
  · cases h
  split at h
  · cases h
  · next hversion => rwa [Bool.not_eq_true] at hversion

end Options

/-! ### Dry calls -/

section Invoke

variable {programs : Programs} {files : FileSystem} {arguments : List Bytes} {options : Options}

/-- What a call leaves behind, in terms of what its options come to. -/
theorem invoke_eq {result : Except Failure Unit} {final : World}
    (hparse : parse arguments = .ok (.proceed options))
    (hrun : (perform programs options).runIn { files } = (result, final)) :
  (invoke programs files arguments).world = final
    ∧ (invoke programs files arguments).stdout = final.stream.written
    ∧ ((invoke programs files arguments).status = 0 ↔ result = .ok ())
  := by
  simp only [invoke, hparse, hrun]
  cases result with
  | error failure => simp
  | ok => simp

/-- In a dry call the programs have no influence. -/
theorem invoke_programs_eq (hparse : parse arguments = .ok (.proceed options))
    (hdry : options.has .dryRun) (programs' : Programs) :
  invoke programs' files arguments = invoke programs files arguments
  := by
  simp only [invoke, hparse, runIn_perform, hdry]
  rfl

/-- A call that is the same but for being dry executes the command of the plan. -/
theorem commands_perform_without {configuration : Configuration}
    (hplan : plan options files = .run configuration) (programs : Programs) :
  ((perform programs (options.without .dryRun)).runIn { files }).2.commands
    = ((Plan.run configuration).command? files).toList
  := by
  rw [runIn_perform, plan_without_dryRun, hplan]
  apply Plan.commands_perform_run

end Invoke

/-- A dry call starts no program: whatever the programs of the system do, the same comes of it, and
the files stay as they are. The call succeeds exactly if the settings can be read and, unless the
version is asked for, the property file and the benchmark are given and can be used. If it fails or
the version is asked for, it writes nothing. Otherwise it writes two lines, of which the second
shows the command that is executed by a call with the same options which is not dry. -/
theorem invoke_dryRun (programs : Programs) (files : FileSystem) {arguments : List Bytes}
    {options : Options} (hparse : parse arguments = .ok (.proceed options))
    (hdry : options.has .dryRun) :
  (∀ programs', invoke programs' files arguments = invoke programs files arguments)
    ∧ (invoke programs files arguments).world.files = files
    ∧ ((invoke programs files arguments).status = 0
      ↔ ∃ settings, settingsIn options files = .ok settings
        ∧ (options.has .version
          ∨ ∃ property benchmark category concurrent, options.propertyFile = some property
            ∧ options.benchmark = some benchmark
            ∧ Run.Finds (configuration options settings property benchmark) files category
              concurrent))
    ∧ ((invoke programs files arguments).stdout = []
          ∧ ((invoke programs files arguments).status ≠ 0 ∨ options.has .version)
        ∨ (invoke programs files arguments).status = 0 ∧ options.has .version = false
          ∧ ∃ command : Command,
            (invoke programs files arguments).stdout
              = Session.line "Verifying with ESBMC".toList
                ++ Session.line ("Command: ".toList ++ command.display.toList)
            ∧ ∀ programs',
              ((perform programs' (options.without .dryRun)).runIn { files }).2.commands
                = [command]
              ∧ ∀ arguments', parse arguments' = .ok (.proceed (options.without .dryRun)) →
                (invoke programs' files arguments').world.commands = [command])
  := by
  obtain ⟨result, final, hrun, hfiles, hwritten, hok⟩ :=
    (plan options files).perform_dry programs files
  rw [← hdry, ← runIn_perform programs options { files }] at hrun
  obtain ⟨hworld, hstdout, hstatus⟩ := invoke_eq hparse hrun
  rw [hok] at hstatus
  refine ⟨invoke_programs_eq hparse hdry, hworld ▸ hfiles, ?_, ?_⟩
  · rw [hstatus, feasible_plan_iff]
  rw [hstdout, hwritten, Ne, hstatus]
  cases hplan : plan options files with
  | refusal failure => exact .inl ⟨rfl, .inl id⟩
  | version verifier => exact .inl ⟨rfl, .inr (has_version_of_plan_eq hplan)⟩
  | run configuration =>
      cases hinputs : Run.inputs configuration files with
      | error failure =>
          left
          rw [Plan.command?, hinputs]
          refine ⟨rfl, .inl ?_⟩
          rintro ⟨category, concurrent, hfinds⟩
          rw [← Run.inputs_eq_ok_iff, hinputs] at hfinds
          cases hfinds
      | ok found =>
          obtain ⟨category, concurrent⟩ := found
          have hfinds := (Run.inputs_eq_ok_iff ..).mp hinputs
          have hcommand : (Plan.run configuration).command? files
              = some (configuration.command category concurrent) := by
            rw [Plan.command?, hinputs]
          right
          refine ⟨⟨category, concurrent, hfinds⟩, not_has_version_of_plan_eq hplan,
            configuration.command category concurrent, ?_, ?_⟩
          · rw [hcommand]
            rfl
          intro programs'
          have hcommands := commands_perform_without hplan programs'
          rw [hcommand] at hcommands
          refine ⟨hcommands, ?_⟩
          intro arguments' hparse'
          rw [(invoke_eq hparse' rfl).1]
          apply hcommands

namespace Sample

/-- Arguments for a dry run, with a flag that stands together with the one for it. -/
def arguments : List Bytes :=
  ["-cn", "--propertyfile=coverage.prp", "race.c"].map Bytes.ofString

/-- What these arguments say. -/
def options : Options where
  flags := [.concurrency, .dryRun]
  propertyFile := some (Bytes.ofString "coverage.prp")
  benchmark := some (Bytes.ofString "race.c")

/-- Programs that remove all files. -/
def programs : Programs := fun _ _ =>
  { stdout := [], stderr := [], status := .code 0, files := .empty [] }

end Sample

open Sample in
/-- The files are kept although every program would remove them. -/
theorem invoke_dryRun_sample :
  parse arguments = .ok (.proceed options)
    ∧ options.has .dryRun
    ∧ (invoke programs Run.Sample.files arguments).status = 0
    ∧ (invoke programs Run.Sample.files arguments).world.files = Run.Sample.files
    ∧ ∃ command : Command,
      (invoke programs Run.Sample.files arguments).stdout
        = Session.line "Verifying with ESBMC".toList
          ++ Session.line ("Command: ".toList ++ command.display.toList)
      ∧ ((perform programs (options.without .dryRun)).runIn
          { files := Run.Sample.files }).2.commands = [command]
  := by
  have hparse : parse arguments = .ok (.proceed options) := by decide +kernel
  have hdry : options.has .dryRun := rfl
  have hinputs : Run.inputs (configuration options {} (Bytes.ofString "coverage.prp")
      (Bytes.ofString "race.c")) Run.Sample.files = .ok (.coverage, true) := by decide +kernel
  obtain ⟨-, hfiles, hstatus, hstdout⟩ := invoke_dryRun programs Run.Sample.files hparse hdry
  have hzero := hstatus.mpr
    ⟨{}, rfl, .inr ⟨_, _, _, _, rfl, rfl, (Run.inputs_eq_ok_iff ..).mp hinputs⟩⟩
  obtain ⟨-, hnonzero | hversion⟩ | ⟨-, -, command, hlines, hcommands⟩ := hstdout
  · cases hnonzero hzero
  · cases hversion
  · exact ⟨hparse, hdry, hzero, hfiles, command, hlines, (hcommands programs).1⟩

end Proctor.CommandLine
