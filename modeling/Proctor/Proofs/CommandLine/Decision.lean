import Proctor.Proofs.CommandLine.DryRun

/-!
# The order of decisions

Several things can be wrong with a call at once. Its plan says which of them is reported: the
settings come first, then the question for the version, then the property file, then the benchmark,
and what remains is left to the run. Here it is said what each plan leaves behind, and that the exit
status is known before any program is started, up to whether the verifier can be started at all.
-/

namespace Proctor

/-! ### Success of runs -/

/-- The runner of processes answers if it is dry, or if the program can be started. -/
theorem Runner.exists_process_eq_ok_iff (programs : Programs) (dryRun : Bool) (command : Command)
    (files : FileSystem) :
  (∃ execution, (process programs dryRun command files).result = .ok execution)
    ↔ dryRun ∨ files.startable command.program = .ok ()
  := by
  rw [process]
  cases dryRun with
  | true => simp
  | false =>
      cases files.startable command.program with
      | error fault => simp
      | ok => simp

/-- The only failure of the runner of processes is that the program cannot be started. -/
theorem Runner.process_eq_error {programs : Programs} {dryRun : Bool} {command : Command}
    {files : FileSystem} {failure : Failure}
    (h : (process programs dryRun command files).result = .error failure) :
  ∃ message, failure = .process message
  := by
  rw [process] at h
  cases dryRun with
  | true => cases h
  | false =>
      cases hstarts : files.startable command.program with
      | error fault =>
          rw [hstarts] at h
          cases h
          exact ⟨_, rfl⟩
      | ok =>
          rw [hstarts] at h
          cases h

namespace Run

theorem reliable_of_saidCommand {configuration : Configuration} {world after : World}
    {category : Category} {concurrent : Bool} (h : world.stream.Reliable)
    (hsaid : SaidCommand configuration world category concurrent (.ok ()) after) :
  after.stream.Reliable
  := by
  rw [hsaid.stream]
  apply h

/-- On a stream that never fails, a run succeeds exactly if its two files can be used and the runner
answers. Neither the verdict nor the evidence has any influence. -/
theorem Ends.exists_eq_ok_iff {configuration : Configuration} {runner : Runner} {directory : Path}
    {world final : World} {result : Except Failure Outcome}
    (h : Ends configuration runner directory world result final)
    (hreliable : world.stream.Reliable) :
  (∃ outcome, result = .ok outcome)
    ↔ ∃ category concurrent, inputs configuration world.files = .ok (category, concurrent)
      ∧ ∃ execution,
        (runner (configuration.command category concurrent) world.files).result = .ok execution
  := by
  -- The two endings in which the stream fails cannot occur.
  cases h with
  | unprepared hinputs => simp [hinputs]
  | unannounced hinputs hsaid =>
      cases hsaid.eq_ok_iff.mpr (hreliable.takes_and_flushes _)
  | refused hinputs hsaid hresult =>
      constructor
      · rintro ⟨outcome, houtcome⟩
        cases houtcome
      · rintro ⟨category, concurrent, hinputs', execution, hresult'⟩
        cases hinputs'.symm.trans hinputs
        cases hresult'.symm.trans hresult
  | dryRun hinputs hsaid hresult =>
      apply iff_of_true ⟨_, rfl⟩
      exact ⟨_, _, hinputs, _, hresult⟩
  | unreported hinputs hsaid hresult hreported =>
      have hafter := reliable_of_saidCommand hreliable hsaid
      cases hreported.eq_ok_iff.mpr (hafter.takes_and_flushes _)
  | completed hinputs hsaid hresult hreported =>
      apply iff_of_true ⟨_, rfl⟩
      exact ⟨_, _, hinputs, _, hresult⟩

end Run

namespace CommandLine

/-! ### What a call leaves behind -/

/-- The world after a verifier was asked for its version in a new session, made from the answer of
the runner alone. -/
def answered (verifier : Path) (reply : Reply) : World :=
  let asked : World :=
    { files := reply.files
      trace := .launched (Version.command verifier) :: reply.records.map .logged }
  match reply.result with
  | .ok (.completed output) => asked.wrote (Session.line (Version.ofText output.text))
  | _ => asked

namespace Invocation

/-- What a call leaves behind whose options come to a result in a world. -/
def ofResult {α : Type} : Except Failure α → World → Invocation
  | .ok _, world => ⟨0, world.stream.written, logLines world.records, world⟩
  | .error failure, world =>
    ⟨1, world.stream.written, logLines world.records ++ failureLines failure, world⟩

/-- What a call leaves behind that reports a failure and does nothing else. -/
def refusal (failure : Failure) (files : FileSystem) : Invocation :=
  ⟨1, [], failureLines failure, { files }⟩

/-- What the caller sees: the exit status, the output and the messages. -/
def shown (call : Invocation) : Nat × Bytes × List String :=
  (call.status, call.stdout, call.stderr)

theorem status_ofResult {α : Type} (result : Except Failure α) (world : World) :
  (ofResult result world).status = 0 ↔ ∃ a, result = .ok a
  := by
  cases result with
  | error failure => simp [ofResult]
  | ok a => simp [ofResult]

theorem world_ofResult {α : Type} (result : Except Failure α) (world : World) :
  (ofResult result world).world = world
  := by
  cases result with
  | error failure => rfl
  | ok a => rfl

theorem ofResult_map {α β : Type} (f : α → β) (result : Except Failure α) (world : World) :
  ofResult (result.map f) world = ofResult result world
  := by
  cases result with
  | error failure => rfl
  | ok a => rfl

end Invocation

/-- Of the files that the runner leaves nothing is shown. -/
theorem shown_answered_congr {verifier : Path} {first second : Reply}
    (hresult : first.result = second.result) (hrecords : first.records = second.records) :
  (Invocation.ofResult first.result (answered verifier first)).shown
    = (Invocation.ofResult second.result (answered verifier second)).shown
  := by
  rw [answered, answered, hresult, hrecords]
  cases second.result with
  | error failure => rfl
  | ok execution =>
      cases execution with
      | completed output => rfl
      | dryRun => rfl

theorem packaging_notMem_answered (verifier : Path) (reply : Reply) (directory : Path) :
  .packaging directory ∉ (answered verifier reply).trace
  := by
  rw [answered]
  split
  · simp [World.wrote, World.note]
  · simp

/-- What carrying out a plan leaves behind. -/
def Plan.invocation (runner : Runner) (files : FileSystem) : Plan → Invocation
  | refusal failure => .refusal failure files
  | version verifier =>
    let reply := runner (Version.command verifier) files
    .ofResult reply.result (answered verifier reply)
  | run configuration =>
    let (result, final) :=
      (Run.orchestrate configuration runner files.workingPath).runIn { files }
    .ofResult result final

/-- The verifier is asked for its version, and what it answers is written. -/
theorem Plan.runIn_perform_version (runner : Runner) (files : FileSystem) (verifier : Path) :
  ((version verifier).perform runner).runIn { files }
    = ((runner (Version.command verifier) files).result.map fun _ => (),
      answered verifier (runner (Version.command verifier) files))
  := by
  simp only [perform, Version.query, Session.runIn_bind, Session.runIn_launch, answered]
  cases (runner (Version.command verifier) files).result with
  | error failure => rfl
  | ok execution =>
      cases execution with
      | dryRun => rfl
      | completed output =>
          have hspeaks :=
            reliable_newStream.takes_and_flushes (Session.line (Version.ofText output.text))
          simp only [Session.runIn_pure, Session.writeLine_eq_write]
          rw [Session.runIn_write_of_takes _ hspeaks.1]
          rfl

theorem Plan.ofResult_perform (runner : Runner) (files : FileSystem) (plan : Plan) :
  Invocation.ofResult ((plan.perform runner).runIn { files }).1
      ((plan.perform runner).runIn { files }).2
    = plan.invocation runner files
  := by
  cases plan with
  | refusal failure => rfl
  | version verifier => rw [runIn_perform_version, invocation, Invocation.ofResult_map]
  | run configuration =>
      simp only [perform, Session.runIn_bind, Session.runIn_files, runIn_discard, invocation,
        Invocation.ofResult_map]

/-- A call that proceeds leaves behind what its options come to. -/
theorem invoke_eq_ofResult (programs : Programs) {files : FileSystem} {arguments : List Bytes}
    {options : Options} (hparse : parse arguments = .ok (.proceed options)) :
  invoke programs files arguments
    = .ofResult ((perform programs options).runIn { files }).1
      ((perform programs options).runIn { files }).2
  := by
  rw [invoke, hparse]
  dsimp only
  cases (perform programs options).runIn { files } with
  | mk result final =>
      cases result with
      | error failure => rfl
      | ok => rfl

/-- A call that proceeds leaves behind what its plan does. -/
theorem invoke_eq_invocation (programs : Programs) {files : FileSystem} {arguments : List Bytes}
    {options : Options} (hparse : parse arguments = .ok (.proceed options)) :
  invoke programs files arguments
    = (plan options files).invocation (Runner.process programs (options.has .dryRun)) files
  := by
  rw [invoke_eq_ofResult programs hparse, runIn_perform, Plan.ofResult_perform]

/-! ### Exit status -/

theorem Plan.status_run (runner : Runner) (files : FileSystem) (configuration : Configuration) :
  ((run configuration).invocation runner files).status = 0
    ↔ ∃ outcome, ((Run.orchestrate configuration runner files.workingPath).runIn { files }).1
      = .ok outcome
  := Invocation.status_ofResult ..

/-- The files can be used for a plan, and its verifier can be started unless nothing is. -/
def Plan.Succeeds (dryRun : Bool) (files : FileSystem) : Plan → Prop
  | refusal _ => False
  | version verifier => dryRun ∨ files.startable verifier = .ok ()
  | run configuration =>
    (∃ category concurrent, Run.Finds configuration files category concurrent)
      ∧ (dryRun ∨ files.startable configuration.settings.verifier = .ok ())

/-- Whether a plan comes to a good end is decided before any program is started. -/
theorem Plan.status_invocation (programs : Programs) (dryRun : Bool) (files : FileSystem)
    (plan : Plan) :
  (plan.invocation (Runner.process programs dryRun) files).status = 0
    ↔ plan.Succeeds dryRun files
  := by
  cases plan with
  | refusal failure => simp [invocation, Invocation.refusal, Succeeds]
  | version verifier =>
      rw [invocation, Invocation.status_ofResult]
      apply Runner.exists_process_eq_ok_iff
  | run configuration =>
      have hends : Run.Ends configuration (Runner.process programs dryRun) files.workingPath
          { files } _ _ := Run.gives_orchestrate ..
      rw [status_run, hends.exists_eq_ok_iff reliable_newStream]
      simp only [Run.inputs_eq_ok_iff, Runner.exists_process_eq_ok_iff]
      -- Whatever the files ask for, the program of the command is the verifier of the settings.
      constructor
      · rintro ⟨category, concurrent, hfinds, hstarts⟩
        exact ⟨⟨category, concurrent, hfinds⟩, hstarts⟩
      · rintro ⟨⟨category, concurrent, hfinds⟩, hstarts⟩
        exact ⟨category, concurrent, hfinds, hstarts⟩

theorem Invocation.status_ofResult_le {α : Type} (result : Except Failure α) (world : World) :
  (ofResult result world).status ≤ 1
  := by
  cases result with
  | error failure => apply Nat.le_refl
  | ok a => apply Nat.zero_le

/-- What programs print and what they do to the files has no influence on the exit status, so that
it says nothing about the verdict and about the evidence. -/
theorem status_invoke_eq (programs programs' : Programs) {files : FileSystem}
    {arguments : List Bytes} {options : Options}
    (hparse : parse arguments = .ok (.proceed options)) :
  (invoke programs' files arguments).status = (invoke programs files arguments).status
  := by
  have hle : ∀ programs, (invoke programs files arguments).status ≤ 1 := by
    intro programs
    rw [invoke_eq_ofResult programs hparse]
    apply Invocation.status_ofResult_le
  have hiff : (invoke programs' files arguments).status = 0
      ↔ (invoke programs files arguments).status = 0 := by
    rw [invoke_eq_invocation programs hparse, invoke_eq_invocation programs' hparse,
      Plan.status_invocation, Plan.status_invocation]
  have hstatus := hle programs
  have hstatus' := hle programs'
  omega

/-! ### Which decision comes first -/

section Plan

variable {options : Options} {files : FileSystem}

theorem plan_of_unloadable {failure : Failure} (h : settingsIn options files = .error failure) :
  plan options files = .refusal failure
  := by rw [plan, h]

theorem plan_of_version {settings : Settings} (h : settingsIn options files = .ok settings)
    (hversion : options.has .version) :
  plan options files = .version settings.verifier
  := by
  rw [plan, h]
  apply if_pos hversion

theorem plan_of_not_version {settings : Settings} (h : settingsIn options files = .ok settings)
    (hversion : options.has .version = false) :
  plan options files = match options.propertyFile, options.benchmark with
    | none, _ => .refusal (.missingArgument .property)
    | some _, none => .refusal (.missingArgument .benchmark)
    | some property, some benchmark => .run (configuration options settings property benchmark)
  := by
  rw [plan, h]
  dsimp only
  rw [hversion]
  rfl

/-- A plan comes to a good end if the version is found out or the run succeeds. -/
theorem status_plan (runner : Runner) (options : Options) (files : FileSystem) :
  ((plan options files).invocation runner files).status = 0
    ↔ ∃ settings, settingsIn options files = .ok settings
      ∧ (options.has .version
          ∧ (∃ execution,
            (runner (Version.command settings.verifier) files).result = .ok execution)
        ∨ options.has .version = false
          ∧ ∃ property benchmark outcome, options.propertyFile = some property
            ∧ options.benchmark = some benchmark
            ∧ ((Run.orchestrate (configuration options settings property benchmark) runner
              files.workingPath).runIn { files }).1 = .ok outcome)
  := by
  cases hsettings : settingsIn options files with
  | error failure =>
      rw [plan_of_unloadable hsettings]
      simp [Plan.invocation, Invocation.refusal]
  | ok settings =>
      cases hversion : options.has .version with
      | true =>
          rw [plan_of_version hsettings hversion, Plan.invocation, Invocation.status_ofResult]
          simp
      | false =>
          rw [plan_of_not_version hsettings hversion]
          cases options.propertyFile with
          | none => simp [Plan.invocation, Invocation.refusal]
          | some property =>
              cases options.benchmark with
              | none => simp [Plan.invocation, Invocation.refusal]
              | some benchmark => simp [Plan.status_run]

end Plan

/-- Settings that cannot be loaded are reported whatever else is asked for. Otherwise the question
for the version is answered, and all that is shown comes from the answer of the runner. Otherwise a
property file that is not given is reported before a benchmark that is not given, and nothing else
happens. Otherwise the call comes to what a run comes to whose configuration is made from the
options. The exit status is zero exactly if the version was found out or the run succeeded, whatever
the programs print and leave in the files. -/
theorem invoke_decision (programs : Programs) (files : FileSystem) {arguments : List Bytes}
    {options : Options} (hparse : parse arguments = .ok (.proceed options)) :
  let runner := Runner.process programs (options.has .dryRun)
  let call := invoke programs files arguments
  (∀ path failure, options.settings = some path →
      Configuration.settingsOfFile files path = .error failure → call = .refusal failure files)
    ∧ (∀ settings, settingsIn options files = .ok settings → options.has .version →
      let reply := runner (Version.command settings.verifier) files
      call = .ofResult reply.result (answered settings.verifier reply)
        ∧ (∀ directory, .packaging directory ∉ call.world.trace)
        ∧ (∀ argument, reply.result ≠ .error (.missingArgument argument))
        ∧ ∀ other, settingsIn options other = .ok settings →
          (runner (Version.command settings.verifier) other).result = reply.result →
          (runner (Version.command settings.verifier) other).records = reply.records →
          (invoke programs other arguments).shown = call.shown)
    ∧ (∀ settings, settingsIn options files = .ok settings → options.has .version = false →
      (options.propertyFile = none → call = .refusal (.missingArgument .property) files)
        ∧ ∀ property, options.propertyFile = some property →
          (options.benchmark = none → call = .refusal (.missingArgument .benchmark) files)
            ∧ ∀ benchmark, options.benchmark = some benchmark →
              ∃ result final,
                (Run.orchestrate
                  { property, benchmark, settings
                    strategy := options.strategy.getD .fixedKInduction
                    architecture := options.architecture.getD .bits32
                    concurrencyHint := options.has .concurrency
                    dryRun := options.has .dryRun
                    ci := options.has .ci }
                  runner files.workingPath).runIn { files } = (result, final)
                ∧ call = .ofResult result final)
    ∧ (call.status = 0
      ↔ ∃ settings, settingsIn options files = .ok settings
        ∧ (options.has .version
            ∧ (∃ execution,
              (runner (Version.command settings.verifier) files).result = .ok execution)
          ∨ options.has .version = false
            ∧ ∃ property benchmark outcome, options.propertyFile = some property
              ∧ options.benchmark = some benchmark
              ∧ ((Run.orchestrate (configuration options settings property benchmark) runner
                files.workingPath).runIn { files }).1 = .ok outcome))
    ∧ ∀ programs', (invoke programs' files arguments).status = call.status
  := by
  intro runner call
  have hcall : call = (plan options files).invocation runner files :=
    invoke_eq_invocation programs hparse
  refine ⟨?_, ?_, ?_, ?_, ?_⟩
  · intro path failure hpath hfailure
    have hsettings : settingsIn options files = .error failure := by
      rw [settingsIn, hpath]
      apply hfailure
    rw [hcall, plan_of_unloadable hsettings]
    rfl
  · intro settings hsettings hversion reply
    have hanswered : call = .ofResult reply.result (answered settings.verifier reply) := by
      rw [hcall, plan_of_version hsettings hversion]
      rfl
    refine ⟨hanswered, ?_, ?_, ?_⟩
    · intro directory
      rw [hanswered, Invocation.world_ofResult]
      apply packaging_notMem_answered
    · intro argument hmissing
      obtain ⟨message, hmessage⟩ := Runner.process_eq_error hmissing
      cases hmessage
    · intro other hother hresult hrecords
      rw [hanswered, invoke_eq_invocation programs hparse, plan_of_version hother hversion]
      apply shown_answered_congr hresult hrecords
  · intro settings hsettings hversion
    rw [hcall, plan_of_not_version hsettings hversion]
    constructor
    · intro hproperty
      rw [hproperty]
      rfl
    · intro property hproperty
      rw [hproperty]
      constructor
      · intro hbenchmark
        rw [hbenchmark]
        rfl
      · intro benchmark hbenchmark
        rw [hbenchmark]
        exact ⟨_, _, rfl, rfl⟩
  · rw [hcall]
    apply status_plan
  · intro programs'
    apply status_invoke_eq programs programs' hparse

namespace Sample

/-- Arguments for a run. -/
def runArguments : List Bytes :=
  ["-p", "coverage.prp", "race.c"].map Bytes.ofString

/-- What these arguments say. -/
def runOptions : Options where
  propertyFile := some (Bytes.ofString "coverage.prp")
  benchmark := some (Bytes.ofString "race.c")

/-- The configuration that they ask for. -/
def runConfiguration : Configuration :=
  configuration runOptions {} (Bytes.ofString "coverage.prp") (Bytes.ofString "race.c")

/-- The files of a run, with the verifier beside them. -/
def startableFiles : FileSystem :=
  Run.Sample.files.put (.ofNames [Bytes.ofString "esbmc"])
    (.file (.data Program.leastBinary) true)

/-- Files among which there is a directory in the place of the archive. -/
def spoiledFiles : FileSystem :=
  (FileSystem.empty []).put (.ofNames [Bytes.ofString Evidence.archiveFile]) .directory

/-- Programs that print a failure, end with an error, and leave these files. -/
def spoiling : Programs := fun _ _ =>
  { stdout := Bytes.ofString "VERIFICATION FAILED", stderr := [], status := .code 1
    files := spoiledFiles }

end Sample

open Sample in
/-- A call succeeds although the property is violated, the verifier ends with an error, and no
evidence can be packed. -/
theorem invoke_decision_spoiling :
  parse runArguments = .ok (.proceed runOptions)
    ∧ Run.verdictOn .coverage (.ofStreams (Bytes.ofString "VERIFICATION FAILED") []) = .falseReach
    ∧ Evidence.packed? startableFiles.workingPath spoiledFiles = none
    ∧ (invoke spoiling startableFiles runArguments).status = 0
  := by
  have hparse : parse runArguments = .ok (.proceed runOptions) := by decide +kernel
  have hstarts : startableFiles.startable (Bytes.ofString "./esbmc") = .ok () := by decide +kernel
  have hinputs : Run.inputs runConfiguration startableFiles = .ok (.coverage, true) := by
    decide +kernel
  obtain ⟨execution, hexecution⟩ := (Runner.exists_process_eq_ok_iff spoiling false
    (runConfiguration.command .coverage true) startableFiles).mpr (.inr hstarts)
  have hends := Run.gives_orchestrate runConfiguration (Runner.process spoiling false)
    startableFiles.workingPath { files := startableFiles }
  obtain ⟨outcome, houtcome⟩ := (Run.Ends.exists_eq_ok_iff hends reliable_newStream).mpr
    ⟨_, _, hinputs, _, hexecution⟩
  have hstatus := (invoke_decision spoiling startableFiles hparse).2.2.2.1
  refine ⟨hparse, by decide +kernel, by decide +kernel, hstatus.mpr ?_⟩
  exact ⟨{}, rfl, .inr ⟨rfl, _, _, _, rfl, rfl, houtcome⟩⟩

end CommandLine

end Proctor
