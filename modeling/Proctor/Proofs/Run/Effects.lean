import Mathlib.Control.Monad.Basic
import Proctor.Proofs.Run.Ending

/-!
# Effects of runs

The actions of a run follow a script that is fixed by the files and the runner, up to the point
where the stream fails. From this it is seen which command is launched, when the evidence is packed,
and what happens to the files.
-/

namespace Proctor.Run

open Effect (Follows)

section Scripts

variable (configuration : Configuration) (runner : Runner) (directory : Path)

/-- The actions of a run that nothing stops but its files and its runner. -/
def script (files : FileSystem) : List Effect :=
  match inputs configuration files with
  | .error _ => []
  | .ok (category, concurrent) =>
    let command := configuration.command category concurrent
    announcement command ++ [.launched command] ++ match (runner command files).result with
      | .ok (.completed output) => reply category output ++ [.packaging directory]
      | _ => []

/-- The command that a run launches, if it comes to that. -/
def launch? (world : World) : Option Command :=
  match inputs configuration world.files with
  | .error _ => none
  | .ok (category, concurrent) =>
    let command := configuration.command category concurrent
    if world.stream.Takes (echo command) ∧ ¬ world.stream.FlushFails then some command else none

/-- Whether a run is complete. -/
def isCompleted : Except Failure Outcome → Bool
  | .ok (.completed _) => true
  | _ => false

variable {configuration runner directory}

theorem script_of_inputs {files : FileSystem} {category : Category} {concurrent : Bool}
    (h : inputs configuration files = .ok (category, concurrent)) :
  script configuration runner directory files
    = announcement (configuration.command category concurrent)
      ++ [.launched (configuration.command category concurrent)]
      ++ match (runner (configuration.command category concurrent) files).result with
        | .ok (.completed output) => reply category output ++ [.packaging directory]
        | _ => []
  := by rw [script, h]

/-- A command is launched exactly when the two files can be used and the command was announced. -/
theorem launch?_eq_some_iff {world : World} {command : Command} :
  launch? configuration world = some command
    ↔ ∃ category concurrent, Finds configuration world.files category concurrent
      ∧ command = configuration.command category concurrent
      ∧ world.stream.Takes (echo command) ∧ ¬ world.stream.FlushFails
  := by
  simp only [← inputs_eq_ok_iff, launch?]
  cases inputs configuration world.files with
  | error failure => simp
  | ok found =>
      simp only [Except.ok.injEq, Option.ite_none_right_eq_some, Option.some.injEq]
      constructor
      · rintro ⟨hsaid, rfl⟩
        exact ⟨_, _, rfl, rfl, hsaid⟩
      · rintro ⟨category, concurrent, rfl, rfl, hsaid⟩
        exact ⟨hsaid, rfl⟩

theorem isSpeech_announcement (command : Command) :
  ∀ effect ∈ announcement command, effect.isSpeech
  := by simp [announcement, Effect.isSpeech]

theorem isSpeech_reply (category : Category) (output : Output) :
  ∀ effect ∈ reply category output, effect.isSpeech
  := by simp [reply, Effect.isSpeech]

theorem filterMap_command?_eq_nil {actions : List Effect}
    (h : ∀ effect ∈ actions, effect.isSpeech) :
  actions.filterMap Effect.command? = []
  := by
  rw [List.filterMap_eq_nil_iff]
  intro effect heffect
  apply Effect.command?_of_isSpeech (h effect heffect)

end Scripts

namespace Ends

variable {configuration : Configuration} {runner : Runner} {directory : Path} {world final : World}
  {result : Except Failure Outcome}

/-- Whatever happens, the actions of a run follow its script. -/
theorem follows (h : Ends configuration runner directory world result final) :
  ∃ actions, final.actions = world.actions ++ actions
    ∧ Follows actions (script configuration runner directory world.files)
  := by
  cases h with
  | unprepared hinputs =>
      use []
      rw [World.actions_logged, List.append_nil]
      use rfl
      apply Follows.nil
  | unannounced hinputs hsaid =>
      obtain ⟨actions, hactions, hfollows⟩ := hsaid.follows
      use actions, hactions
      rw [script_of_inputs hinputs, List.append_assoc]
      apply hfollows.append_right
  | refused hinputs hsaid hresult =>
      rw [World.actions_launched, hsaid.actions, List.append_assoc, script_of_inputs hinputs]
      refine ⟨_, rfl, ?_⟩
      apply (Follows.refl _).append_right
  | dryRun hinputs hsaid hresult =>
      rw [World.actions_launched, hsaid.actions, List.append_assoc, script_of_inputs hinputs]
      refine ⟨_, rfl, ?_⟩
      apply (Follows.refl _).append_right
  | unreported hinputs hsaid hresult hreported =>
      obtain ⟨actions, hactions, hfollows⟩ := hreported.follows
      rw [hactions, hsaid.actions, script_of_inputs hinputs, hresult]
      simp only [List.append_assoc]
      refine ⟨_, rfl, ?_⟩
      apply Follows.append_left
      apply Follows.append_left
      apply hfollows.append_right
  | completed hinputs hsaid hresult hreported =>
      rw [actions_concluded, hreported.actions, hsaid.actions, script_of_inputs hinputs, hresult]
      simp only [List.append_assoc]
      refine ⟨_, rfl, ?_⟩
      apply Follows.refl

theorem launch?_of_announced {category : Category} {concurrent : Bool} {after : World}
    (hinputs : inputs configuration world.files = .ok (category, concurrent))
    (hsaid : SaidCommand configuration world category concurrent (.ok ()) after) :
  launch? configuration world = some (configuration.command category concurrent)
  := by
  rw [launch?, hinputs]
  apply if_pos (hsaid.eq_ok_iff.mp rfl)

theorem launch?_of_unannounced {category : Category} {concurrent : Bool} {after : World}
    {failure : Failure}
    (hinputs : inputs configuration world.files = .ok (category, concurrent))
    (hsaid : SaidCommand configuration world category concurrent (.error failure) after) :
  launch? configuration world = none
  := by
  rw [launch?, hinputs]
  apply if_neg
  intro hok
  cases hsaid.eq_ok_iff.mpr hok

/-- Beside what concerns the stream, a run launches at most one command, and it packs the evidence
if it is complete. -/
theorem actions (h : Ends configuration runner directory world result final) :
  ∃ before after : List Effect, (∀ effect ∈ before, effect.isSpeech)
    ∧ (∀ effect ∈ after, effect.isSpeech)
    ∧ final.actions = world.actions ++ before
      ++ (launch? configuration world).toList.map .launched ++ after
      ++ if isCompleted result then [.packaging directory] else []
  := by
  cases h with
  | unprepared hinputs =>
      use [], []
      simp [launch?, hinputs, isCompleted]
  | unannounced hinputs hsaid =>
      obtain ⟨actions, hactions, hfollows⟩ := hsaid.follows
      use actions, [], hfollows.isSpeech (isSpeech_announcement _)
      simp [hactions, launch?_of_unannounced hinputs hsaid, isCompleted]
  | @refused category concurrent _ _ hinputs hsaid hresult =>
      use announcement (configuration.command category concurrent), [], isSpeech_announcement _
      simp [hsaid.actions, launch?_of_announced hinputs hsaid, isCompleted]
  | @dryRun category concurrent _ hinputs hsaid hresult =>
      use announcement (configuration.command category concurrent), [], isSpeech_announcement _
      simp [hsaid.actions, launch?_of_announced hinputs hsaid, isCompleted]
  | @unreported category concurrent _ _ _ _ hinputs hsaid hresult hreported =>
      obtain ⟨actions, hactions, hfollows⟩ := hreported.follows
      use announcement (configuration.command category concurrent), actions
      use isSpeech_announcement _
      use hfollows.isSpeech (isSpeech_reply _ _)
      simp [hactions, hsaid.actions, launch?_of_announced hinputs hsaid, isCompleted]
  | @completed category concurrent output _ _ hinputs hsaid hresult hreported =>
      use announcement (configuration.command category concurrent), reply category output
      use isSpeech_announcement _, isSpeech_reply _ _
      simp [hreported.actions, hsaid.actions, launch?_of_announced hinputs hsaid, isCompleted]

/-- The command that is launched is seen in the world that a run leaves. -/
theorem commands (h : Ends configuration runner directory world result final) :
  final.commands = world.commands ++ (launch? configuration world).toList
  := by
  obtain ⟨before, after, hbefore, hafter, hactions⟩ := h.actions
  have hpacking : (if isCompleted result then [Effect.packaging directory] else []).filterMap
      Effect.command? = [] := by
    split <;> rfl
  have hlaunched : ∀ launched? : Option Command,
      (launched?.toList.map Effect.launched).filterMap Effect.command? = launched?.toList := by
    intro launched?
    cases launched? with
    | none => rfl
    | some command => rfl
  simp only [World.commands_eq_filterMap_actions, hactions, List.filterMap_append,
    filterMap_command?_eq_nil hbefore, filterMap_command?_eq_nil hafter, hpacking, hlaunched,
    List.append_nil]

/-- A run packs the evidence exactly when it is complete, and only in its directory. -/
theorem packaging_mem_iff (h : Ends configuration runner directory world result final)
    (other : Path) :
  .packaging other ∈ final.actions
    ↔ .packaging other ∈ world.actions ∨ other = directory ∧ isCompleted result
  := by
  obtain ⟨before, after, hbefore, hafter, hactions⟩ := h.actions
  have hspeech : ∀ actions : List Effect, (∀ effect ∈ actions, effect.isSpeech) →
      .packaging other ∉ actions := by
    intro actions hactions hmem
    cases hactions _ hmem
  simp [hactions, hspeech before hbefore, hspeech after hafter, and_comm]

/-- Until a run is complete, only the runner changes files. -/
theorem files (h : Ends configuration runner directory world result final)
    (hresult : isCompleted result = false) :
  final.files = match launch? configuration world with
    | none => world.files
    | some command => (runner command world.files).files
  := by
  cases h with
  | unprepared hinputs => simp [launch?, hinputs]
  | unannounced hinputs hsaid => rw [launch?_of_unannounced hinputs hsaid, hsaid.files]
  | refused hinputs hsaid =>
      rw [launch?_of_announced hinputs hsaid, World.files_launched, hsaid.files]
  | dryRun hinputs hsaid =>
      rw [launch?_of_announced hinputs hsaid, World.files_launched, hsaid.files]
  | unreported hinputs hsaid _ hreported =>
      rw [launch?_of_announced hinputs hsaid, hreported.files, hsaid.files]
  | completed => cases hresult

/-- A failure that does not come from the stream is that of a file that could not be used, and then
nothing happened, or it is the answer of the runner. -/
theorem of_error {failure : Failure}
    (h : Ends configuration runner directory world (.error failure) final) :
  (∃ fault, failure = .io fault)
    ∨ (inputs configuration world.files = .error failure ∧ final.stream = world.stream
      ∧ launch? configuration world = none)
    ∨ ∃ command, launch? configuration world = some command
      ∧ (runner command world.files).result = .error failure
  := by
  cases h with
  | unprepared hinputs =>
      right
      left
      use hinputs, World.stream_logged ..
      rw [launch?, hinputs]
  | unannounced hinputs hsaid =>
      left
      apply Session.Said.eq_io hsaid
  | refused hinputs hsaid hresult =>
      right
      right
      exact ⟨_, launch?_of_announced hinputs hsaid, hresult⟩
  | unreported hinputs hsaid hresult hreported =>
      left
      apply Session.Said.eq_io hreported

/-- After the command was announced, there is room for the answer and the second flush succeeds
exactly if the stream had room for both and does not fail at its second flush. -/
theorem answered_iff {category : Category} {concurrent : Bool} {after : World}
    (hsaid : SaidCommand configuration world category concurrent (.ok ()) after) (output : Output) :
  after.stream.Takes (answer category output) ∧ ¬ after.stream.FlushFails
    ↔ world.stream.Takes
        (echo (configuration.command category concurrent) ++ answer category output)
      ∧ world.stream.failingFlush ≠ some (world.stream.flushes + 2)
  := by
  obtain ⟨htakes, -⟩ := hsaid.eq_ok_iff.mp rfl
  rw [Stream.takes_append, Stream.write_of_takes htakes, hsaid.stream, and_iff_right htakes]
  apply Iff.rfl

/-- A run is complete exactly when its files can be used, the runner completes the command, and the
stream has room for everything and no flush fails. -/
theorem isCompleted_iff (h : Ends configuration runner directory world result final) :
  isCompleted result
    ↔ ∃ category concurrent output,
      inputs configuration world.files = .ok (category, concurrent)
      ∧ (runner (configuration.command category concurrent) world.files).result
        = .ok (.completed output)
      ∧ world.stream.Takes
        (echo (configuration.command category concurrent) ++ answer category output)
      ∧ ¬ world.stream.FlushFails
      ∧ world.stream.failingFlush ≠ some (world.stream.flushes + 2)
  := by
  constructor
  · intro hcompleted
    obtain _ | _ | _ | _ | _ | ⟨hinputs, hsaid, hresult, hreported⟩ := h <;> try cases hcompleted
    obtain ⟨-, hfirst⟩ := hsaid.eq_ok_iff.mp rfl
    obtain ⟨htakes, hsecond⟩ := (answered_iff hsaid _).mp (hreported.eq_ok_iff.mp rfl)
    exact ⟨_, _, _, hinputs, hresult, htakes, hfirst, hsecond⟩
  · rintro ⟨category, concurrent, output, hinputs, hresult, htakes, hfirst, hsecond⟩
    cases h with
    | unprepared hinputs' => cases hinputs'.symm.trans hinputs
    | unannounced hinputs' hsaid =>
        cases hinputs'.symm.trans hinputs
        cases hsaid.eq_ok_iff.mpr ⟨((Stream.takes_append ..).mp htakes).1, hfirst⟩
    | refused hinputs' hsaid hresult' =>
        cases hinputs'.symm.trans hinputs
        cases hresult'.symm.trans hresult
    | dryRun hinputs' hsaid hresult' =>
        cases hinputs'.symm.trans hinputs
        cases hresult'.symm.trans hresult
    | unreported hinputs' hsaid hresult' hreported =>
        cases hinputs'.symm.trans hinputs
        cases hresult'.symm.trans hresult
        cases hreported.eq_ok_iff.mpr ((answered_iff hsaid output).mpr ⟨htakes, hsecond⟩)
    | completed => rfl

/-- If the files can be used and the command can be announced, then a failure of the runner is the
result, after the command was announced and launched. -/
theorem of_refusal {category : Category} {concurrent : Bool} {failure : Failure}
    (h : Ends configuration runner directory world result final)
    (hinputs : inputs configuration world.files = .ok (category, concurrent))
    (htakes : world.stream.Takes (echo (configuration.command category concurrent)))
    (hflush : ¬ world.stream.FlushFails)
    (hresult : (runner (configuration.command category concurrent) world.files).result
      = .error failure) :
  result = .error failure
    ∧ final.commands = world.commands ++ [configuration.command category concurrent]
    ∧ final.stream.written
      = world.stream.written ++ echo (configuration.command category concurrent)
  := by
  have hcommands := h.commands
  cases h with
  | unprepared hinputs' => cases hinputs'.symm.trans hinputs
  | unannounced hinputs' hsaid =>
      cases hinputs'.symm.trans hinputs
      cases hsaid.eq_ok_iff.mpr ⟨htakes, hflush⟩
  | refused hinputs' hsaid hresult' =>
      cases hinputs'.symm.trans hinputs
      cases hresult'.symm.trans hresult
      rw [launch?_of_announced hinputs hsaid] at hcommands
      refine ⟨rfl, hcommands, ?_⟩
      rw [World.stream_launched, hsaid.stream]
  | dryRun hinputs' _ hresult' =>
      cases hinputs'.symm.trans hinputs
      cases hresult'.symm.trans hresult
  | unreported hinputs' _ hresult' | completed hinputs' _ hresult' =>
      cases hinputs'.symm.trans hinputs
      cases hresult'.symm.trans hresult

end Ends

/-! ### The order of the effects -/

/-- Whether a failure is that of a property file or of a benchmark. -/
def concernsInput : Failure → Bool
  | .propertyUnreadable .. => true
  | .unsupportedProperty => true
  | .benchmarkUnreadable .. => true
  | _ => false

/-- The actions of a run follow its script. At most one command is launched, and this happens
exactly if the property file is text with a known specification, the benchmark can be read, and the
command was announced in full. The evidence is packed exactly if moreover the runner completed the
command and the output and the verdict were written in full. A run that is not complete leaves the
files to the runner. If it fails because of a property file or a benchmark, then nothing was written
and nothing was launched, unless this failure is the answer of the runner. -/
theorem orchestrate_effects (configuration : Configuration) (runner : Runner) (directory : Path)
    (files : FileSystem) (stream : Stream) :
  ∃ result final,
    (orchestrate configuration runner directory).runIn { files, stream } = (result, final)
    ∧ Follows final.actions (script configuration runner directory files)
    ∧ final.commands.length ≤ 1
    ∧ (∀ command, command ∈ final.commands
      ↔ ∃ category concurrent, Finds configuration files category concurrent
        ∧ command = configuration.command category concurrent
        ∧ stream.Takes (echo command) ∧ ¬ stream.FlushFails)
    ∧ (∀ other, .packaging other ∈ final.trace
      ↔ other = directory ∧ ∃ category concurrent output,
        Finds configuration files category concurrent
        ∧ (runner (configuration.command category concurrent) files).result
          = .ok (.completed output)
        ∧ stream.Takes (echo (configuration.command category concurrent) ++ answer category output)
        ∧ ¬ stream.FlushFails ∧ stream.failingFlush ≠ some (stream.flushes + 2))
    ∧ (isCompleted result = false →
      final.commands = [] ∧ final.files = files
        ∨ ∃ command, final.commands = [command] ∧ final.files = (runner command files).files)
    ∧ (∀ failure, result = .error failure → concernsInput failure →
      final.commands = [] ∧ final.stream = stream
        ∨ ∃ command, final.commands = [command]
          ∧ (runner command files).result = .error failure)
  := by
  cases hrun : (orchestrate configuration runner directory).runIn { files, stream } with
  | mk result final =>
      have hends := ends_of_runIn_eq hrun
      have hcommands : final.commands = (launch? configuration { files, stream }).toList :=
        hends.commands
      refine ⟨result, final, rfl, ?_, ?_, ?_, ?_, ?_, ?_⟩
      · obtain ⟨actions, hactions, hfollows⟩ := hends.follows
        rw [show final.actions = actions from hactions]
        apply hfollows
      · rw [hcommands]
        apply Option.length_toList_le
      · intro command
        rw [hcommands, Option.mem_toList, launch?_eq_some_iff]
      · intro other
        have hnone : .packaging other ∉ World.actions { files, stream } := List.not_mem_nil
        rw [← World.mem_actions_iff rfl, hends.packaging_mem_iff, or_iff_right hnone,
          hends.isCompleted_iff]
        simp only [inputs_eq_ok_iff]
      · intro hincomplete
        have hfiles := hends.files hincomplete
        cases hlaunch : launch? configuration { files, stream } with
        | none =>
            rw [hlaunch] at hcommands hfiles
            left
            use hcommands, hfiles
        | some command =>
            rw [hlaunch] at hcommands hfiles
            right
            use command, hcommands, hfiles
      · rintro failure rfl hconcerns
        rcases hends.of_error with
          ⟨fault, rfl⟩ | ⟨-, hstream, hlaunch⟩ | ⟨command, hlaunch, hanswer⟩
        · cases hconcerns
        · rw [hlaunch] at hcommands
          left
          use hcommands, hstream
        · rw [hlaunch] at hcommands
          right
          use command, hcommands, hanswer

namespace Sample

/-- A configuration for two files in the working directory. -/
def configuration : Configuration where
  property := Bytes.ofString "coverage.prp"
  benchmark := Bytes.ofString "race.c"

/-- The two files: a property that asks for coverage, and a benchmark that creates a thread. -/
def files : FileSystem :=
  let property := Bytes.ofString "COVER( init(main()), FQL(COVER EDGES(@DECISIONEDGE)) )"
  let benchmark := Bytes.ofString "pthread_create(&t, 0, f, 0);"
  ((FileSystem.empty []).put (.ofNames [configuration.property]) (.file (.data property) false)).put
    (.ofNames [configuration.benchmark]) (.file (.data benchmark) false)

/-- A runner that answers every command as if its property were unsupported. -/
def refusingRunner : Runner := fun _ files =>
  { result := .error .unsupportedProperty, files }

end Sample

open Sample in
/-- A run can fail as if its property were unsupported although the command was announced and
launched, because the runner may answer so. -/
theorem orchestrate_refusingRunner :
  ∃ command final,
    (orchestrate configuration refusingRunner Path.selfName).runIn { files }
      = (.error .unsupportedProperty, final)
    ∧ final.commands = [command]
    ∧ final.stream.written ≠ []
  := by
  have hgreeting : Session.line greeting.toList ≠ [] := by decide
  have hecho : ∀ command, echo command ≠ [] := fun _ =>
    List.append_ne_nil_of_left_ne_nil hgreeting _
  have hinputs : inputs configuration files = .ok (.coverage, true) := by decide +kernel
  cases hrun : (orchestrate configuration refusingRunner Path.selfName).runIn { files } with
  | mk result final =>
      obtain ⟨rfl, hcommands, hwritten⟩ := (ends_of_runIn_eq hrun).of_refusal hinputs
        (Stream.takes_of_limit_eq_none rfl _) (fun hfails => by cases hfails) rfl
      refine ⟨_, final, rfl, hcommands, ?_⟩
      rw [hwritten]
      apply List.append_ne_nil_of_right_ne_nil _ (hecho _)

end Proctor.Run
