import Proctor.Proofs.Command
import Proctor.Proofs.Run.Completion

/-!
# What a run writes

On a stream that never fails, what a run writes is fixed by its two files and by the answer of the
runner. It is text whatever bytes the paths and the output consist of, because every piece is read
as text before it is written. If the pieces are text already, then they are written as they are.
-/

namespace Proctor

namespace Run

open Session (line)

/-! ### The bytes of a run -/

/-- What a run writes to a stream that never fails. -/
def transcript (configuration : Configuration) (runner : Runner) (files : FileSystem) : Bytes :=
  match inputs configuration files with
  | .error _ => []
  | .ok (category, concurrent) =>
    let command := configuration.command category concurrent
    echo command ++ match (runner command files).result with
      | .ok (.completed output) => answer category output
      | _ => []

section Transcript

variable {configuration : Configuration} {runner : Runner} {directory : Path} {world final : World}
  {result : Except Failure Outcome}

theorem transcript_of_inputs {files : FileSystem} {category : Category} {concurrent : Bool}
    (h : inputs configuration files = .ok (category, concurrent)) :
  transcript configuration runner files
    = echo (configuration.command category concurrent)
      ++ match (runner (configuration.command category concurrent) files).result with
        | .ok (.completed output) => answer category output
        | _ => []
  := by rw [transcript, h]

theorem Ends.written_eq (h : Ends configuration runner directory world result final)
    (hreliable : world.stream.Reliable) :
  final.stream.written = world.stream.written ++ transcript configuration runner world.files
  := by
  have htakes := Stream.takes_of_limit_eq_none hreliable.1
  have hflush := hreliable.not_flushFails
  cases h with
  | unprepared hinputs =>
      rw [World.stream_logged, transcript, hinputs, List.append_nil]
  | unannounced hinputs hsaid => cases hsaid.eq_ok_iff.mpr ⟨htakes _, hflush⟩
  | refused hinputs hsaid hresult =>
      rw [World.stream_launched, hsaid.stream, transcript_of_inputs hinputs, hresult,
        List.append_nil]
  | dryRun hinputs hsaid hresult =>
      rw [World.stream_launched, hsaid.stream, transcript_of_inputs hinputs, hresult,
        List.append_nil]
  | unreported hinputs hsaid hresult hreported =>
      have hsecond : world.stream.failingFlush ≠ some (world.stream.flushes + 2) := by
        rw [hreliable.2]
        intro hfails
        cases hfails
      cases hreported.eq_ok_iff.mpr ((answered_iff hsaid _).mpr ⟨htakes _, hsecond⟩)
  | completed hinputs hsaid hresult hreported =>
      rw [stream_concluded, hreported.stream, hsaid.stream, transcript_of_inputs hinputs, hresult,
        List.append_assoc]

end Transcript

/-- Whatever a run writes is text. -/
theorem isValid_transcript (configuration : Configuration) (runner : Runner) (files : FileSystem) :
  Utf8.isValid (transcript configuration runner files)
  := by
  have hline (text : List Char) : Utf8.isValid (line text) := Utf8.isValid_encode _
  rw [transcript]
  split
  · rfl
  · apply Utf8.isValid_append
    · apply Utf8.isValid_append (hline _) (hline _)
    · split
      · apply Utf8.isValid_append (hline _) (hline _)
      · rfl

/-- The two lines that announce a command, with its parts as they are. -/
def plainEcho (command : Command) : Bytes :=
  Bytes.ofString "Verifying with ESBMC\nCommand: " ++ command.bytes ++ [0x0A]

theorem echo_eq_plainEcho {command : Command} (hprogram : Utf8.isValid command.program)
    (harguments : ∀ argument ∈ command.arguments, Utf8.isValid argument) :
  echo command = plainEcho command
  := by
  have hgreeting : line greeting.toList ++ Utf8.encode "Command: ".toList
      = Bytes.ofString "Verifying with ESBMC\nCommand: " := by decide +kernel
  have hcommand : commandLine command = "Command: ".toList ++ command.display.toList := rfl
  rw [echo, line_eq (commandLine command), hcommand, Utf8.encode_append,
    Command.encode_display hprogram harguments, plainEcho, ← hgreeting, List.append_assoc,
    List.append_assoc, List.append_assoc]

/-- The lines that repeat an output with the verdict on it, with the output as it is. -/
def plainAnswer (output : Bytes) (verdict : Verdict) : Bytes :=
  output ++ [0x0A] ++ Bytes.ofString verdict.text ++ [0x0A]

theorem answer_eq_plainAnswer {category : Category} {output : Output}
    (h : Utf8.isValid output.bytes) :
  answer category output = plainAnswer output.bytes (verdictOn category output)
  := by
  rw [answer, line_eq, line_eq, Output.text, Utf8.encode_lossy h, plainAnswer, List.append_assoc,
    List.append_assoc, List.append_assoc]
  rfl

/-- On a stream that never fails, whatever a run writes is text. A run whose files cannot be used
writes nothing. If the paths of the verifier and of the benchmark are text, then any other run
writes its command as it is, and if the run completes with an output that is text, then also the
output as it is, with the verdict on it. -/
theorem orchestrate_text (configuration : Configuration) (runner : Runner) (directory : Path)
    (world : World) (hreliable : world.stream.Reliable) :
  ∃ result final written, (orchestrate configuration runner directory).runIn world = (result, final)
    ∧ final.stream.written = world.stream.written ++ written
    ∧ Utf8.isValid written
    ∧ ((∀ category concurrent, ¬ Finds configuration world.files category concurrent)
        → written = [])
    ∧ (Utf8.isValid configuration.settings.verifier → Utf8.isValid configuration.benchmark →
        ∀ category concurrent, Finds configuration world.files category concurrent →
        (∀ output, (runner (configuration.command category concurrent) world.files).result
              = .ok (.completed output) →
            ∃ report, result = .ok (.completed report)
              ∧ (Utf8.isValid output.bytes →
                written = plainEcho (configuration.command category concurrent)
                  ++ plainAnswer output.bytes report.verdict))
        ∧ ((∀ output, (runner (configuration.command category concurrent) world.files).result
              ≠ .ok (.completed output)) →
            isCompleted result = false
              ∧ written = plainEcho (configuration.command category concurrent)))
  := by
  cases hrun : (orchestrate configuration runner directory).runIn world with
  | mk result final =>
      have hends := ends_of_runIn_eq hrun
      refine ⟨result, final, transcript configuration runner world.files, rfl,
        hends.written_eq hreliable, isValid_transcript .., ?_, ?_⟩
      · intro hunusable
        cases hinputs : inputs configuration world.files with
        | error failure => rw [transcript, hinputs]
        | ok found => cases hunusable _ _ ((inputs_eq_ok_iff ..).mp hinputs)
      intro hverifier hbenchmark category concurrent hfinds
      have hinputs := (inputs_eq_ok_iff ..).mpr hfinds
      have hecho : echo (configuration.command category concurrent)
          = plainEcho (configuration.command category concurrent) :=
        echo_eq_plainEcho hverifier (Policy.isValid_of_mem_arguments hbenchmark)
      rw [transcript_of_inputs hinputs, hecho]
      constructor
      · intro output hresult
        obtain ⟨package, final', hrun'⟩ :=
          orchestrate_of_reliable configuration runner directory world hreliable hinputs hresult
        cases hrun.symm.trans hrun'
        refine ⟨_, rfl, ?_⟩
        intro houtput
        simp only [hresult, answer_eq_plainAnswer houtput]
        rfl
      · intro hincomplete
        constructor
        · rw [Bool.eq_false_iff]
          intro hcompleted
          obtain ⟨_, _, output, hinputs', hresult, -⟩ := hends.isCompleted_iff.mp hcompleted
          cases hinputs'.symm.trans hinputs
          apply hincomplete output hresult
        · split
          · next output hresult => cases hincomplete output hresult
          · apply List.append_nil

namespace Sample

/-- A runner whose output is text although neither of its two parts is. -/
def seamRunner : Runner := fun _ files =>
  { result := .ok (.completed (.ofStreams [0xC3] [0xA9])), files }

end Sample

open Sample in
/-- A letter that begins in one part of the output and ends in the other is written as it is. -/
theorem orchestrate_text_seam :
  ∃ report final,
    (orchestrate configuration seamRunner directory).runIn { files }
      = (.ok (.completed report), final)
    ∧ final.stream.written = plainEcho (configuration.command .coverage true)
        ++ plainAnswer [0xC3, 0xA9] report.verdict
  := by
  have hinputs : inputs configuration files = .ok (.coverage, true) := by decide +kernel
  obtain ⟨result, final, written, hrun, hwritten, -, -, hplain⟩ :=
    orchestrate_text configuration seamRunner directory { files } ⟨rfl, rfl⟩
  obtain ⟨report, rfl, htext⟩ :=
    (hplain (by decide) (by decide) _ _ ((inputs_eq_ok_iff ..).mp hinputs)).1 _ rfl
  use report, final, hrun
  rw [hwritten, htext (by decide)]
  rfl

end Run

end Proctor
