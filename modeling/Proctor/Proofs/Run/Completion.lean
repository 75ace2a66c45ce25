import Proctor.Proofs.Run.Effects
import Proctor.Proofs.Sequence
import Proctor.Proofs.Text.Encoding

/-!
# Complete runs

What a complete run has written, launched and reported, in terms of the files that it began with and
of the answer of the runner.
-/

namespace Proctor.Run

open Session (line)

/-- A line ends in the byte of a line feed. -/
theorem line_eq (text : List Char) :
  line text = Utf8.encode text ++ [0x0A]
  := by
  rw [line, Utf8.encode_append]
  rfl

/-- No verdict contains a line feed. -/
theorem lineFeed_notMem_encode (verdict : Verdict) :
  0x0A ∉ Utf8.encode verdict.text.toList
  := by
  cases verdict <;> decide

/-- The last line of something is what stands between the last two line feeds. -/
theorem splitOn_line_verdict (before : Bytes) (verdict : Verdict) :
  Sequence.splitOn 0x0A (before ++ [0x0A] ++ line verdict.text.toList)
    = Sequence.splitOn 0x0A before ++ [Utf8.encode verdict.text.toList, []]
  := by
  rw [line_eq, List.append_assoc, List.singleton_append, Sequence.splitOn_append,
    Sequence.splitOn_append, Sequence.splitOn_of_not_mem _ (lineFeed_notMem_encode verdict),
    Sequence.splitOn_of_not_mem _ List.not_mem_nil]
  rfl

theorem line_append_line (first label second third fourth : List Char) :
  (line first ++ line (label ++ second)) ++ (line third ++ line fourth)
    = Utf8.encode (first ++ ['\n'] ++ label ++ second ++ ['\n'] ++ third ++ ['\n'] ++ fourth
        ++ ['\n'])
  := by simp only [line, Utf8.encode_append, List.append_assoc]

/-- The bytes of a complete run as one text. -/
theorem echo_append_answer (command : Command) (category : Category) (output : Output) :
  echo command ++ answer category output
    = Utf8.encode ("Verifying with ESBMC".toList ++ ['\n'] ++ "Command: ".toList
        ++ command.display.toList ++ ['\n'] ++ Utf8.lossy output.bytes ++ ['\n']
        ++ (verdictOn category output).text.toList ++ ['\n'])
  := line_append_line greeting.toList "Command: ".toList command.display.toList output.text _

/-- The bytes of a complete run end in the verdict. -/
theorem append_answer_eq (before : Bytes) (category : Category) (output : Output) :
  before ++ answer category output
    = before ++ Utf8.encode output.text ++ [0x0A] ++ line (verdictOn category output).text.toList
  := by
  rw [answer, line_eq output.text]
  simp only [List.append_assoc]

/-- A complete run has written the announcement of its command, the output and the verdict, which is
the last line. The category and the result of the scan are those of the files that it began with,
the command follows from them and is the one that was launched, the code is that of the output, and
the run went through all states. -/
theorem orchestrate_completed (configuration : Configuration) (runner : Runner) (directory : Path)
    (world final : World) (report : Report)
    (h : (orchestrate configuration runner directory).runIn world
      = (.ok (.completed report), final)) :
  Finds configuration world.files report.category report.concurrent
    ∧ report.command = configuration.command report.category report.concurrent
    ∧ final.commands = world.commands ++ [report.command]
    ∧ report.verdict = report.code.verdict
    ∧ report.states = State.all
    ∧ ∃ output : Output, (runner report.command world.files).result = .ok (.completed output)
      ∧ report.code = (classify (Utf8.lossy output.bytes) report.category).1
      ∧ final.stream.written = world.stream.written ++ Utf8.encode
          ("Verifying with ESBMC".toList ++ ['\n'] ++ "Command: ".toList
            ++ report.command.display.toList ++ ['\n'] ++ Utf8.lossy output.bytes ++ ['\n']
            ++ report.verdict.text.toList ++ ['\n'])
      ∧ ∃ lines, Sequence.splitOn 0x0A final.stream.written
          = lines ++ [Utf8.encode report.verdict.text.toList, []]
  := by
  have hcommands := (ends_of_runIn_eq h).commands
  obtain ⟨category, concurrent, output, after, reported, hinputs, hsaid, hresult, hreported, rfl,
    rfl⟩ := (ends_of_runIn_eq h).of_completed
  rw [Ends.launch?_of_announced hinputs hsaid] at hcommands
  have hwritten : (concluded directory reported).stream.written
      = world.stream.written ++ echo (configuration.command category concurrent)
        ++ answer category output := by
    rw [stream_concluded, hreported.stream, hsaid.stream]
  refine ⟨(inputs_eq_ok_iff ..).mp hinputs, rfl, hcommands, rfl, rfl, output, hresult, rfl, ?_, ?_⟩
  · apply Eq.trans hwritten
    rw [List.append_assoc, echo_append_answer]
    rfl
  · rw [hwritten, append_answer_eq]
    exact ⟨_, splitOn_line_verdict _ _⟩

/-- On a stream that never fails, a run whose files can be used and whose runner completes the
command is complete. -/
theorem orchestrate_of_reliable (configuration : Configuration) (runner : Runner)
    (directory : Path) (world : World) {category : Category} {concurrent : Bool} {output : Output}
    (hreliable : world.stream.Reliable)
    (hinputs : inputs configuration world.files = .ok (category, concurrent))
    (hresult : (runner (configuration.command category concurrent) world.files).result
      = .ok (.completed output)) :
  ∃ package final, (orchestrate configuration runner directory).runIn world
    = (.ok (.completed ((prepared configuration category concurrent).report output package)), final)
  := by
  cases hrun : (orchestrate configuration runner directory).runIn world with
  | mk result final =>
      have hends := ends_of_runIn_eq hrun
      have hflush : world.stream.failingFlush ≠ some (world.stream.flushes + 2) := by
        rw [hreliable.2]
        intro hfails
        cases hfails
      have hcompleted : isCompleted result := hends.isCompleted_iff.mpr
        ⟨_, _, _, hinputs, hresult, Stream.takes_of_limit_eq_none hreliable.1 _,
          hreliable.not_flushFails, hflush⟩
      obtain _ | _ | report := result <;> try cases hcompleted
      obtain ⟨category', concurrent', output', _, reported, hinputs', -, hresult', -, rfl, -⟩ :=
        hends.of_completed
      cases hinputs'.symm.trans hinputs
      cases hresult'.symm.trans hresult
      exact ⟨_, _, rfl⟩

/-! ### A concurrent benchmark that fails -/

namespace Sample

/-- The bytes of an output that are not text. -/
def output : Output :=
  .ofStreams (Bytes.ofString "VERIFICATION FAILED") [0xFF]

/-- A runner that removes the two files. -/
def runner : Runner := fun _ _ =>
  { result := .ok (.completed output), files := .empty [] }

/-- A directory that does not exist. -/
def directory : Path :=
  Bytes.ofString "missing"

end Sample

open Sample in
/-- The run on these files is complete although the runner removes them. -/
theorem orchestrate_completed_sample :
  ∃ report final,
    (orchestrate configuration runner directory).runIn { files }
      = (.ok (.completed report), final)
    ∧ Finds configuration files .coverage true
    ∧ final.commands = [report.command]
    ∧ ∃ lines, Sequence.splitOn 0x0A final.stream.written
        = lines ++ [Utf8.encode "FALSE_REACH".toList, []]
  := by
  have hinputs : inputs configuration files = .ok (.coverage, true) := by decide +kernel
  obtain ⟨package, final, hrun⟩ :=
    orchestrate_of_reliable configuration runner directory { files } ⟨rfl, rfl⟩ hinputs rfl
  obtain ⟨hfinds, -, hcommands, -, -, _, -, -, -, hlines⟩ :=
    orchestrate_completed configuration runner directory { files } _ _ hrun
  have hverdict : ((prepared configuration .coverage true).report output package).verdict
      = .falseReach := by
    change verdictOn .coverage output = .falseReach
    decide +kernel
  rw [hverdict] at hlines
  exact ⟨_, final, hrun, hfinds, hcommands, hlines⟩

end Proctor.Run
