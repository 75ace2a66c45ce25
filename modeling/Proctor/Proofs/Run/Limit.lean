import Proctor.Proofs.Run.Effects
import Proctor.Proofs.Session.Limit

/-!
# Runs on a limited stream

A run on a stream that takes `n` bytes is compared with the same run on a stream without a limit.
-/

namespace Proctor.Run

/-- A run is cut short where the stream is full. -/
theorem cuttable_orchestrate (configuration : Configuration) (runner : Runner) (directory : Path)
    (n : Nat) :
  Session.Cuttable n (orchestrate configuration runner directory)
  := by
  have hprepare : Session.Cuttable n (prepare configuration) :=
    Session.Cuttable.of_runIn_eq (preparation configuration)
      (fun world => world.logged (preparationRecords configuration world.files))
      (runIn_prepare · configuration) (fun _ => rfl) (fun _ => rfl)
  have hpack : Session.Cuttable n (packEvidence directory) :=
    Session.Cuttable.of_runIn_eq (fun files => .ok (Evidence.packed? directory files))
      (packed directory) (runIn_packEvidence directory) (fun _ => rfl) (fun _ => rfl)
  rw [orchestrate_eq]
  apply Session.Cuttable.bind hprepare
  intro run
  apply Session.Cuttable.bind (Session.cuttable_say _ _ _)
  intro _
  apply Session.Cuttable.bind (Session.cuttable_launch _ _)
  intro execution
  cases execution with
  | dryRun => apply Session.cuttable_pure
  | completed output =>
      apply Session.Cuttable.bind (Session.cuttable_say _ _ _)
      intro _
      apply Session.Cuttable.bind (Session.cuttable_logAll _)
      intro _
      apply Session.Cuttable.bind hpack
      intro package
      apply Session.Cuttable.bind (Session.cuttable_logAll _)
      intro _
      apply Session.cuttable_pure

namespace Ends

variable {configuration : Configuration} {runner : Runner} {directory : Path} {world final : World}
  {result : Except Failure Outcome}

/-- A run that wrote something could use its files. -/
theorem inputs_of_stream_ne (h : Ends configuration runner directory world result final)
    (hstream : final.stream ≠ world.stream) :
  ∃ category concurrent, inputs configuration world.files = .ok (category, concurrent)
  := by
  cases h with
  | unprepared => cases hstream rfl
  | unannounced hinputs => exact ⟨_, _, hinputs⟩
  | refused hinputs => exact ⟨_, _, hinputs⟩
  | dryRun hinputs => exact ⟨_, _, hinputs⟩
  | unreported hinputs => exact ⟨_, _, hinputs⟩
  | completed hinputs => exact ⟨_, _, hinputs⟩

/-- If a run fails because the stream is full, then its command was launched exactly when there was
room for the announcement. -/
theorem launch?_of_outputFull {category : Category} {concurrent : Bool}
    (h : Ends configuration runner directory world (.error (.io .outputFull)) final)
    (hinputs : inputs configuration world.files = .ok (category, concurrent)) :
  launch? configuration world
    = if world.stream.Takes (echo (configuration.command category concurrent)) then
        some (configuration.command category concurrent)
      else none
  := by
  have hflush (htakes : world.stream.Takes (echo (configuration.command category concurrent))) :
      ¬ world.stream.FlushFails := by
    cases h with
    | unprepared hinputs' => cases hinputs'.symm.trans hinputs
    | unannounced hinputs' hsaid =>
        cases hinputs'.symm.trans hinputs
        cases Session.Said.not_takes hsaid htakes
    | refused _ hsaid => apply (hsaid.eq_ok_iff.mp rfl).2
    | unreported _ hsaid => apply (hsaid.eq_ok_iff.mp rfl).2
  rw [launch?, hinputs]
  simp only [and_iff_left_of_imp hflush]

end Ends

/-- The run that `n` bytes of output allow writes the first `n` bytes that the same run writes to a
stream without a limit. If these are all bytes, then it is the same run; otherwise it fails because
the stream is full, the evidence is not packed, and the command was launched exactly when there was
room for its announcement. -/
theorem orchestrate_limited (configuration : Configuration) (runner : Runner) (directory : Path)
    (files : FileSystem) (failingFlush : Option Nat) (n : Nat) :
  ∃ result final result' final',
    (orchestrate configuration runner directory).runIn { files, stream := { failingFlush } }
      = (result, final)
    ∧ (orchestrate configuration runner directory).runIn
        { files, stream := { limit := some n, failingFlush } } = (result', final')
    ∧ final'.stream.written = final.stream.written.take n
    ∧ (final.stream.written.length ≤ n → result' = result ∧ final'.commands = final.commands
      ∧ final'.files = final.files)
    ∧ (n < final.stream.written.length → result' = .error (.io .outputFull)
      ∧ (∀ other, .packaging other ∉ final'.trace)
      ∧ ∃ category concurrent, Finds configuration files category concurrent
        ∧ final'.commands = if (echo (configuration.command category concurrent)).length ≤ n then
            [configuration.command category concurrent]
          else [])
  := by
  have hcut := cuttable_orchestrate configuration runner directory n
    { files, stream := { failingFlush } } rfl
  have hlimited : World.limited { files, stream := { failingFlush } } n
      = { files, stream := { limit := some n, failingFlush } } := rfl
  rw [hlimited] at hcut
  cases hfree : (orchestrate configuration runner directory).runIn
      { files, stream := { failingFlush } } with
  | mk result final =>
  cases hrun : (orchestrate configuration runner directory).runIn
      { files, stream := { limit := some n, failingFlush } } with
  | mk result' final' =>
  rw [hfree, hrun] at hcut
  refine ⟨result, final, result', final', rfl, rfl, ?_, ?_, ?_⟩
  · by_cases hle : final.stream.written.length ≤ n
    · cases hcut.within hle
      rw [List.take_of_length_le hle]
      rfl
    · apply (hcut.beyond (Nat.zero_le n) (Nat.lt_of_not_le hle)).2
  · intro hle
    cases hcut.within hle
    exact ⟨rfl, rfl, rfl⟩
  · intro hlt
    obtain ⟨hresult, -⟩ := hcut.beyond (Nat.zero_le n) hlt
    obtain rfl : result' = _ := hresult
    have hends := ends_of_runIn_eq hrun
    have hstream : final.stream ≠ { failingFlush } := by
      intro heq
      rw [heq] at hlt
      cases hlt
    obtain ⟨category, concurrent, hinputs⟩ := (ends_of_runIn_eq hfree).inputs_of_stream_ne hstream
    refine ⟨rfl, ?_, category, concurrent, (inputs_eq_ok_iff ..).mp hinputs, ?_⟩
    · intro other hmem
      rw [← World.mem_actions_iff rfl, hends.packaging_mem_iff] at hmem
      obtain hmem | ⟨-, hcompleted⟩ := hmem
      · cases hmem
      · cases hcompleted
    · have htakes : Stream.Takes { limit := some n, failingFlush }
          (echo (configuration.command category concurrent))
          ↔ (echo (configuration.command category concurrent)).length ≤ n :=
        Stream.takes_limited_iff { files, stream := { failingFlush } } n _
      rw [hends.commands, hends.launch?_of_outputFull hinputs]
      by_cases hle : (echo (configuration.command category concurrent)).length ≤ n
      · rw [if_pos (htakes.mpr hle), if_pos hle]
        rfl
      · rw [if_neg (mt htakes.mp hle), if_neg hle]
        rfl

end Proctor.Run
