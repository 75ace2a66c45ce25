import Proctor.Proofs.Session.Say

/-!
# Sessions on a limited stream

A session on a stream that takes `n` bytes does what it does on a stream without a limit, as long as
that is no more than `n` bytes; otherwise it fails, and the stream has the first `n` of these bytes.
Sessions of this kind are closed under sequencing.
-/

namespace Proctor

/-- The world in which the stream takes `n` bytes. -/
def World.limited (world : World) (n : Nat) : World :=
  { world with stream := { world.stream with limit := some n } }

theorem Stream.takes_limited_iff (world : World) (n : Nat) (bytes : Bytes) :
  (world.limited n).stream.Takes bytes ↔ bytes.length ≤ n - world.stream.written.length
  := by
  rw [takes_iff]
  constructor
  · intro h
    apply h n rfl
  · rintro h limit hlimit
    obtain rfl := Option.some.inj hlimit
    apply h

theorem World.wrote_limited {world : World} {n : Nat} {bytes : Bytes}
    (htakes : world.stream.Takes bytes) (hlimited : (world.limited n).stream.Takes bytes) :
  (world.limited n).wrote bytes = (world.wrote bytes).limited n
  := by
  rw [wrote, wrote, Stream.write_of_takes htakes, Stream.write_of_takes hlimited]
  rw [Stream.Takes] at htakes hlimited
  rw [htakes, hlimited]
  rfl

namespace Session

variable {α β : Type} {n : Nat}

/-- A run on a limited stream, cut short where the stream is full, beside the free run from the same
world. -/
structure CutShort (n : Nat) (world : World) (free cut : Except Failure α × World) : Prop where
  limit : free.2.stream.limit = none
  grows : world.stream.written <+: free.2.stream.written
  within : free.2.stream.written.length ≤ n → cut = (free.1, free.2.limited n)
  beyond : world.stream.written.length ≤ n → n < free.2.stream.written.length →
    cut.1 = .error (.io .outputFull) ∧ cut.2.stream.written = free.2.stream.written.take n

/-- A session that is cut short by a stream that takes `n` bytes. -/
def Cuttable (n : Nat) (session : Session α) : Prop :=
  ∀ world : World, world.stream.limit = none →
    CutShort n world (session.runIn world) (session.runIn (world.limited n))

/-- A run that writes nothing is not cut short. -/
theorem CutShort.of_written_eq {world after : World} (result : Except Failure α)
    (hlimit : after.stream.limit = none) (hwritten : after.stream.written = world.stream.written) :
  CutShort n world (result, after) (result, after.limited n)
  := by
  constructor
  · apply hlimit
  · refine ⟨[], ?_⟩
    rw [List.append_nil, hwritten]
  · intro _
    rfl
  · intro hle hlt
    rw [hwritten] at hlt
    cases Nat.not_lt_of_le hle hlt

/-- A session that has nothing to do with the stream is not cut short. -/
theorem Cuttable.of_runIn_eq {session : Session α} (result : FileSystem → Except Failure α)
    (leave : World → World)
    (hrun : ∀ world, session.runIn world = (result world.files, leave world))
    (hstream : ∀ world, (leave world).stream = world.stream)
    (hlimited : ∀ world, leave (world.limited n) = (leave world).limited n) :
  Cuttable n session
  := by
  intro world hlimit
  rw [hrun, hrun, hlimited]
  apply CutShort.of_written_eq
  · rw [hstream, hlimit]
  · rw [hstream]

theorem cuttable_pure (a : α) :
  Cuttable n (pure a : Session α)
  := Cuttable.of_runIn_eq (fun _ => .ok a) id (fun _ => rfl) (fun _ => rfl) (fun _ => rfl)

theorem cuttable_logAll (records : List Record) :
  Cuttable n (logAll records)
  := Cuttable.of_runIn_eq (fun _ => .ok ()) (·.logged records) (runIn_logAll · records)
    (fun _ => rfl) (fun _ => rfl)

theorem cuttable_launch (runner : Runner) (command : Command) :
  Cuttable n (launch runner command)
  := Cuttable.of_runIn_eq (fun files => (runner command files).result) (·.launched runner command)
    (runIn_launch · runner command) (fun _ => rfl) (fun _ => rfl)

/-- Writing is cut short where the stream is full. -/
theorem cuttable_write (bytes : Bytes) :
  Cuttable n (write bytes)
  := by
  intro world hlimit
  have htakes := Stream.takes_of_limit_eq_none hlimit bytes
  have hwritten : (world.wrote bytes).stream.written = world.stream.written ++ bytes := by
    rw [World.stream_wrote, Stream.write_of_takes htakes]
  rw [runIn_write_of_takes world htakes]
  constructor
  · apply hlimit
  · rw [hwritten]
    apply List.prefix_append
  · intro hle
    rw [hwritten, List.length_append] at hle
    have hlimited : (world.limited n).stream.Takes bytes := by
      rw [Stream.takes_limited_iff]
      omega
    rw [runIn_write_of_takes _ hlimited, World.wrote_limited htakes hlimited]
  · intro hle hlt
    rw [hwritten, List.length_append] at hlt
    have hlimited : ¬ (world.limited n).stream.Takes bytes := by
      rw [Stream.takes_limited_iff]
      omega
    rw [runIn_write_of_not_takes _ hlimited, hwritten, List.take_append, List.take_of_length_le hle]
    exact ⟨rfl, rfl⟩

/-- Flushing is not cut short. -/
theorem cuttable_flush :
  Cuttable n flush
  := by
  intro world hlimit
  have hcut (result : Except Failure Unit) :
      CutShort n world (result, world.flushed) (result, (world.limited n).flushed) :=
    CutShort.of_written_eq result hlimit rfl
  by_cases hflush : world.stream.FlushFails
  · have hflush' : (world.limited n).stream.FlushFails := hflush
    rw [runIn_flush_of_fails _ hflush, runIn_flush_of_fails _ hflush']
    apply hcut
  · have hflush' : ¬ (world.limited n).stream.FlushFails := hflush
    rw [runIn_flush_of_not_fails _ hflush, runIn_flush_of_not_fails _ hflush']
    apply hcut

/-- Sessions that are cut short can be put one after the other. -/
theorem Cuttable.bind {session : Session α} {next : α → Session β} (h : Cuttable n session)
    (hnext : ∀ a, Cuttable n (next a)) :
  Cuttable n (session >>= next)
  := by
  intro world hlimit
  have hcut := h world hlimit
  rw [runIn_bind, runIn_bind]
  revert hcut
  generalize session.runIn world = free, session.runIn (world.limited n) = cut
  obtain ⟨result, after⟩ := free
  obtain ⟨result', after'⟩ := cut
  intro hcut
  cases result with
  | error failure =>
      constructor
      · apply hcut.limit
      · apply hcut.grows
      · intro hle
        cases hcut.within hle
        rfl
      · intro hle hlt
        obtain ⟨hresult, hwritten⟩ := hcut.beyond hle hlt
        obtain rfl : result' = _ := hresult
        use rfl, hwritten
  | ok a =>
      have hcut' := hnext a after hcut.limit
      constructor
      · apply hcut'.limit
      · apply hcut.grows.trans hcut'.grows
      · intro hle
        have hafter := Nat.le_trans hcut'.grows.length_le hle
        cases hcut.within hafter
        apply hcut'.within hle
      · intro hle hlt
        by_cases hafter : after.stream.written.length ≤ n
        · cases hcut.within hafter
          apply hcut'.beyond hafter hlt
        -- The stream is full before the second session begins.
        · have hlt' := Nat.lt_of_not_le hafter
          obtain ⟨hresult, hwritten⟩ := hcut.beyond hle hlt'
          obtain rfl : result' = _ := hresult
          obtain ⟨rest, hrest⟩ := hcut'.grows
          use rfl
          rw [← hrest, List.take_append_of_le_length (Nat.le_of_lt hlt')]
          apply hwritten

/-- Saying two lines is cut short where the stream is full. -/
theorem cuttable_say (first : List Char) (records : List Record) (second : List Char) :
  Cuttable n (say first records second)
  := by
  apply Cuttable.bind (cuttable_write _)
  intro _
  apply Cuttable.bind (cuttable_logAll _)
  intro _
  apply Cuttable.bind (cuttable_write _)
  intro _
  apply cuttable_flush

end Session

end Proctor
