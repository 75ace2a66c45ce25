import Proctor.Proofs.Session.Say

/-!
# Sessions that differ in log records

Two worlds are alike if they differ at most in log records. Two sessions are alike if from alike
worlds they come to the same failure or to related results, and leave alike worlds. Alike sessions
can be put one after the other, so that what is only logged does not come to influence anything
else.
-/

namespace Proctor

/-- Two worlds that differ at most in log records. -/
structure World.Alike (world other : World) : Prop where
  files : world.files = other.files
  stream : world.stream = other.stream
  actions : world.actions = other.actions

namespace World.Alike

variable {world other : World}

theorem refl (world : World) :
  world.Alike world
  := ⟨rfl, rfl, rfl⟩

theorem commands (h : world.Alike other) :
  world.commands = other.commands
  := by rw [commands_eq_filterMap_actions, commands_eq_filterMap_actions, h.actions]

theorem logged (h : world.Alike other) (records more : List Record) :
  (world.logged records).Alike (other.logged more)
  := by
  constructor
  · apply h.files
  · apply h.stream
  · rw [actions_logged, actions_logged, h.actions]

theorem wrote (h : world.Alike other) (bytes : Bytes) :
  (world.wrote bytes).Alike (other.wrote bytes)
  := by
  constructor
  · apply h.files
  · rw [stream_wrote, stream_wrote, h.stream]
  · rw [actions_wrote, actions_wrote, h.actions, h.stream]

theorem flushed (h : world.Alike other) :
  world.flushed.Alike other.flushed
  := by
  constructor
  · apply h.files
  · rw [stream_flushed, stream_flushed, h.stream]
  · rw [actions_flushed, actions_flushed, h.actions]

end World.Alike

/-- Two runners that differ at most in the log records of their answers. -/
def Runner.Alike (runner other : Runner) : Prop :=
  ∀ command files, (runner command files).result = (other command files).result
    ∧ (runner command files).files = (other command files).files

theorem Runner.Alike.refl (runner : Runner) :
  Runner.Alike runner runner
  := fun _ _ => ⟨rfl, rfl⟩

theorem World.Alike.launched {world other : World} {runner runner' : Runner}
    (h : world.Alike other) (hrunner : Runner.Alike runner runner') (command : Command) :
  (world.launched runner command).Alike (other.launched runner' command)
  := by
  constructor
  · rw [files_launched, files_launched, h.files]
    apply (hrunner command other.files).2
  · apply h.stream
  · rw [actions_launched, actions_launched, h.actions]

namespace Session

variable {α α' β β' : Type} {same : α → α' → Prop}

/-- The same failure, or related values. -/
inductive SameResult (same : α → α' → Prop) : Except Failure α → Except Failure α' → Prop
  | error (failure : Failure) : SameResult same (.error failure) (.error failure)
  | ok {a : α} {a' : α'} (h : same a a') : SameResult same (.ok a) (.ok a')

theorem SameResult.refl (result : Except Failure α) :
  SameResult Eq result result
  := by
  cases result with
  | error failure => apply error
  | ok a => apply ok rfl

theorem SameResult.eq {result other : Except Failure α} (h : SameResult Eq result other) :
  result = other
  := by
  cases h with
  | error failure => rfl
  | ok h => rw [h]

/-- Two sessions are alike if from alike worlds they come to the same failure or to related results,
and leave alike worlds. -/
def Alike (same : α → α' → Prop) (session : Session α) (other : Session α') : Prop :=
  ∀ world world' : World, world.Alike world' →
    SameResult same (session.runIn world).1 (other.runIn world').1
    ∧ (session.runIn world).2.Alike (other.runIn world').2

theorem alike_pure {a : α} {a' : α'} (h : same a a') :
  Alike same (pure a) (pure a')
  := fun _ _ hworld => ⟨.ok h, hworld⟩

/-- What is logged does not matter. -/
theorem alike_logAll (records more : List Record) :
  Alike Eq (logAll records) (logAll more)
  := by
  intro world world' h
  rw [runIn_logAll, runIn_logAll]
  exact ⟨.refl _, h.logged records more⟩

theorem alike_write (bytes : Bytes) :
  Alike Eq (write bytes) (write bytes)
  := by
  intro world world' h
  by_cases htakes : world.stream.Takes bytes
  · have htakes' := h.stream ▸ htakes
    rw [runIn_write_of_takes _ htakes, runIn_write_of_takes _ htakes']
    exact ⟨.refl _, h.wrote bytes⟩
  · have htakes' := h.stream ▸ htakes
    rw [runIn_write_of_not_takes _ htakes, runIn_write_of_not_takes _ htakes']
    exact ⟨.refl _, h.wrote bytes⟩

theorem alike_flush :
  Alike Eq flush flush
  := by
  intro world world' h
  by_cases hfails : world.stream.FlushFails
  · have hfails' := h.stream ▸ hfails
    rw [runIn_flush_of_fails _ hfails, runIn_flush_of_fails _ hfails']
    exact ⟨.refl _, h.flushed⟩
  · have hfails' := h.stream ▸ hfails
    rw [runIn_flush_of_not_fails _ hfails, runIn_flush_of_not_fails _ hfails']
    exact ⟨.refl _, h.flushed⟩

theorem alike_launch {runner runner' : Runner} (hrunner : Runner.Alike runner runner')
    (command : Command) :
  Alike Eq (launch runner command) (launch runner' command)
  := by
  intro world world' h
  rw [runIn_launch, runIn_launch, h.files, (hrunner command world'.files).1]
  exact ⟨.refl _, h.launched hrunner command⟩

/-- Alike sessions can be put one after the other. -/
theorem Alike.bind {same' : β → β' → Prop} {session : Session α} {other : Session α'}
    {next : α → Session β} {next' : α' → Session β'} (h : Alike same session other)
    (hnext : ∀ a a', same a a' → Alike same' (next a) (next' a')) :
  Alike same' (session >>= next) (other >>= next')
  := by
  intro world world' hworld
  obtain ⟨hresult, hafter⟩ := h world world' hworld
  rw [runIn_bind, runIn_bind]
  revert hresult hafter
  generalize session.runIn world = run, other.runIn world' = run'
  obtain ⟨result, after⟩ := run
  obtain ⟨result', after'⟩ := run'
  intro hresult hafter
  cases hresult with
  | error failure => exact ⟨.error failure, hafter⟩
  | ok hsame => apply hnext _ _ hsame _ _ hafter

/-- If the first session gives equal results, it is enough to look at one of them. -/
theorem Alike.bind_eq {same' : β → β' → Prop} {session other : Session α}
    {next : α → Session β} {next' : α → Session β'} (h : Alike Eq session other)
    (hnext : ∀ a, Alike same' (next a) (next' a)) :
  Alike same' (session >>= next) (other >>= next')
  := by
  apply h.bind
  rintro a _ rfl
  apply hnext a

/-- Saying two lines is alike whatever is logged in between. -/
theorem alike_say (first : List Char) (records more : List Record) (second : List Char) :
  Alike Eq (say first records second) (say first more second)
  := by
  apply (alike_write _).bind_eq
  intro _
  apply (alike_logAll records more).bind_eq
  intro _
  apply (alike_write _).bind_eq
  intro _
  apply alike_flush

end Session

end Proctor
