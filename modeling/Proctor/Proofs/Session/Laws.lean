import Mathlib.Tactic.Use
import Proctor.Runner

/-!
# Laws of sessions

What each operation of a session does to the world, as an equation for running it. Writing, flushing
and launching become functions on worlds, and of each of them it is said once how it changes the
files, the stream, the commands that were launched, and the actions, which are the effects other
than log records.
-/

namespace Proctor

/-! ### Streams -/

namespace Stream

/-- A stream takes all of some bytes. -/
def Takes (stream : Stream) (bytes : Bytes) : Prop :=
  stream.accepted bytes = bytes

instance (stream : Stream) (bytes : Bytes) : Decidable (stream.Takes bytes) :=
  inferInstanceAs (Decidable (stream.accepted bytes = bytes))

/-- The next flush of a stream fails. -/
def FlushFails (stream : Stream) : Prop :=
  stream.failingFlush = some (stream.flushes + 1)

instance (stream : Stream) : Decidable stream.FlushFails :=
  inferInstanceAs (Decidable (stream.failingFlush = some (stream.flushes + 1)))

/-- A stream that never fails. -/
def Reliable (stream : Stream) : Prop :=
  stream.limit = none ∧ stream.failingFlush = none

theorem accepted_prefix (stream : Stream) (bytes : Bytes) :
  stream.accepted bytes <+: bytes
  := by
  rw [accepted]
  cases stream.limit with
  | none => apply List.prefix_refl
  | some limit => apply List.take_prefix

/-- A stream does not take some bytes exactly when it accepts fewer. -/
theorem not_takes_iff (stream : Stream) (bytes : Bytes) :
  ¬ stream.Takes bytes ↔ (stream.accepted bytes).length < bytes.length
  := by
  constructor
  · intro h
    apply Nat.lt_of_not_le
    intro hle
    apply h
    apply (stream.accepted_prefix bytes).eq_of_length_le hle
  · intro hlt h
    rw [Takes] at h
    rw [h] at hlt
    apply Nat.lt_irrefl _ hlt

/-- A stream takes some bytes exactly when its limit leaves room for them. -/
theorem takes_iff (stream : Stream) (bytes : Bytes) :
  stream.Takes bytes
    ↔ ∀ limit, stream.limit = some limit → bytes.length ≤ limit - stream.written.length
  := by
  rw [← Decidable.not_not (p := stream.Takes bytes), not_takes_iff, accepted]
  cases stream.limit with
  | none => simp
  | some limit =>
      simp only [List.length_take, Option.some.injEq, forall_eq']
      omega

theorem takes_of_limit_eq_none {stream : Stream} (h : stream.limit = none) (bytes : Bytes) :
  stream.Takes bytes
  := by
  rw [takes_iff, h]
  intro limit hlimit
  cases hlimit

theorem Reliable.not_flushFails {stream : Stream} (h : stream.Reliable) :
  ¬ stream.FlushFails
  := by
  rw [FlushFails, h.2]
  intro hflush
  cases hflush

/-- A stream that never fails takes everything, and its next flush succeeds. -/
theorem Reliable.takes_and_flushes {stream : Stream} (h : stream.Reliable) (bytes : Bytes) :
  stream.Takes bytes ∧ ¬ stream.FlushFails
  := ⟨takes_of_limit_eq_none h.1 bytes, h.not_flushFails⟩

theorem write_of_takes {stream : Stream} {bytes : Bytes} (h : stream.Takes bytes) :
  stream.write bytes = { stream with written := stream.written ++ bytes }
  := by
  rw [Takes] at h
  rw [write, h]

/-- A stream takes two pieces exactly when it takes one after the other. -/
theorem takes_append (stream : Stream) (first second : Bytes) :
  stream.Takes (first ++ second) ↔ stream.Takes first ∧ (stream.write first).Takes second
  := by
  constructor
  · intro h
    have hfirst : stream.Takes first := by
      rw [takes_iff] at h ⊢
      intro limit hlimit
      have hroom := h limit hlimit
      rw [List.length_append] at hroom
      omega
    use hfirst
    rw [write_of_takes hfirst]
    rw [takes_iff] at h ⊢
    intro limit hlimit
    have hroom := h limit hlimit
    rw [List.length_append] at hroom ⊢
    omega
  · rintro ⟨hfirst, hsecond⟩
    rw [write_of_takes hfirst] at hsecond
    rw [takes_iff] at hfirst hsecond ⊢
    intro limit hlimit
    have hroom := hfirst limit hlimit
    have hroom' := hsecond limit hlimit
    simp only [List.length_append] at hroom' ⊢
    omega

end Stream

/-! ### Worlds -/

/-- An effect that is more than a log record. -/
def Effect.isAction : Effect → Bool
  | logged _ => false
  | _ => true

/-- The command that an effect launches. -/
def Effect.command? : Effect → Option Command
  | launched command => some command
  | _ => none

namespace World

/-- The effects that are more than log records, in order. -/
def actions (world : World) : List Effect :=
  world.trace.filter Effect.isAction

/-- The world after some log records. -/
def logged (world : World) (records : List Record) : World :=
  { world with trace := world.trace ++ records.map .logged }

/-- The world after some bytes were written as far as there was room for them. -/
def wrote (world : World) (bytes : Bytes) : World :=
  { world with stream := world.stream.write bytes }.note (.wrote (world.stream.accepted bytes))

/-- The world after a flush. -/
def flushed (world : World) : World :=
  { world with stream := world.stream.flush }.note .flushed

/-- The world after a runner was given a command. -/
def launched (world : World) (runner : Runner) (command : Command) : World :=
  ({ world with files := (runner command world.files).files }.note (.launched command)).logged
    (runner command world.files).records

section Views

variable (world : World) (records : List Record) (bytes : Bytes) (effect : Effect)

@[simp] theorem files_note :
  (world.note effect).files = world.files
  := rfl

@[simp] theorem stream_note :
  (world.note effect).stream = world.stream
  := rfl

theorem actions_note :
  (world.note effect).actions = world.actions ++ [effect].filter Effect.isAction
  := List.filter_append ..

@[simp] theorem files_logged :
  (world.logged records).files = world.files
  := rfl

@[simp] theorem stream_logged :
  (world.logged records).stream = world.stream
  := rfl

@[simp] theorem actions_logged :
  (world.logged records).actions = world.actions
  := by
  simp [actions, logged, List.filter_map, Function.comp_def, Effect.isAction]

@[simp] theorem logged_nil :
  world.logged [] = world
  := by simp [logged]

theorem logged_logged (more : List Record) :
  (world.logged records).logged more = world.logged (records ++ more)
  := by simp [logged]

@[simp] theorem files_wrote :
  (world.wrote bytes).files = world.files
  := rfl

@[simp] theorem stream_wrote :
  (world.wrote bytes).stream = world.stream.write bytes
  := rfl

@[simp] theorem actions_wrote :
  (world.wrote bytes).actions = world.actions ++ [.wrote (world.stream.accepted bytes)]
  := actions_note ..

@[simp] theorem files_flushed :
  world.flushed.files = world.files
  := rfl

@[simp] theorem stream_flushed :
  world.flushed.stream = world.stream.flush
  := rfl

@[simp] theorem actions_flushed :
  world.flushed.actions = world.actions ++ [.flushed]
  := actions_note ..

variable (runner : Runner) (command : Command)

@[simp] theorem files_launched :
  (world.launched runner command).files = (runner command world.files).files
  := rfl

@[simp] theorem stream_launched :
  (world.launched runner command).stream = world.stream
  := rfl

@[simp] theorem actions_launched :
  (world.launched runner command).actions = world.actions ++ [.launched command]
  := by
  rw [launched, actions_logged, actions_note]
  rfl

end Views

/-- The commands that were launched are seen in the actions. -/
theorem commands_eq_filterMap_actions (world : World) :
  world.commands = world.actions.filterMap Effect.command?
  := by
  rw [commands, actions, List.filterMap_filter]
  congr
  funext effect
  cases effect with
  | logged => rfl
  | wrote => rfl
  | flushed => rfl
  | launched => rfl
  | packaging => rfl

section Commands

variable (world : World) (records : List Record) (bytes : Bytes)

@[simp] theorem commands_logged :
  (world.logged records).commands = world.commands
  := by simp [commands_eq_filterMap_actions]

@[simp] theorem commands_wrote :
  (world.wrote bytes).commands = world.commands
  := by simp [commands_eq_filterMap_actions, Effect.command?]

@[simp] theorem commands_flushed :
  world.flushed.commands = world.commands
  := by simp [commands_eq_filterMap_actions, Effect.command?]

@[simp] theorem commands_launched (runner : Runner) (command : Command) :
  (world.launched runner command).commands = world.commands ++ [command]
  := by simp [commands_eq_filterMap_actions, Effect.command?]

end Commands

theorem mem_actions_iff {world : World} {effect : Effect} (h : effect.isAction) :
  effect ∈ world.actions ↔ effect ∈ world.trace
  := by
  rw [actions, List.mem_filter]
  apply and_iff_left h

end World

/-! ### Running sessions -/

namespace Session

variable {α β : Type} (world : World)

theorem runIn_bind (session : Session α) (next : α → Session β) :
  (session >>= next).runIn world = match session.runIn world with
    | (.ok a, world) => (next a).runIn world
    | (.error failure, world) => (.error failure, world)
  := by
  simp only [runIn, ExceptT.run_bind, StateT.run_bind]
  obtain ⟨result, after⟩ := (ExceptT.run session).run world
  cases result with
  | ok a => rfl
  | error failure => rfl

theorem runIn_bind_pure (session : Session α) (f : α → β) :
  (session >>= fun a => pure (f a)).runIn world
    = ((session.runIn world).1.map f, (session.runIn world).2)
  := by
  rw [runIn_bind]
  cases session.runIn world with
  | mk result after =>
      cases result with
      | ok a => rfl
      | error failure => rfl

@[simp] theorem runIn_pure (a : α) :
  (pure a : Session α).runIn world = (.ok a, world)
  := rfl

@[simp] theorem runIn_throw (failure : Failure) :
  (throw failure : Session α).runIn world = (.error failure, world)
  := rfl

@[simp] theorem runIn_liftM (result : Except Failure α) :
  (liftM result : Session α).runIn world = (result, world)
  := rfl

@[simp] theorem runIn_change (f : World → World) :
  (change f).runIn world = (.ok (), f world)
  := rfl

@[simp] theorem runIn_getThe :
  (getThe World : Session World).runIn world = (.ok world, world)
  := rfl

@[simp] theorem runIn_files :
  files.runIn world = (.ok world.files, world)
  := rfl

@[simp] theorem runIn_attempt (session : Session α) :
  (attempt session).runIn world = (.ok (session.runIn world).1, (session.runIn world).2)
  := rfl

@[simp] theorem runIn_log (level : Level) (source : Source) (text : String) :
  (log level source text).runIn world = (.ok (), world.logged [⟨level, source, text⟩])
  := rfl

theorem log_eq_logAll (level : Level) (source : Source) (text : String) :
  log level source text = logAll [⟨level, source, text⟩]
  := rfl

theorem logAll_nil :
  logAll [] = pure ()
  := rfl

theorem logAll_cons (record : Record) (records : List Record) :
  logAll (record :: records) = (do change (·.note (.logged record)); logAll records)
  := rfl

theorem logAll_append (records more : List Record) :
  logAll (records ++ more) = (do logAll records; logAll more)
  := by
  induction records with
  | nil => rfl
  | cons record records ih => rw [List.cons_append, logAll_cons, ih, logAll_cons, bind_assoc]

@[simp] theorem runIn_logAll (records : List Record) :
  (logAll records).runIn world = (.ok (), world.logged records)
  := by
  induction records generalizing world with
  | nil =>
      rw [World.logged_nil]
      rfl
  | cons record records ih =>
      rw [logAll_cons, runIn_bind, runIn_change]
      apply Eq.trans (ih _)
      simp [World.logged, World.note]

theorem runIn_write_of_takes {bytes : Bytes} (h : world.stream.Takes bytes) :
  (write bytes).runIn world = (.ok (), world.wrote bytes)
  := by
  have hlength := mt (world.stream.not_takes_iff bytes).mpr (not_not_intro h)
  simp only [write, runIn_bind, runIn_getThe, runIn_change, if_neg hlength, runIn_pure]
  rfl

theorem runIn_write_of_not_takes {bytes : Bytes} (h : ¬ world.stream.Takes bytes) :
  (write bytes).runIn world = (.error (.io .outputFull), world.wrote bytes)
  := by
  have hlength := (world.stream.not_takes_iff bytes).mp h
  simp only [write, runIn_bind, runIn_getThe, runIn_change, if_pos hlength, runIn_throw]
  rfl

/-- The bytes of a line of text. -/
def line (text : List Char) : Bytes :=
  Utf8.encode (text ++ ['\n'])

theorem writeLine_eq_write (text : List Char) :
  writeLine text = write (line text)
  := rfl

theorem runIn_flush_of_fails (h : world.stream.FlushFails) :
  flush.runIn world = (.error (.io .flushFailed), world.flushed)
  := by
  have hflush : world.stream.flush.failingFlush = some world.stream.flush.flushes := h
  simp only [flush, runIn_bind, runIn_getThe, runIn_change, if_pos hflush, runIn_throw]
  rfl

theorem runIn_flush_of_not_fails (h : ¬ world.stream.FlushFails) :
  flush.runIn world = (.ok (), world.flushed)
  := by
  have hflush : world.stream.flush.failingFlush ≠ some world.stream.flush.flushes := h
  simp only [flush, runIn_bind, runIn_getThe, runIn_change, if_neg hflush, runIn_pure]
  rfl

@[simp] theorem runIn_launch (runner : Runner) (command : Command) :
  (launch runner command).runIn world
    = ((runner command world.files).result, world.launched runner command)
  := by
  simp only [launch, runIn_bind, runIn_files, runIn_change, runIn_logAll, runIn_liftM]
  rfl

/-! ### Postconditions -/

/-- A session gives a result and a world, run in a world, of which a postcondition holds. -/
def Gives (session : Session α) (post : Except Failure α → World → Prop) : Prop :=
  post (session.runIn world).1 (session.runIn world).2

variable {world} {post : Except Failure β → World → Prop}

theorem Gives.imp {session : Session β} {post' : Except Failure β → World → Prop}
    (h : Gives world session post) (himp : ∀ result after, post result after → post' result after) :
  Gives world session post'
  := himp _ _ h

/-- A sequence of two sessions is entered in the middle with what the first one gives. -/
theorem Gives.bind {session : Session α} {next : α → Session β}
    {middle : Except Failure α → World → Prop} (h : Gives world session middle)
    (herror : ∀ failure after, middle (.error failure) after → post (.error failure) after)
    (hok : ∀ a after, middle (.ok a) after → Gives after (next a) post) :
  Gives world (session >>= next) post
  := by
  rw [Gives] at h
  rw [Gives, runIn_bind]
  revert h
  obtain ⟨result, after⟩ := session.runIn world
  cases result with
  | error failure => apply herror
  | ok a => apply hok

theorem gives_bind_of_error {session : Session α} {next : α → Session β} {failure : Failure}
    {after : World} (h : session.runIn world = (.error failure, after))
    (hpost : post (.error failure) after) :
  Gives world (session >>= next) post
  := by
  rw [Gives, runIn_bind, h]
  apply hpost

theorem gives_bind_of_ok {session : Session α} {next : α → Session β} {a : α} {after : World}
    (h : session.runIn world = (.ok a, after)) (hnext : Gives after (next a) post) :
  Gives world (session >>= next) post
  := by
  rw [Gives, runIn_bind, h]
  apply hnext

end Session

end Proctor
