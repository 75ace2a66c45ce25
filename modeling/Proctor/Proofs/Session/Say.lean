import Proctor.Proofs.Session.Laws

/-!
# Two lines and a flush

A session that writes two lines, with log records in between, and then flushes the stream can be
stopped at three points. Whatever happens, the stream has the bytes of the two lines as far as it
has room for them, and the files and the launched commands are as before.
-/

namespace Proctor

namespace Session

/-- Write a line, leave log records, write another line, and flush the stream. -/
def say (first : List Char) (records : List Record) (second : List Char) : Session Unit := do
  writeLine first
  logAll records
  writeLine second
  flush

/-- What comes of saying two lines in a world. -/
inductive Said (first : List Char) (records : List Record) (second : List Char) (world : World) :
    Except Failure Unit → World → Prop
  /-- There is no room for the first line. -/
  | firstCut (hfirst : ¬ world.stream.Takes (line first)) :
      Said first records second world (.error (.io .outputFull)) (world.wrote (line first))
  /-- There is room for the first line, but not for both. -/
  | secondCut (hfirst : world.stream.Takes (line first))
      (hboth : ¬ world.stream.Takes (line first ++ line second)) :
      Said first records second world (.error (.io .outputFull))
        (((world.wrote (line first)).logged records).wrote (line second))
  /-- The flush fails. -/
  | unflushed (hboth : world.stream.Takes (line first ++ line second))
      (hflush : world.stream.FlushFails) :
      Said first records second world (.error (.io .flushFailed))
        (((world.wrote (line first)).logged records).wrote (line second)).flushed
  | said (hboth : world.stream.Takes (line first ++ line second))
      (hflush : ¬ world.stream.FlushFails) :
      Said first records second world (.ok ())
        (((world.wrote (line first)).logged records).wrote (line second)).flushed

variable {first second : List Char} {records : List Record} {world after : World}
  {result : Except Failure Unit}

/-- Saying two lines comes to one of these. -/
theorem gives_say (first : List Char) (records : List Record) (second : List Char)
    (world : World) :
  Gives world (say first records second) (Said first records second world)
  := by
  simp only [Gives, say, runIn_bind, writeLine_eq_write]
  by_cases hfirst : world.stream.Takes (line first)
  · simp only [runIn_write_of_takes world hfirst, runIn_logAll]
    by_cases hsecond : ((world.wrote (line first)).logged records).stream.Takes (line second)
    · have hboth := (world.stream.takes_append _ _).mpr ⟨hfirst, hsecond⟩
      simp only [runIn_write_of_takes _ hsecond]
      by_cases hflush : (((world.wrote (line first)).logged records).wrote
          (line second)).stream.FlushFails
      · rw [runIn_flush_of_fails _ hflush]
        apply Said.unflushed hboth hflush
      · rw [runIn_flush_of_not_fails _ hflush]
        apply Said.said hboth hflush
    · simp only [runIn_write_of_not_takes _ hsecond]
      apply Said.secondCut hfirst
      intro hboth
      apply hsecond ((world.stream.takes_append _ _).mp hboth).2
  · simp only [runIn_write_of_not_takes world hfirst]
    apply Said.firstCut hfirst

namespace Said

theorem files (h : Said first records second world result after) :
  after.files = world.files
  := by cases h <;> rfl

/-- The two lines are said exactly when there is room for them and the flush does not fail. -/
theorem eq_ok_iff (h : Said first records second world result after) :
  result = .ok () ↔ world.stream.Takes (line first ++ line second) ∧ ¬ world.stream.FlushFails
  := by
  constructor
  · rintro rfl
    obtain _ | _ | _ | ⟨hboth, hflush⟩ := h
    use hboth, hflush
  · rintro ⟨htakes, hsucceeds⟩
    cases h with
    | firstCut hfirst => cases hfirst ((world.stream.takes_append _ _).mp htakes).1
    | secondCut hfirst hboth => cases hboth htakes
    | unflushed hboth hflush => cases hsucceeds hflush
    | said => rfl

/-- If the stream is full, then there was no room for the two lines. -/
theorem not_takes (h : Said first records second world (.error (.io .outputFull)) after) :
  ¬ world.stream.Takes (line first ++ line second)
  := by
  cases h with
  | firstCut hfirst =>
      intro hboth
      apply hfirst ((world.stream.takes_append _ _).mp hboth).1
  | secondCut hfirst hboth => apply hboth

/-- Only the stream stops someone from saying two lines. -/
theorem eq_io {failure : Failure}
    (h : Said first records second world (.error failure) after) :
  ∃ fault, failure = .io fault
  := by
  cases h with
  | firstCut => use .outputFull
  | secondCut => use .outputFull
  | unflushed => use .flushFailed

/-- After both lines the stream has them and was flushed once more. -/
theorem stream (h : Said first records second world (.ok ()) after) :
  after.stream = { world.stream with
    written := world.stream.written ++ (line first ++ line second)
    flushes := world.stream.flushes + 1 }
  := by
  obtain _ | _ | _ | ⟨hboth, hflush⟩ := h
  obtain ⟨hfirst, hsecond⟩ := (world.stream.takes_append _ _).mp hboth
  rw [World.stream_flushed, World.stream_wrote, World.stream_logged, World.stream_wrote,
    Stream.write_of_takes hsecond, Stream.write_of_takes hfirst, ← List.append_assoc]
  rfl

/-- The actions of saying two lines for which there is room. -/
theorem actions_of_takes (hboth : world.stream.Takes (line first ++ line second)) :
  (((world.wrote (line first)).logged records).wrote (line second)).flushed.actions
    = world.actions ++ [.wrote (line first), .wrote (line second), .flushed]
  := by
  obtain ⟨hfirst, hsecond⟩ := (world.stream.takes_append _ _).mp hboth
  rw [Stream.Takes] at hfirst hsecond
  simp [hfirst, hsecond]

theorem actions (h : Said first records second world (.ok ()) after) :
  after.actions = world.actions ++ [.wrote (line first), .wrote (line second), .flushed]
  := by
  obtain _ | _ | _ | ⟨hboth, hflush⟩ := h
  apply actions_of_takes hboth

end Said

end Session

/-! ### Scripts -/

namespace Effect

/-- Whether an effect concerns the output stream. -/
def isSpeech : Effect → Bool
  | wrote _ => true
  | flushed => true
  | _ => false

theorem command?_of_isSpeech {effect : Effect} (h : effect.isSpeech) :
  effect.command? = none
  := by
  cases effect with
  | launched command => cases h
  | logged => rfl
  | wrote => rfl
  | flushed => rfl
  | packaging => rfl

/-- Some actions follow a script if they are a beginning of it, except that the last write may be
cut short. -/
inductive Follows : List Effect → List Effect → Prop
  | nil (script : List Effect) : Follows [] script
  | cut {bytes whole : Bytes} (h : bytes <+: whole) (script : List Effect) :
      Follows [.wrote bytes] (.wrote whole :: script)
  | cons (effect : Effect) {actions script : List Effect} (h : Follows actions script) :
      Follows (effect :: actions) (effect :: script)

namespace Follows

variable {actions script : List Effect}

/-- Actions follow a script if they follow a beginning of it. -/
theorem append_right (h : Follows actions script) (rest : List Effect) :
  Follows actions (script ++ rest)
  := by
  induction h with
  | nil script => apply nil
  | cut h script => apply cut h
  | cons effect _ ih => apply cons effect ih

theorem append_left (h : Follows actions script) (before : List Effect) :
  Follows (before ++ actions) (before ++ script)
  := by
  induction before with
  | nil => apply h
  | cons effect before ih => apply cons effect ih

theorem refl (script : List Effect) :
  Follows script script
  := by
  rw [← List.append_nil script]
  apply append_left (nil _)

/-- Actions that follow a script for the stream concern the stream. -/
theorem isSpeech (h : Follows actions script) (hscript : ∀ effect ∈ script, effect.isSpeech) :
  ∀ effect ∈ actions, effect.isSpeech
  := by
  induction h with
  | nil script => simp
  | cut h script => simp [Effect.isSpeech]
  | cons effect _ ih =>
      rw [List.forall_mem_cons] at hscript ⊢
      use hscript.1, ih hscript.2

end Follows

end Effect

/-- The actions of saying two lines follow a script. -/
theorem Session.Said.follows {first second : List Char} {records : List Record}
    {world after : World} {result : Except Failure Unit}
    (h : Said first records second world result after) :
  ∃ actions, after.actions = world.actions ++ actions
    ∧ Effect.Follows actions [.wrote (line first), .wrote (line second), .flushed]
  := by
  cases h with
  | firstCut hfirst =>
      use [.wrote (world.stream.accepted (line first))], World.actions_wrote ..
      apply Effect.Follows.cut (world.stream.accepted_prefix _)
  | secondCut hfirst hboth =>
      rw [Stream.Takes] at hfirst
      simp only [World.actions_wrote, World.actions_logged, List.append_assoc, hfirst]
      refine ⟨_, rfl, ?_⟩
      apply Effect.Follows.cons
      apply Effect.Follows.cut (Stream.accepted_prefix ..)
  | unflushed hboth hflush =>
      refine ⟨_, actions_of_takes hboth, ?_⟩
      apply Effect.Follows.refl
  | said hboth hflush =>
      refine ⟨_, actions_of_takes hboth, ?_⟩
      apply Effect.Follows.refl

end Proctor
