import Proctor.Evidence
import Proctor.Proofs.Session.Laws

/-!
# Silent sessions

A session is silent if it has nothing to do with the output stream: what it gives, what it does to
the files and which effects it has depends on the files alone, and is the same in every world with
these files. Silent sessions are closed under sequencing, so it is enough to look at their
operations. Packing evidence is silent once it has been noted, and its only effects are then log
records of its own.
-/

namespace Proctor

/-- The world after what happened in another world that began with the same files and without
effects. -/
def World.followed (world after : World) : World where
  files := after.files
  stream := world.stream
  trace := world.trace ++ after.trace

@[simp] theorem World.followed_files (world : World) :
  world.followed { files := world.files } = world
  := by simp [followed]

theorem World.followed_followed (first second third : World) :
  (first.followed second).followed third = first.followed (second.followed third)
  := by simp [followed]

namespace Session

variable {α β : Type} {allowed : Effect → Prop}

/-- A session run where there is nothing but files. -/
def alone (session : Session α) (files : FileSystem) : Except Failure α × World :=
  session.runIn { files }

/-- A session is silent if it depends on the files alone and leaves the stream as it is, and if its
effects are among the allowed ones. -/
structure Silent (allowed : Effect → Prop) (session : Session α) : Prop where
  runIn : ∀ world : World, session.runIn world
    = ((session.alone world.files).1, world.followed (session.alone world.files).2)
  allowed : ∀ files, ∀ effect ∈ (session.alone files).2.trace, allowed effect

/-- A session that does not touch the world is silent. -/
theorem Silent.of_runIn_eq {session : Session α} (result : FileSystem → Except Failure α)
    (h : ∀ world : World, session.runIn world = (result world.files, world)) :
  Silent allowed session
  := by
  constructor
  · intro world
    rw [alone, h, h, World.followed_files]
  · intro files effect heffect
    rw [alone, h] at heffect
    cases heffect

theorem silent_pure (a : α) :
  Silent allowed (pure a : Session α)
  := Silent.of_runIn_eq (fun _ => .ok a) (runIn_pure · a)

theorem silent_throw (failure : Failure) :
  Silent allowed (throw failure : Session α)
  := Silent.of_runIn_eq (fun _ => .error failure) (runIn_throw · failure)

theorem silent_liftM (result : Except Failure α) :
  Silent allowed (liftM result : Session α)
  := Silent.of_runIn_eq (fun _ => result) (runIn_liftM · result)

theorem silent_files :
  Silent allowed files
  := Silent.of_runIn_eq .ok runIn_files

/-- Leaving log records is silent. -/
theorem silent_logAll {records : List Record}
    (hallowed : ∀ record ∈ records, allowed (.logged record)) :
  Silent allowed (logAll records)
  := by
  constructor
  · intro world
    rw [alone, runIn_logAll, runIn_logAll]
    rfl
  · intro files effect heffect
    rw [alone, runIn_logAll] at heffect
    obtain ⟨record, hrecord, rfl⟩ := List.mem_map.mp heffect
    apply hallowed record hrecord

theorem silent_log {level : Level} {source : Source} {text : String}
    (hallowed : allowed (.logged ⟨level, source, text⟩)) :
  Silent allowed (log level source text)
  := silent_logAll (List.forall_mem_singleton.mpr hallowed)

/-- Replacing the files is silent. -/
theorem silent_setFiles (after : FileSystem) :
  Silent allowed (change fun world => { world with files := after })
  := by
  constructor
  · intro world
    rw [alone, runIn_change, runIn_change]
    simp [World.followed]
  · intro files effect heffect
    cases heffect

/-- Silent sessions can be put one after the other. -/
theorem Silent.bind {session : Session α} {next : α → Session β} (h : Silent allowed session)
    (hnext : ∀ a, Silent allowed (next a)) :
  Silent allowed (session >>= next)
  := by
  constructor
  · intro world
    have hrun := h.runIn world
    rw [alone, runIn_bind, runIn_bind, hrun, ← alone]
    cases session.alone world.files with
    | mk result after =>
        cases result with
        | error failure => rfl
        | ok a =>
            simp only
            rw [(hnext a).runIn, (hnext a).runIn after, World.followed_followed]
            rfl
  · intro files effect heffect
    have hallowed := h.allowed files
    rw [alone, runIn_bind, ← alone] at heffect
    cases hrun : session.alone files with
    | mk result after =>
        rw [hrun] at heffect hallowed
        cases result with
        | error failure => apply hallowed effect heffect
        | ok a =>
            simp only at heffect
            rw [(hnext a).runIn] at heffect
            obtain hbefore | hafter := List.mem_append.mp heffect
            · apply hallowed effect hbefore
            · apply (hnext a).allowed after.files effect hafter

end Session

/-! ### Packing evidence -/

namespace Evidence

open Session

variable (allowed : Effect → Prop)
  (hrecord : ∀ record, record.source = .evidence → allowed (.logged record))

include hrecord

theorem silent_skipWarnings (paths : List Path) :
  Silent allowed (logAll (paths.map skipWarning))
  := by
  apply silent_logAll
  intro record hmem
  obtain ⟨path, -, rfl⟩ := List.mem_map.mp hmem
  apply hrecord _ rfl

/-- Writing an archive is silent. -/
theorem silent_writeArchive (bundle : Bundle) :
  Silent allowed (writeArchive bundle)
  := by
  apply Silent.bind silent_files
  intro files
  cases files.create bundle.archive with
  | error fault => apply silent_throw
  | ok created =>
      apply Silent.bind (silent_setFiles _)
      intro _
      apply Silent.bind (silent_skipWarnings allowed hrecord _)
      intro _
      split
      · apply silent_throw
      · dsimp only
        split
        · apply Silent.bind (silent_throw _)
          intro _
          apply Silent.bind (silent_log (hrecord _ rfl))
          intro _
          apply silent_pure
        · apply Silent.bind (silent_log (hrecord _ rfl))
          intro _
          apply silent_pure

/-- Collecting the evidence in a directory is silent. -/
theorem silent_collect (directory : Path) :
  Silent allowed (collect directory)
  := by
  apply Silent.bind silent_files
  intro files
  apply Silent.bind (silent_liftM _)
  intro bundle
  apply silent_writeArchive allowed hrecord

end Evidence

end Proctor
