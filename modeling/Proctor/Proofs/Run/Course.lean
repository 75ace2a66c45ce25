import Mathlib.Logic.Relation
import Proctor.Proofs.Run.StateLog

/-!
# The course of a run

A run goes from one stage to the next until it stops: with a failure, because nothing was launched,
or because it is complete. In every stage that is reached, the states visited are those up to the
state of the stage, the log tells the same states but the first one, and what was found out earlier
is still there.
-/

namespace Proctor.Run

/-- The states up to a given one, in the order in which a run goes through them. -/
def State.upTo (state : State) : List State :=
  State.all.takeWhile (· ≠ state) ++ [state]

theorem State.upTo_prefix (state : State) :
  state.upTo <+: State.all
  := by
  rw [← List.isPrefixOf_iff_prefix]
  cases state <;> rfl

/-! ### Stages -/

/-- A run in one of its states. -/
inductive Stage where
  | initial (run : Initial)
  | categorised (run : Categorised)
  | scanned (run : Scanned)
  | prepared (run : Prepared)
  | executed (run : Executed)
  | classified (run : Classified)
  | announced (run : Announced)
  | reported (report : Report)

namespace Stage

/-- The state of a stage. -/
def state : Stage → State
  | initial _ => .init
  | categorised _ => .categoryResolved
  | scanned _ => .concurrencyResolved
  | prepared _ => .commandBuilt
  | executed _ => .executed
  | classified _ => .classified
  | announced _ => .printed
  | reported _ => .packaged

/-- The states that a stage says were visited. -/
def visited : Stage → List State
  | initial run => run.visited
  | categorised run => run.visited
  | scanned run => run.visited
  | prepared run => run.visited
  | executed run => run.visited
  | classified run => run.visited
  | announced run => run.visited
  | reported report => report.states

/-- The category that a stage carries. -/
def category? : Stage → Option Category
  | initial _ => none
  | categorised run => some run.category
  | scanned run => some run.category
  | prepared run => some run.category
  | executed run => some run.category
  | classified run => some run.category
  | announced run => some run.category
  | reported report => some report.category

/-- Whether the benchmark is concurrent, if a stage carries this. -/
def concurrent? : Stage → Option Bool
  | initial _ => none
  | categorised _ => none
  | scanned run => some run.concurrent
  | prepared run => some run.concurrent
  | executed run => some run.concurrent
  | classified run => some run.concurrent
  | announced run => some run.concurrent
  | reported report => some report.concurrent

/-- The command that a stage carries. -/
def command? : Stage → Option Command
  | initial _ => none
  | categorised _ => none
  | scanned _ => none
  | prepared run => some run.command
  | executed run => some run.command
  | classified run => some run.command
  | announced run => some run.command
  | reported report => some report.command

/-- The result code that a stage carries. -/
def code? : Stage → Option ResultCode
  | initial _ => none
  | categorised _ => none
  | scanned _ => none
  | prepared _ => none
  | executed _ => none
  | classified run => some run.code
  | announced run => some run.code
  | reported report => some report.code

/-- What one stage carries is carried by another one too. -/
structure Keeps (stage later : Stage) : Prop where
  category : ∀ category, stage.category? = some category → later.category? = some category
  concurrent : ∀ concurrent, stage.concurrent? = some concurrent →
    later.concurrent? = some concurrent
  command : ∀ command, stage.command? = some command → later.command? = some command
  code : ∀ code, stage.code? = some code → later.code? = some code

theorem Keeps.refl (stage : Stage) :
  stage.Keeps stage
  := ⟨fun _ h => h, fun _ h => h, fun _ h => h, fun _ h => h⟩

theorem Keeps.trans {first second third : Stage} (h : first.Keeps second)
    (h' : second.Keeps third) :
  first.Keeps third
  := by
  constructor
  · intro category hcategory
    apply h'.category _ (h.category _ hcategory)
  · intro concurrent hconcurrent
    apply h'.concurrent _ (h.concurrent _ hconcurrent)
  · intro command hcommand
    apply h'.command _ (h.command _ hcommand)
  · intro code hcode
    apply h'.code _ (h.code _ hcode)

/-- The stage after a run was executed; there is none if nothing was launched. -/
def ofExecuted? : Option Executed → Outcome ⊕ Stage
  | none => .inl .dryRun
  | some run => .inr (.executed run)

/-- What a run does in a stage: it goes on to the next one, or it stops with an outcome. -/
def advance (runner : Runner) (directory : Path) : Stage → Session (Outcome ⊕ Stage)
  | initial run => return .inr (.categorised (← resolveCategory run))
  | categorised run => return .inr (.scanned (← resolveConcurrency run))
  | scanned run => return .inr (.prepared (← buildCommand run))
  | prepared run => return ofExecuted? (← execute runner run)
  | executed run => return .inr (.classified (← classifyOutput run))
  | classified run => return .inr (.announced (← announce run))
  | announced run => return .inr (.reported (← finish directory run))
  | reported report => return .inl (.completed report)

end Stage

/-! ### From stage to stage -/

section Passage

variable (runner : Runner) (directory : Path)

/-- A run passes from a stage in a world to the next stage. -/
def Passes (before after : Stage × World) : Prop :=
  (before.1.advance runner directory).runIn before.2 = (.ok (.inr after.1), after.2)

/-- A run gets from a stage in a world to another one, maybe through others. -/
abbrev Gets : Stage × World → Stage × World → Prop :=
  Relation.ReflTransGen (Passes runner directory)

/-- A run stops in a stage with a result. -/
def Stops (last : Stage × World) (result : Except Failure Outcome) (final : World) : Prop :=
  (last.1.advance runner directory).runIn last.2 = (result.map .inl, final)

/-- The first stage of a run. -/
def begun (configuration : Configuration) (world : World) : Stage × World :=
  (.initial (start configuration), world.logged [startRecord configuration])

variable {runner directory} {α : Type}

/-- A session does from a stage on what a run does. -/
def Leads (runner : Runner) (directory : Path) (session : Session Outcome) (stage : Stage) :
    Prop :=
  ∀ world, ∃ last, Gets runner directory (stage, world) last
    ∧ Stops runner directory last (session.runIn world).1 (session.runIn world).2

/-- One step of a run, and then the rest of it. -/
theorem Leads.bind {stage : Stage} {step : Session α} {next : α → Outcome ⊕ Stage}
    {rest : α → Session Outcome}
    (hadvance : stage.advance runner directory = step >>= fun a => pure (next a))
    (hstop : ∀ a outcome, next a = .inl outcome → rest a = pure outcome)
    (hpass : ∀ a later, next a = .inr later → Leads runner directory (rest a) later) :
  Leads runner directory (step >>= rest) stage
  := by
  intro world
  have hstep : (stage.advance runner directory).runIn world
      = ((step.runIn world).1.map next, (step.runIn world).2) := by
    rw [hadvance, Session.runIn_bind_pure]
  rw [Session.runIn_bind]
  revert hstep
  generalize step.runIn world = run
  obtain ⟨result, after⟩ := run
  intro hstep
  cases result with
  | error failure =>
      use (stage, world), .refl
      apply hstep
  | ok a =>
      dsimp only
      cases hnext : next a with
      | inl outcome =>
          use (stage, world), .refl
          rw [hstop a outcome hnext]
          apply hstep.trans
          rw [Except.map, hnext]
          rfl
      | inr later =>
          obtain ⟨last, hgets, hstops⟩ := hpass a later hnext after
          refine ⟨last, .head ?_ hgets, hstops⟩
          apply hstep.trans
          rw [Except.map, hnext]

/-- A step that always goes on. -/
theorem Leads.bind_inr {stage : Stage} {step : Session α} {next : α → Stage}
    {rest : α → Session Outcome}
    (hadvance : stage.advance runner directory = step >>= fun a => pure (.inr (next a)))
    (hpass : ∀ a, Leads runner directory (rest a) (next a)) :
  Leads runner directory (step >>= rest) stage
  := by
  apply Leads.bind hadvance
  · intro a outcome hnext
    cases hnext
  · intro a later hnext
    cases hnext
    apply hpass

/-- A run gets from its first stage to the stage in which it stops. -/
theorem exists_stops {configuration : Configuration} {world final : World}
    {result : Except Failure Outcome}
    (h : (orchestrate configuration runner directory).runIn world = (result, final)) :
  ∃ last, Gets runner directory (begun configuration world) last
    ∧ Stops runner directory last result final
  := by
  suffices hstops : ∃ last, Gets runner directory (begun configuration world) last
      ∧ Stops runner directory last ((orchestrate configuration runner directory).runIn world).1
        ((orchestrate configuration runner directory).runIn world).2 by
    rw [h] at hstops
    apply hstops
  rw [orchestrate, Session.runIn_bind, Session.runIn_log]
  apply Leads.bind_inr rfl
  intro categorised
  apply Leads.bind_inr rfl
  intro scanned
  apply Leads.bind_inr rfl
  intro prepared
  apply Leads.bind rfl
  · intro executed? outcome hnext
    cases executed? with
    | none => cases hnext; rfl
    | some executed => cases hnext
  intro executed? later hnext
  cases executed? with
  | none => cases hnext
  | some executed =>
      cases hnext
      apply Leads.bind_inr rfl
      intro classified
      apply Leads.bind_inr rfl
      intro announced
      apply Leads.bind_inr rfl
      intro report world
      use (.reported report, world), .refl
      rfl

end Passage

/-! ### What one step does -/

/-- Whether a run has still to launch its command. -/
def Stage.isPending : Stage → Bool
  | initial _ => true
  | categorised _ => true
  | scanned _ => true
  | prepared _ => true
  | _ => false

/-- The stage that comes after another one, with the files that are there and the runner. -/
inductive Next (runner : Runner) (files : FileSystem) : Stage → Stage → Prop
  | categorised {run : Initial} {category : Category}
      (hcategory : Property.ofFile files run.configuration.property = .ok category) :
      Next runner files (.initial run)
        (.categorised { run with visited := run.visited ++ [.categoryResolved], category })
  | scanned {run : Categorised} {concurrent : Bool}
      (hconcurrent : Benchmark.ofFile files run.configuration.benchmark = .ok concurrent) :
      Next runner files (.categorised run)
        (.scanned { run with visited := run.visited ++ [.concurrencyResolved], concurrent })
  | prepared (run : Scanned) :
      Next runner files (.scanned run)
        (.prepared { run with
          visited := run.visited ++ [.commandBuilt]
          command := run.configuration.command run.category run.concurrent })
  | executed {run : Prepared} {output : Output}
      (hresult : (runner run.command files).result = .ok (.completed output)) :
      Next runner files (.prepared run)
        (.executed { run with visited := run.visited ++ [.executed], output })
  | classified (run : Executed) :
      Next runner files (.executed run)
        (.classified { run with
          visited := run.visited ++ [.classified]
          code := (classify run.output.text run.category).1 })
  | announced (run : Classified) :
      Next runner files (.classified run)
        (.announced { run with
          visited := run.visited ++ [.printed], verdict := run.code.verdict })
  | reported (run : Announced) (package : Option Evidence.Package) :
      Next runner files (.announced run)
        (.reported { run with package, states := run.visited ++ [.packaged] })

section Step

variable {runner : Runner} {directory : Path} {files : FileSystem} {stage next : Stage}
  {world after : World}

/-- A run passes only to the next stage, and it leaves the files as they are until it has its
command. -/
theorem next_of_passes (h : Passes runner directory (stage, world) (next, after)) :
  Next runner world.files stage next ∧ (next.isPending → after.files = world.files)
  := by
  rw [Passes] at h
  cases stage with
  | initial run =>
      rw [Stage.advance, Session.runIn_bind_pure, runIn_resolveCategory] at h
      cases hcategory : Property.ofFile world.files run.configuration.property with
      | error failure =>
          rw [hcategory] at h
          cases h
      | ok category =>
          rw [hcategory] at h
          cases h
          exact ⟨.categorised hcategory, fun _ => rfl⟩
  | categorised run =>
      rw [Stage.advance, Session.runIn_bind_pure, runIn_resolveConcurrency] at h
      cases hconcurrent : Benchmark.ofFile world.files run.configuration.benchmark with
      | error failure =>
          rw [hconcurrent] at h
          cases h
      | ok concurrent =>
          rw [hconcurrent] at h
          cases h
          exact ⟨.scanned hconcurrent, fun _ => rfl⟩
  | scanned run =>
      rw [Stage.advance, Session.runIn_bind_pure, runIn_buildCommand] at h
      cases h
      exact ⟨.prepared run, fun _ => rfl⟩
  | prepared run =>
      have hexecutes := gives_execute runner run world
      rw [Session.Gives] at hexecutes
      rw [Stage.advance, Session.runIn_bind_pure] at h
      revert h hexecutes
      generalize (execute runner run).runIn world = step
      obtain ⟨result, left⟩ := step
      intro h hexecutes
      cases hexecutes with
      | unannounced => cases h
      | refused => cases h
      | dryRun => cases h
      | cut => cases h
      | executed hsaid hresult =>
          cases h
          exact ⟨.executed hresult, fun hpending => by cases hpending⟩
  | executed run =>
      rw [Stage.advance, Session.runIn_bind_pure, runIn_classifyOutput] at h
      cases h
      exact ⟨.classified run, fun hpending => by cases hpending⟩
  | classified run =>
      have hannounces := gives_announce run world
      rw [Session.Gives] at hannounces
      rw [Stage.advance, Session.runIn_bind_pure] at h
      revert h hannounces
      generalize (announce run).runIn world = step
      obtain ⟨result, left⟩ := step
      intro h hannounces
      cases hannounces with
      | cut => cases h
      | unflushed => cases h
      | announced =>
          cases h
          exact ⟨.announced run, fun hpending => by cases hpending⟩
  | announced run =>
      rw [Stage.advance, Session.runIn_bind_pure, runIn_finish] at h
      cases h
      exact ⟨.reported run _, fun hpending => by cases hpending⟩
  | reported report => cases h

namespace Next

theorem visited (h : Next runner files stage next) :
  next.visited = stage.visited ++ [next.state]
  := by cases h <;> rfl

theorem upTo_state (h : Next runner files stage next) :
  next.state.upTo = stage.state.upTo ++ [next.state]
  := by cases h <;> rfl

theorem isPending (h : Next runner files stage next) (hpending : next.isPending) :
  stage.isPending
  := by
  cases h with
  | categorised => rfl
  | scanned => rfl
  | prepared => rfl
  | executed => rfl
  | classified => cases hpending
  | announced => cases hpending
  | reported => cases hpending

/-- A step keeps what was found out, and adds at most one thing. -/
theorem keeps (h : Next runner files stage next) :
  stage.Keeps next
  := by
  cases h with
  | categorised => exact ⟨nofun, nofun, nofun, nofun⟩
  | scanned => exact ⟨fun _ h => h, nofun, nofun, nofun⟩
  | prepared => exact ⟨fun _ h => h, fun _ h => h, nofun, nofun⟩
  | executed => exact ⟨fun _ h => h, fun _ h => h, fun _ h => h, nofun⟩
  | classified => exact ⟨fun _ h => h, fun _ h => h, fun _ h => h, nofun⟩
  | announced => exact ⟨fun _ h => h, fun _ h => h, fun _ h => h, fun _ h => h⟩
  | reported => exact ⟨fun _ h => h, fun _ h => h, fun _ h => h, fun _ h => h⟩

end Next

end Step

/-! ### What one step leaves in the log -/

/-- What a runner itself logs about states, for the commands that it was given. -/
def remarks (runner : Runner) (files : FileSystem) (commands : List Command) : List Record :=
  (commands.flatMap fun command => (runner command files).records).filter Record.tellsState

@[simp] theorem remarks_nil (runner : Runner) (files : FileSystem) :
  remarks runner files [] = []
  := rfl

@[simp] theorem remarks_singleton (runner : Runner) (files : FileSystem) (command : Command) :
  remarks runner files [command] = (runner command files).records.filter Record.tellsState
  := by simp [remarks]

/-- The state that a run enters with a step, if it goes on. -/
def entered : Except Failure (Outcome ⊕ Stage) → List State
  | .ok (.inr next) => [next.state]
  | _ => []

section Log

variable {α : Type} {runner : Runner} {directory : Path} {files : FileSystem}
  {stage next : Stage} {world after : World} {states : List State}
  {result : Except Failure (Outcome ⊕ Stage)}

/-- What a step leaves in the log: the state that is entered, after the remarks of the runner on the
commands that were launched. Only a run that has still to launch its command does so. -/
def Leaves (runner : Runner) (stage : Stage) (world : World)
    (result : Except Failure (Outcome ⊕ Stage)) (after : World) : Prop :=
  ∃ launched, after.commands = world.commands ++ launched
    ∧ after.stateRecords = world.stateRecords ++ remarks runner world.files launched
      ++ (entered result).map stateRecord
    ∧ (launched ≠ [] → stage.isPending
      ∧ ∀ next, result = .ok (.inr next) → next.isPending = false)

/-- A step that launches nothing leaves the state that it tells. -/
theorem Tells.leaves {state : State} {step : Session α} {wrap : α → Stage} (h : Tells state step)
    (hstate : ∀ a, (wrap a).state = state) (world : World) :
  Session.Gives world (step >>= fun a => pure (.inr (wrap a))) (Leaves runner stage world)
  := by
  obtain ⟨hcommands, hrecords⟩ := h world
  rw [Session.Gives, Session.runIn_bind_pure]
  refine ⟨[], ?_, ?_, fun hne => absurd rfl hne⟩
  · rw [List.append_nil, hcommands]
  · rw [remarks_nil, List.append_nil, hrecords]
    cases (step.runIn world).1 with
    | error failure => rfl
    | ok a => simp [told, entered, Except.map, hstate]

theorem not_isPending_ofExecuted? {executed : Except Failure (Option Executed)}
    (h : executed.map Stage.ofExecuted? = .ok (.inr next)) :
  next.isPending = false
  := by
  obtain failure | _ | run := executed
  · cases h
  · cases h
  · cases h
    rfl

/-- A step that launches its command leaves the remarks of the runner. -/
theorem leaves_of_launched {run : Prepared} {executed : Except Failure (Option Executed)}
    {middle : World}
    (hsaid : Session.Said greeting.toList [] (commandLine run.command) world (.ok ()) middle)
    (hcommands : after.commands = (middle.launched runner run.command).commands)
    (hrecords : after.stateRecords = (middle.launched runner run.command).stateRecords
      ++ (entered (executed.map Stage.ofExecuted?)).map stateRecord) :
  Leaves runner (.prepared run) world (executed.map Stage.ofExecuted?) after
  := by
  refine ⟨[run.command], ?_, ?_, fun _ => ⟨rfl, fun next => not_isPending_ofExecuted?⟩⟩
  · rw [hcommands, World.commands_launched, Said.commands hsaid]
  · rw [hrecords, World.stateRecords_launched, Said.stateRecords hsaid, hsaid.files,
      remarks_singleton]

/-- Executing a run leaves its state, after the remarks of the runner. -/
theorem Executes.leaves {run : Prepared} {executed : Except Failure (Option Executed)}
    (h : Executes runner run world executed after) :
  Leaves runner (.prepared run) world (executed.map Stage.ofExecuted?) after
  := by
  cases h with
  | unannounced hsaid =>
      refine ⟨[], ?_, ?_, fun hne => absurd rfl hne⟩
      · rw [Said.commands hsaid, List.append_nil]
      · simp [Said.stateRecords hsaid, Except.map, entered]
  | refused hsaid hresult =>
      apply leaves_of_launched hsaid rfl
      simp [Except.map, entered]
  | dryRun hsaid hresult =>
      apply leaves_of_launched hsaid rfl
      simp [Except.map, entered, Stage.ofExecuted?]
  | cut hsaid hresult =>
      apply leaves_of_launched hsaid (World.commands_wrote ..)
      simp [Except.map, entered]
  | executed hsaid hresult =>
      apply leaves_of_launched hsaid
      · rw [World.commands_logged, World.commands_wrote]
      · simp [Except.map, entered, Stage.ofExecuted?, Stage.state]

theorem leaves_advance (runner : Runner) (directory : Path) (stage : Stage) (world : World) :
  Session.Gives world (stage.advance runner directory) (Leaves runner stage world)
  := by
  cases stage with
  | initial run => apply (tells_resolveCategory run).leaves fun _ => rfl
  | categorised run => apply (tells_resolveConcurrency run).leaves fun _ => rfl
  | scanned run => apply (tells_buildCommand run).leaves fun _ => rfl
  | prepared run =>
      rw [Session.Gives, Stage.advance, Session.runIn_bind_pure]
      apply Executes.leaves (gives_execute runner run world)
  | executed run => apply (tells_classifyOutput run).leaves fun _ => rfl
  | classified run => apply (tells_announce run).leaves fun _ => rfl
  | announced run => apply (tells_finish directory run).leaves fun _ => rfl
  | reported report =>
      refine ⟨[], ?_, ?_, fun hne => absurd rfl hne⟩
      · simp [Stage.advance]
      · simp [Stage.advance, entered]

/-- The log of a world tells some states in order. What the runner itself logs about states stands
in one place among them. -/
def LogTells (runner : Runner) (files : FileSystem) (states : List State) (world : World) : Prop :=
  ∃ before later, states = before ++ later
    ∧ world.stateRecords = before.map stateRecord ++ remarks runner files world.commands
      ++ later.map stateRecord

/-- If the runner logs nothing about states, then the log tells exactly the given ones. -/
theorem LogTells.eq_map (h : LogTells runner files states world)
    (hquiet : remarks runner files world.commands = []) :
  world.stateRecords = states.map stateRecord
  := by
  obtain ⟨before, later, rfl, hrecords⟩ := h
  rw [hrecords, hquiet, List.append_nil, List.map_append]

theorem LogTells.leaves (h : LogTells runner files states world)
    (hpending : stage.isPending → world.commands = [] ∧ world.files = files)
    (hleaves : Leaves runner stage world result after) :
  LogTells runner files (states ++ entered result) after
  := by
  obtain ⟨before, later, rfl, hrecords⟩ := h
  obtain ⟨launched, hcommands, hafter, hlaunched⟩ := hleaves
  rw [LogTells, hafter, hrecords, hcommands]
  cases launched with
  | nil =>
      use before, later ++ entered result
      simp
  | cons command rest =>
      obtain ⟨hnone, hfiles⟩ := hpending (hlaunched (List.cons_ne_nil command rest)).1
      use before ++ later, entered result
      simp [hnone, hfiles]

/-! ### Whole runs -/

/-- A stage in a world as it should be: the states visited are those up to the state of the stage,
the log tells them but for the first one, and nothing has happened to the files as long as the
command is not launched. -/
structure Sound (runner : Runner) (files : FileSystem) (stage : Stage) (world : World) : Prop where
  visited : stage.visited = stage.state.upTo
  log : LogTells runner files stage.visited.tail world
  pending : stage.isPending → world.commands = [] ∧ world.files = files

theorem sound_begun (configuration : Configuration) (files : FileSystem) (stream : Stream) :
  Sound runner files (begun configuration { files, stream }).1
    (begun configuration { files, stream }).2
  := by
  constructor
  · rfl
  · have hrecords : World.stateRecords { files, stream } = [] := rfl
    have hcommands : World.commands { files, stream } = [] := rfl
    use [], []
    simp [begun, Stage.visited, start, hrecords, hcommands]
  · intro _
    exact ⟨rfl, rfl⟩

theorem Sound.leaves (h : Sound runner files stage world)
    (hleaves : Leaves runner stage world result after) :
  LogTells runner files (stage.visited.tail ++ entered result) after
  := h.log.leaves h.pending hleaves

theorem Sound.passes (h : Sound runner files stage world)
    (hpasses : Passes runner directory (stage, world) (next, after)) :
  Sound runner files next after
  := by
  have hleaves := leaves_advance runner directory stage world
  rw [Passes] at hpasses
  rw [Session.Gives, hpasses] at hleaves
  obtain ⟨hnext, hfiles⟩ := next_of_passes hpasses
  constructor
  · rw [hnext.visited, h.visited, hnext.upTo_state]
  · have hne : stage.visited ≠ [] := by
      rw [h.visited, State.upTo]
      apply List.append_ne_nil_of_right_ne_nil _ (List.cons_ne_nil _ _)
    rw [hnext.visited, List.tail_append_of_ne_nil hne]
    apply h.leaves hleaves
  · intro hpending
    obtain ⟨hcommands, hsame⟩ := h.pending (hnext.isPending hpending)
    obtain ⟨launched, hlaunched, -, hstage⟩ := hleaves
    refine ⟨?_, (hfiles hpending).trans hsame⟩
    cases launched with
    | nil => rw [hlaunched, List.append_nil, hcommands]
    | cons command rest =>
        have hnot := (hstage (List.cons_ne_nil command rest)).2 next rfl
        rw [hpending] at hnot
        cases hnot

/-- Every stage that is reached is as it should be. -/
theorem sound_of_gets {configuration : Configuration} {stream : Stream} {point : Stage × World}
    (h : Gets runner directory (begun configuration { files, stream }) point) :
  Sound runner files point.1 point.2
  := by
  induction h with
  | refl => apply sound_begun
  | tail _ hpasses ih => apply ih.passes hpasses

/-- What was found out in a stage is still there in every later one. -/
theorem keeps_of_gets {point later : Stage × World} (h : Gets runner directory point later) :
  point.1.Keeps later.1
  := by
  induction h with
  | refl => apply Stage.Keeps.refl
  | tail _ hpasses ih => apply ih.trans (next_of_passes hpasses).1.keeps

theorem Sound.stops {result : Except Failure Outcome} (h : Sound runner files stage world)
    (hstops : Stops runner directory (stage, world) result after) :
  LogTells runner files stage.visited.tail after
  := by
  have hleaves := leaves_advance runner directory stage world
  rw [Stops] at hstops
  rw [Session.Gives, hstops] at hleaves
  have hlog := h.leaves hleaves
  cases result with
  | error failure =>
      rw [← List.append_nil stage.visited.tail]
      apply hlog
  | ok outcome =>
      rw [← List.append_nil stage.visited.tail]
      apply hlog

theorem not_stops_of_bind_inr {step : Session α} {wrap : α → Stage} {outcome : Outcome}
    (hadvance : stage.advance runner directory = step >>= fun a => pure (.inr (wrap a))) :
  ¬ Stops runner directory (stage, world) (.ok outcome) after
  := by
  intro h
  rw [Stops, hadvance, Session.runIn_bind_pure] at h
  have hresult := (Prod.mk.inj h).1
  cases hstep : (step.runIn world).1 with
  | error failure =>
      rw [hstep] at hresult
      cases hresult
  | ok a =>
      rw [hstep] at hresult
      cases hresult

/-- A run that stops without a failure has launched nothing, or it is complete. -/
theorem Stops.of_ok {outcome : Outcome}
    (h : Stops runner directory (stage, world) (.ok outcome) after) :
  outcome = .dryRun ∧ stage.state = .commandBuilt
    ∨ ∃ report, outcome = .completed report ∧ stage = .reported report
  := by
  cases stage with
  | initial run => cases not_stops_of_bind_inr rfl h
  | categorised run => cases not_stops_of_bind_inr rfl h
  | scanned run => cases not_stops_of_bind_inr rfl h
  | prepared run =>
      rw [Stops, Stage.advance, Session.runIn_bind_pure] at h
      have hresult : ((execute runner run).runIn world).1.map Stage.ofExecuted?
          = .ok (.inl outcome) := (Prod.mk.inj h).1
      revert hresult
      generalize ((execute runner run).runIn world).1 = executed?
      intro hresult
      obtain failure | _ | executed := executed?
      · cases hresult
      · cases hresult
        left
        exact ⟨rfl, rfl⟩
      · cases hresult
  | executed run => cases not_stops_of_bind_inr rfl h
  | classified run => cases not_stops_of_bind_inr rfl h
  | announced run => cases not_stops_of_bind_inr rfl h
  | reported report =>
      cases h
      right
      exact ⟨report, rfl, rfl⟩

end Log

/-- In every stage that a run reaches, the states visited are the beginning of all states that ends
in the state of the stage, the log tells these states but the first one, beside what the runner
itself logs about states, and every later stage carries what this one carries. The run stops in a
stage that it reaches, and the log tells the states up to that stage. If it stops because nothing
was launched, then the last state is that of the command, and if it is complete, then all states
were visited. -/
theorem orchestrate_course (configuration : Configuration) (runner : Runner) (directory : Path)
    (files : FileSystem) (stream : Stream) :
  (∀ stage world, Gets runner directory (begun configuration { files, stream }) (stage, world) →
    stage.visited <+: State.all ∧ stage.visited.getLast? = some stage.state
    ∧ LogTells runner files stage.visited.tail world
    ∧ (remarks runner files world.commands = [] →
      world.stateRecords = stage.visited.tail.map stateRecord)
    ∧ ∀ later after, Gets runner directory (stage, world) (later, after) → stage.Keeps later)
  ∧ ∃ result final last world,
    (orchestrate configuration runner directory).runIn { files, stream } = (result, final)
    ∧ Gets runner directory (begun configuration { files, stream }) (last, world)
    ∧ Stops runner directory (last, world) result final
    ∧ LogTells runner files last.visited.tail final
    ∧ (remarks runner files final.commands = [] →
      final.stateRecords = last.visited.tail.map stateRecord)
    ∧ (result = .ok .dryRun → last.state = .commandBuilt)
    ∧ ∀ report, result = .ok (.completed report) →
      last = .reported report ∧ report.states = State.all
  := by
  constructor
  · intro stage world hgets
    have hsound := sound_of_gets hgets
    refine ⟨?_, ?_, hsound.log, hsound.log.eq_map, ?_⟩
    · rw [hsound.visited]
      apply State.upTo_prefix
    · rw [hsound.visited, State.upTo, List.getLast?_concat]
    · intro later after hlater
      apply keeps_of_gets hlater
  · cases hrun : (orchestrate configuration runner directory).runIn { files, stream } with
    | mk result final =>
    obtain ⟨⟨last, world⟩, hgets, hstops⟩ := exists_stops hrun
    have hsound := sound_of_gets hgets
    have hlog := hsound.stops hstops
    refine ⟨result, final, last, world, rfl, hgets, hstops, hlog, hlog.eq_map, ?_, ?_⟩
    · rintro rfl
      obtain ⟨-, hstate⟩ | ⟨report, hreport, -⟩ := hstops.of_ok
      · apply hstate
      · cases hreport
    · rintro report rfl
      obtain ⟨hdry, -⟩ | ⟨_, hreport, rfl⟩ := hstops.of_ok
      · cases hdry
      · cases hreport
        use rfl
        apply hsound.visited

end Proctor.Run
