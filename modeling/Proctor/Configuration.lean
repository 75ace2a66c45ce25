import Proctor.Failure
import Proctor.Policy
import Proctor.Settings.Reader

/-!
# Configurations

What a run is asked to do.
-/

namespace Proctor

/-- What a run is asked to do. The concurrency hint, the dry-run request and the note on where the
run takes place do not influence the run itself. -/
structure Configuration where
  property : Path
  benchmark : Path
  strategy : Strategy := .fixedKInduction
  architecture : Architecture := .assumed
  concurrencyHint : Bool := false
  dryRun : Bool := false
  ci : Bool := false
  settings : Settings := {}
  deriving DecidableEq, Repr

namespace Configuration

/-- The strategy of a name. -/
def strategyOfName (name : String) : Except Failure Strategy :=
  match Strategy.ofName? name with
  | some strategy => .ok strategy
  | none => .error (.config (.unknownStrategy name))

/-- The data model that a text names. -/
def architectureOfText (text : String) : Except Failure Architecture :=
  (Architecture.parse text).mapError fun fault => .config (.architecture fault)

/-- The data model for a number of bits. -/
def architectureOfBits (n : Nat) : Except Failure Architecture :=
  (Architecture.ofBits n).mapError fun fault => .config (.architecture fault)

/-- The settings in the file at a path. -/
def settingsOfFile (files : FileSystem) (path : Path) : Except Failure Settings :=
  match files.readText path with
  | .error fault => .error (.config (.settingsUnreadable path fault))
  | .ok text =>
    (Settings.parse (Utf8.encode text)).mapError fun fault =>
      .config (.settingsMalformed path fault)

/-- The policy for a benchmark of which it is known what is to be shown and whether it is
concurrent. -/
def policy (configuration : Configuration) (category : Category) (concurrent : Bool) : Policy where
  strategy := configuration.strategy
  architecture := configuration.architecture
  category := category
  concurrent := concurrent
  benchmark := configuration.benchmark

end Configuration

end Proctor
