/-!
# Log records

What a run tells about itself on the side, with the part of the program that tells it. Records
never influence the result of a run.
-/

namespace Proctor

/-- How important a record is. -/
inductive Level where
  | debug
  | info
  | warn
  deriving DecidableEq, Repr

/-- The name of a level. -/
def Level.name : Level → String
  | debug => "DEBUG"
  | info => "INFO"
  | warn => "WARN"

/-- The part of the program that a record comes from. -/
inductive Source where
  | property
  | benchmark
  | runner
  | verdict
  | evidence
  | run
  deriving DecidableEq, Repr

/-- One log record. -/
structure Record where
  level : Level
  source : Source
  text : String
  deriving DecidableEq, Repr

end Proctor
