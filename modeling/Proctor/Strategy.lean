/-!
# Strategies

The ways of searching for a proof or a counterexample that can be asked for.
-/

namespace Proctor

/-- A verification strategy. -/
inductive Strategy where
  /-- k-induction, asked for under its older name. -/
  | fixedKInduction
  | kInduction
  | falsification
  | incremental
  deriving DecidableEq, Repr

namespace Strategy

/-- The name by which a strategy is asked for. -/
def name : Strategy → String
  | fixedKInduction => "fixed"
  | kInduction => "kinduction"
  | falsification => "falsi"
  | incremental => "incr"

/-- The strategies in the order in which they are offered. -/
def all : List Strategy :=
  [kInduction, falsification, incremental, fixedKInduction]

/-- The strategy of a name. -/
def ofName? (name : String) : Option Strategy :=
  all.find? (·.name == name)

end Strategy

end Proctor
