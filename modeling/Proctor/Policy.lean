import Proctor.Architecture
import Proctor.Command
import Proctor.Strategy

/-!
# Flag policy

Which flags the verifier is run with. They depend on what is to be shown, on the data model, on the
strategy, and on whether the benchmark is concurrent. A concurrent benchmark is always checked by
incremental bounded model checking, whatever the strategy.
-/

namespace Proctor

/-- What is to be shown of a benchmark. -/
inductive Category where
  | coverage
  | reachability
  deriving DecidableEq, Repr

/-- The name of a category. -/
def Category.name : Category → String
  | coverage => "coverage"
  | reachability => "reachability"

/-- What the flags depend on. -/
structure Policy where
  strategy : Strategy
  architecture : Architecture
  category : Category
  concurrent : Bool
  benchmark : Path
  deriving DecidableEq, Repr

namespace Policy

/-- The flags of every run. -/
def baseFlags : List String :=
  ["--no-div-by-zero-check", "--force-malloc-success", "--state-hashing", "--add-symex-value-sets",
    "--no-align-check", "--k-step", "2", "--floatbv", "--unlimited-k-steps", "--no-vla-size-check"]

/-- The flags for concurrent benchmarks. -/
def concurrencyFlags : List String :=
  ["--no-por", "--context-bound", "2"]

/-- The flags for coverage. -/
def coverageFlags : List String :=
  ["--goto-unwind", "--base-k-step", "5", "--no-bounds-check", "--no-pointer-check", "--quiet",
    "--branch-coverage", "--generate-testcase"]

/-- The flags for reachability. -/
def reachabilityFlags : List String :=
  ["--enable-unreachability-intrinsic"]

/-- Further flags for reachability in concurrent benchmarks. -/
def concurrentReachabilityFlags : List String :=
  ["--no-pointer-check", "--no-bounds-check"]

/-- Further flags for reachability in sequential benchmarks. -/
def sequentialReachabilityFlags : List String :=
  ["--no-pointer-check", "--interval-analysis", "--no-bounds-check", "--error-label", "ERROR",
    "--goto-unwind", "--unlimited-goto-unwind"]

/-- The flags of k-induction. -/
def kInductionFlags : List String :=
  ["--k-induction", "--max-inductive-step", "8"]

/-- The flags of falsification. -/
def falsificationFlags : List String :=
  ["--falsification"]

/-- The flags of incremental bounded model checking. -/
def incrementalFlags : List String :=
  ["--incremental-bmc"]

/-- The flags of a strategy. -/
def strategyFlags : Strategy → List String
  | .fixedKInduction => kInductionFlags
  | .kInduction => kInductionFlags
  | .falsification => falsificationFlags
  | .incremental => incrementalFlags

/-- The flags for what is to be shown. -/
def categoryFlags (concurrent : Bool) : Category → List String
  | .coverage => coverageFlags
  | .reachability =>
    reachabilityFlags ++
      if concurrent then concurrentReachabilityFlags else sequentialReachabilityFlags

/-- The strategy that is carried out. -/
def engine (policy : Policy) : Strategy :=
  if policy.concurrent then .incremental else policy.strategy

/-- The flags after the benchmark. -/
def trailingFlags (policy : Policy) : List String :=
  [policy.architecture.flag] ++ (if policy.concurrent then concurrencyFlags else []) ++
    categoryFlags policy.concurrent policy.category ++ strategyFlags policy.engine

/-- The command that runs a verifier on the benchmark. -/
def command (policy : Policy) (verifier : Path) : Command where
  program := verifier
  arguments :=
    baseFlags.map Bytes.ofString ++ policy.benchmark :: policy.trailingFlags.map Bytes.ofString

end Policy

end Proctor
