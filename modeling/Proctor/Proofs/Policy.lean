import Mathlib.Data.List.Infix
import Proctor.Policy
import Proctor.Proofs.Sequence
import Proctor.Proofs.Text.Encoding

/-!
# Policies and their commands

A command determines the policy that it was made for, except that k-induction has two names and that
the strategy does not matter for a concurrent benchmark. This is because the flags come in groups of
which none begins another, so that they can be told apart from left to right.

A search for flags among the arguments of a command can be led astray only by a benchmark that is
itself the flag that is searched for. The benchmark stands between two flags that are in none of the
groups after it, so that a group cannot begin before the benchmark and end after it.
-/

namespace Proctor

/-- A strategy under the name that it has now. -/
def Strategy.current : Strategy → Strategy
  | .fixedKInduction => .kInduction
  | .kInduction => .kInduction
  | .falsification => .falsification
  | .incremental => .incremental

theorem Architecture.flag_inj {architecture architecture' : Architecture} :
  architecture.flag = architecture'.flag ↔ architecture = architecture'
  := by
  cases architecture <;> cases architecture' <;> decide

namespace Policy

/-! ### The strategy that is carried out -/

section Engine

variable (policy : Policy)

theorem current_engine_eq :
  policy.engine.current = if policy.concurrent then .incremental else policy.strategy.current
  := by
  rw [engine]
  split <;> rfl

theorem kInduction_eq_engine_iff :
  Strategy.kInduction.current = policy.engine.current
    ↔ ¬ policy.concurrent
      ∧ (policy.strategy = .fixedKInduction ∨ policy.strategy = .kInduction)
  := by
  rw [current_engine_eq]
  cases policy.concurrent <;> cases policy.strategy <;> decide

theorem falsification_eq_engine_iff :
  Strategy.falsification.current = policy.engine.current
    ↔ ¬ policy.concurrent ∧ policy.strategy = .falsification
  := by
  rw [current_engine_eq]
  cases policy.concurrent <;> cases policy.strategy <;> decide

theorem incremental_eq_engine_iff :
  Strategy.incremental.current = policy.engine.current
    ↔ policy.concurrent ∨ policy.strategy = .incremental
  := by
  rw [current_engine_eq]
  cases policy.concurrent <;> cases policy.strategy <;> decide

end Engine

/-- Where both benchmarks are concurrent or neither is, the same strategy is carried out if the
same one was asked for, and in any case if the benchmarks are concurrent. -/
theorem current_engine_eq_iff {policy policy' : Policy}
    (h : policy.concurrent = policy'.concurrent) :
  policy.engine.current = policy'.engine.current
    ↔ (policy.concurrent ∧ policy'.concurrent) ∨ policy.strategy.current = policy'.strategy.current
  := by
  rw [current_engine_eq, current_engine_eq, ← h]
  cases policy.concurrent with
  | true => simp
  | false => simp

/-! ### The groups of flags -/

/-- The flags for concurrency and for what is to be shown. -/
def benchmarkFlags (concurrent : Bool) (category : Category) : List String :=
  (if concurrent then concurrencyFlags else []) ++ categoryFlags concurrent category

/-- The flags after the one for the architecture. -/
def groups (concurrent : Bool) (category : Category) (engine : Strategy) : List String :=
  benchmarkFlags concurrent category ++ strategyFlags engine

theorem trailingFlags_eq (policy : Policy) :
  policy.trailingFlags
    = policy.architecture.flag :: groups policy.concurrent policy.category policy.engine
  := by
  rw [trailingFlags, groups, benchmarkFlags, List.append_assoc, List.append_assoc,
    List.append_assoc, List.singleton_append]

/-- The flags for a kind of benchmark do not begin those for another kind. -/
theorem benchmarkFlags_prefixFree (kind kind' : Bool × Category)
    (h : benchmarkFlags kind.1 kind.2 <+: benchmarkFlags kind'.1 kind'.2) :
  kind = kind'
  := by
  obtain ⟨concurrent, category⟩ := kind
  obtain ⟨concurrent', category'⟩ := kind'
  revert h
  cases concurrent <;> cases category <;> cases concurrent' <;> cases category' <;> decide

theorem strategyFlags_eq_iff {strategy strategy' : Strategy} :
  strategyFlags strategy = strategyFlags strategy' ↔ strategy.current = strategy'.current
  := by
  cases strategy <;> cases strategy' <;> decide

/-- The arguments for a strategy do not end those for another one. -/
theorem strategyFlags_suffixFree {strategy strategy' : Strategy}
    (h : (strategyFlags strategy).map Bytes.ofString
      <:+ (strategyFlags strategy').map Bytes.ofString) :
  strategy.current = strategy'.current
  := by
  revert h
  cases strategy <;> cases strategy' <;> decide

/-! ### What a command determines -/

theorem groups_eq_iff {concurrent concurrent' : Bool} {category category' : Category}
    {engine engine' : Strategy} :
  groups concurrent category engine = groups concurrent' category' engine'
    ↔ category = category' ∧ concurrent = concurrent' ∧ engine.current = engine'.current
  := by
  have hcode : groups concurrent category engine = groups concurrent' category' engine'
      ↔ (concurrent, category) = (concurrent', category')
        ∧ strategyFlags engine = strategyFlags engine' :=
    Sequence.append_eq_append_iff_of_prefixFree benchmarkFlags_prefixFree
      (i := (concurrent, category)) (j := (concurrent', category'))
  rw [hcode, Prod.mk.injEq, strategyFlags_eq_iff, and_assoc, and_left_comm]

/-- Two commands are the same, byte for byte, exactly if they are for the same verifier, benchmark,
architecture, category and concurrency, and for the same strategy unless both benchmarks are
concurrent. -/
theorem command_eq_iff (policy policy' : Policy) (verifier verifier' : Path) :
  policy.command verifier = policy'.command verifier'
    ↔ verifier = verifier' ∧ policy.benchmark = policy'.benchmark
      ∧ policy.architecture = policy'.architecture ∧ policy.category = policy'.category
      ∧ policy.concurrent = policy'.concurrent
      ∧ ((policy.concurrent ∧ policy'.concurrent)
        ∨ policy.strategy.current = policy'.strategy.current)
  := by
  have hmap := List.map_injective_iff.mpr Bytes.ofString_injective
  rw [command, command, Command.mk.injEq, List.append_cancel_left_eq, List.cons.injEq, hmap.eq_iff,
    trailingFlags_eq, trailingFlags_eq, List.cons.injEq, Architecture.flag_inj, groups_eq_iff]
  constructor
  · rintro ⟨hverifier, hbenchmark, harchitecture, hcategory, hconcurrent, hengine⟩
    exact ⟨hverifier, hbenchmark, harchitecture, hcategory, hconcurrent,
      (current_engine_eq_iff hconcurrent).mp hengine⟩
  · rintro ⟨hverifier, hbenchmark, harchitecture, hcategory, hconcurrent, hstrategy⟩
    exact ⟨hverifier, hbenchmark, harchitecture, hcategory, hconcurrent,
      (current_engine_eq_iff hconcurrent).mpr hstrategy⟩

/-! ### Which flags a command has -/

/-- The flags between which a benchmark stands. -/
def neighbours : List String :=
  ["--no-vla-size-check", "--32", "--64"]

theorem arguments_command (policy : Policy) (verifier : Path) :
  (policy.command verifier).arguments
    = baseFlags.dropLast.map Bytes.ofString ++ Bytes.ofString "--no-vla-size-check"
      :: ([policy.benchmark] ++ Bytes.ofString policy.architecture.flag
        :: (groups policy.concurrent policy.category policy.engine).map Bytes.ofString)
  := by
  rw [command, trailingFlags_eq]
  rfl

theorem map_ofString_infix_iff {flags list : List String} :
  flags.map Bytes.ofString <:+: list.map Bytes.ofString ↔ flags <:+: list
  := by
  rw [List.infix_map_iff]
  constructor
  · rintro ⟨found, hfound, heq⟩
    rwa [List.map_injective_iff.mpr Bytes.ofString_injective heq]
  · intro h
    use flags

/-- Flags other than the neighbours of the benchmark are found among the first flags, among the
groups after the benchmark, or in the place of the benchmark. -/
theorem containsSequence_command_iff (policy : Policy) (verifier : Path) {flags : List String}
    (hne : flags ≠ []) (hflags : ∀ flag ∈ neighbours, flag ∉ flags) :
  (policy.command verifier).containsSequence flags
    ↔ flags <:+: baseFlags.dropLast ∨ flags.map Bytes.ofString = [policy.benchmark]
      ∨ flags <:+: groups policy.concurrent policy.category policy.engine
  := by
  have hneighbour (flag : String) (hflag : flag ∈ neighbours) :
      Bytes.ofString flag ∉ flags.map Bytes.ofString := by
    rw [List.mem_map_of_injective Bytes.ofString_injective]
    apply hflags flag hflag
  have harchitecture : policy.architecture.flag ∈ neighbours := by
    cases policy.architecture <;> decide
  rw [Command.containsSequence, Sequence.occurs_iff, arguments_command,
    Sequence.infix_append_cons_iff_of_not_mem (hneighbour _ (by decide)),
    Sequence.infix_append_cons_iff_of_not_mem (hneighbour _ harchitecture),
    List.infix_singleton_iff, List.map_eq_nil_iff, or_iff_right hne, map_ofString_infix_iff,
    map_ofString_infix_iff]

/-- A group of two flags or more is found only among the flags, whatever the benchmark is. -/
theorem containsSequence_command_group (policy : Policy) (verifier : Path) {flags : List String}
    (hlength : 2 ≤ flags.length) (hflags : ∀ flag ∈ neighbours, flag ∉ flags)
    (hbase : ¬ flags <:+: baseFlags.dropLast) :
  (policy.command verifier).containsSequence flags
    ↔ flags <:+: groups policy.concurrent policy.category policy.engine
  := by
  have hne : flags ≠ [] := by
    rintro rfl
    cases hlength
  have hbenchmark : flags.map Bytes.ofString ≠ [policy.benchmark] := by
    intro h
    have hone := congrArg List.length h
    rw [List.length_map, List.length_singleton] at hone
    omega
  rw [containsSequence_command_iff policy verifier hne hflags, or_iff_right hbase,
    or_iff_right hbenchmark]

/-- A single flag is found also if the benchmark is that flag. -/
theorem containsSequence_command_single (policy : Policy) (verifier : Path) {flag : String}
    (hflag : flag ∉ neighbours) (hbase : flag ∉ baseFlags.dropLast) :
  (policy.command verifier).containsSequence [flag]
    ↔ flag ∈ groups policy.concurrent policy.category policy.engine
      ∨ policy.benchmark = Bytes.ofString flag
  := by
  have hflags : ∀ neighbour ∈ neighbours, neighbour ∉ [flag] := by
    intro neighbour hneighbour hmem
    rw [List.mem_singleton] at hmem
    apply hflag (hmem ▸ hneighbour)
  rw [containsSequence_command_iff policy verifier (List.cons_ne_nil flag []) hflags,
    List.singleton_infix_iff, List.singleton_infix_iff, or_iff_right hbase, List.map_singleton,
    List.singleton_inj, eq_comm, or_comm]

/-! ### Which groups there are -/

/-- The flag that chooses a strategy. -/
def strategyFlag : Strategy → String
  | .fixedKInduction => "--k-induction"
  | .kInduction => "--k-induction"
  | .falsification => "--falsification"
  | .incremental => "--incremental-bmc"

section Groups

variable {concurrent : Bool} {category : Category} {engine : Strategy}

theorem concurrencyFlags_infix_groups :
  concurrencyFlags <:+: groups concurrent category engine ↔ concurrent
  := by
  cases concurrent <;> cases category <;> cases engine <;> decide

theorem errorLabel_infix_groups :
  ["--error-label", "ERROR"] <:+: groups concurrent category engine
    ↔ category = .reachability ∧ ¬ concurrent
  := by
  cases concurrent <;> cases category <;> cases engine <;> decide

theorem strategyFlag_notMem_benchmarkFlags (strategy : Strategy) :
  strategyFlag strategy ∉ benchmarkFlags concurrent category
  := by
  cases strategy <;> cases concurrent <;> cases category <;> decide

theorem strategyFlag_mem_strategyFlags_iff (strategy : Strategy) :
  strategyFlag strategy ∈ strategyFlags engine ↔ strategy.current = engine.current
  := by
  cases strategy <;> cases engine <;> decide

theorem strategyFlag_mem_groups_iff (strategy : Strategy) :
  strategyFlag strategy ∈ groups concurrent category engine ↔ strategy.current = engine.current
  := by
  rw [groups, List.mem_append, or_iff_right (strategyFlag_notMem_benchmarkFlags strategy),
    strategyFlag_mem_strategyFlags_iff]

/-- The flags of a strategy are there if one of them is. -/
theorem strategyFlags_infix_groups_iff (strategy : Strategy) :
  strategyFlags strategy <:+: groups concurrent category engine
    ↔ strategy.current = engine.current
  := by
  constructor
  · intro h
    rw [← strategyFlag_mem_groups_iff]
    apply h.subset
    rw [strategyFlag_mem_strategyFlags_iff]
  · intro h
    rw [strategyFlags_eq_iff.mpr h]
    apply List.IsSuffix.isInfix
    apply List.suffix_append

end Groups

theorem strategyFlags_suffix_arguments (policy : Policy) (verifier : Path) :
  (strategyFlags policy.engine).map Bytes.ofString <:+ (policy.command verifier).arguments
  := by
  rw [command, trailingFlags, List.map_append, ← List.cons_append, ← List.append_assoc]
  apply List.suffix_append

/-- The last arguments of a command are the flags of the strategy that is carried out. -/
theorem strategyFlags_suffix_arguments_iff (policy : Policy) (verifier : Path)
    (strategy : Strategy) :
  (strategyFlags strategy).map Bytes.ofString <:+ (policy.command verifier).arguments
    ↔ strategy.current = policy.engine.current
  := by
  have hengine := strategyFlags_suffix_arguments policy verifier
  constructor
  · intro hstrategy
    -- Both end the same list, so the arguments for one strategy end those for the other.
    obtain h | h := List.suffix_or_suffix_of_suffix hstrategy hengine
    · apply strategyFlags_suffixFree h
    · symm
      apply strategyFlags_suffixFree h
  · intro h
    rwa [strategyFlags_eq_iff.mpr h]

/-- The flag that chooses a strategy is found if the strategy is carried out, or if the benchmark is
that flag. -/
theorem containsSequence_command_strategyFlag (policy : Policy) (verifier : Path)
    (strategy : Strategy) :
  (policy.command verifier).containsSequence [strategyFlag strategy]
    ↔ strategy.current = policy.engine.current
      ∨ policy.benchmark = Bytes.ofString (strategyFlag strategy)
  := by
  rw [containsSequence_command_single policy verifier, strategyFlag_mem_groups_iff]
  · cases strategy <;> decide
  · cases strategy <;> decide

/-- Which flags are found among the arguments of a command, whatever the benchmark is. The flags for
concurrency, those of k-induction and the error label are there exactly if the policy asks for them.
A flag that chooses a strategy is there if the strategy is carried out, or if the benchmark is that
flag. The last arguments are the flags of the strategy that is carried out, which is the incremental
one for every concurrent benchmark. -/
theorem containsSequence_command (policy : Policy) (verifier : Path) :
  ((policy.command verifier).containsSequence ["--no-por", "--context-bound", "2"]
      ↔ policy.concurrent)
    ∧ ((policy.command verifier).containsSequence ["--k-induction", "--max-inductive-step", "8"]
      ↔ ¬ policy.concurrent
        ∧ (policy.strategy = .fixedKInduction ∨ policy.strategy = .kInduction))
    ∧ ((policy.command verifier).containsSequence ["--error-label", "ERROR"]
      ↔ policy.category = .reachability ∧ ¬ policy.concurrent)
    ∧ ((policy.command verifier).containsSequence ["--k-induction"]
      ↔ (¬ policy.concurrent
          ∧ (policy.strategy = .fixedKInduction ∨ policy.strategy = .kInduction))
        ∨ policy.benchmark = Bytes.ofString "--k-induction")
    ∧ ((policy.command verifier).containsSequence ["--falsification"]
      ↔ (¬ policy.concurrent ∧ policy.strategy = .falsification)
        ∨ policy.benchmark = Bytes.ofString "--falsification")
    ∧ ((policy.command verifier).containsSequence ["--incremental-bmc"]
      ↔ (policy.concurrent ∨ policy.strategy = .incremental)
        ∨ policy.benchmark = Bytes.ofString "--incremental-bmc")
    ∧ (["--k-induction", "--max-inductive-step", "8"].map Bytes.ofString
        <:+ (policy.command verifier).arguments
      ↔ ¬ policy.concurrent
        ∧ (policy.strategy = .fixedKInduction ∨ policy.strategy = .kInduction))
    ∧ (["--falsification"].map Bytes.ofString <:+ (policy.command verifier).arguments
      ↔ ¬ policy.concurrent ∧ policy.strategy = .falsification)
    ∧ (["--incremental-bmc"].map Bytes.ofString <:+ (policy.command verifier).arguments
      ↔ policy.concurrent ∨ policy.strategy = .incremental)
  := by
  have hgroup := @containsSequence_command_group policy verifier
  have hsingle := containsSequence_command_strategyFlag policy verifier
  have hlast := strategyFlags_suffix_arguments_iff policy verifier
  rw [← kInduction_eq_engine_iff, ← falsification_eq_engine_iff, ← incremental_eq_engine_iff]
  refine ⟨?_, ?_, ?_, hsingle .kInduction, hsingle .falsification, hsingle .incremental,
    hlast .kInduction, hlast .falsification, hlast .incremental⟩
  · rw [hgroup (by decide) (by decide) (by decide)]
    apply concurrencyFlags_infix_groups
  · rw [hgroup (by decide) (by decide) (by decide)]
    apply strategyFlags_infix_groups_iff .kInduction
  · rw [hgroup (by decide) (by decide) (by decide)]
    apply errorLabel_infix_groups

end Policy

end Proctor
