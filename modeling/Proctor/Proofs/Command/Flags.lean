import Mathlib.Tactic.Use
import Proctor.Command

/-!
# Flags among arguments

Flags stand among the arguments of a command one right after the other exactly if the arguments are
some arguments, then the flags, then some arguments. It comes to the same to compare the flags with
every window of as many arguments, place by place. A comparison place by place does not see what
only one of two lists has, so that it matters that all windows have the length of the flags.
-/

namespace Proctor

namespace Sequence

variable {α : Type}

/-! ### Windows -/

/-- The windows of `size` elements in a list, from left to right. -/
def windows (size : Nat) (list : List α) : List (List α) :=
  (List.range (list.length + 1 - size)).map fun start => (list.drop start).take size

/-- The windows in a list are the runs of their length that occur in it. -/
theorem mem_windows_iff {size : Nat} {window list : List α} :
  window ∈ windows size list ↔ window <:+: list ∧ window.length = size
  := by
  simp only [windows, List.mem_map, List.mem_range]
  constructor
  · rintro ⟨start, hstart, rfl⟩
    constructor
    · use list.take start, (list.drop start).drop size
      rw [List.append_assoc, List.take_append_drop, List.take_append_drop]
    · rw [List.length_take, List.length_drop]
      omega
  · rintro ⟨⟨before, after, rfl⟩, rfl⟩
    use before.length
    constructor
    · simp only [List.length_append]
      omega
    · rw [List.append_assoc, List.drop_left, List.take_left]

/-- Whether two lists agree in every place that both of them have. -/
def agree [BEq α] (first second : List α) : Bool :=
  (first.zip second).all fun pair => pair.1 == pair.2

/-- Lists of the same length that agree are equal. -/
theorem agree_iff_of_length_eq [BEq α] [LawfulBEq α] {first second : List α}
    (h : first.length = second.length) :
  agree first second = true ↔ first = second
  := by
  induction first generalizing second with
  | nil =>
      obtain rfl := List.length_eq_zero_iff.mp h.symm
      exact ⟨fun _ => rfl, fun _ => rfl⟩
  | cons a first ih =>
      cases second with
      | nil => cases h
      | cons b second =>
          rw [agree, List.zip_cons_cons, List.all_cons, Bool.and_eq_true, beq_iff_eq, ← agree,
            ih (Nat.succ.inj h), List.cons.injEq]

/-- A pattern occurs exactly if it agrees with one of the windows of its length. -/
theorem occurs_eq_any_windows [BEq α] [LawfulBEq α] (pattern list : List α) :
  occurs pattern list = (windows pattern.length list).any (agree · pattern)
  := by
  rw [Bool.eq_iff_iff, occurs_iff, List.any_eq_true]
  constructor
  · intro h
    exact ⟨pattern, mem_windows_iff.mpr ⟨h, rfl⟩, (agree_iff_of_length_eq rfl).mpr rfl⟩
  · rintro ⟨window, hwindow, hagree⟩
    obtain ⟨hrun, hlength⟩ := mem_windows_iff.mp hwindow
    obtain rfl := (agree_iff_of_length_eq hlength).mp hagree
    apply hrun

end Sequence

namespace Command

/-! ### Flags -/

/-- Flags are found among the arguments of a command exactly if these are some arguments, then the
flags, then some arguments, whatever bytes the arguments have. They are found by comparing them with
every window of their number. No flags are always found, and never more flags than there are
arguments. -/
theorem containsSequence_iff (command : Command) (flags : List String) :
  (command.containsSequence flags = true
      ↔ ∃ before after, command.arguments = before ++ flags.map Bytes.ofString ++ after)
    ∧ command.containsSequence flags
      = (Sequence.windows flags.length command.arguments).any
        (Sequence.agree · (flags.map Bytes.ofString))
    ∧ command.containsSequence [] = true
    ∧ (command.arguments.length < flags.length → command.containsSequence flags = false)
  := by
  have hiff : command.containsSequence flags = true
      ↔ flags.map Bytes.ofString <:+: command.arguments := Sequence.occurs_iff
  refine ⟨?_, ?_, Sequence.occurs_nil_left _, ?_⟩
  · rw [hiff]
    constructor
    · rintro ⟨before, after, h⟩
      exact ⟨before, after, h.symm⟩
    · rintro ⟨before, after, h⟩
      exact ⟨before, after, h.symm⟩
  · rw [containsSequence, Sequence.occurs_eq_any_windows, List.length_map]
  · intro hlength
    rw [Bool.eq_false_iff, Ne, hiff]
    intro hrun
    have hle := hrun.length_le
    rw [List.length_map] at hle
    apply Nat.not_lt.mpr hle hlength

namespace Sample

/-- A command that has a flag twice and then the value of the flag, and an argument that is not
text. -/
def repeating : Command where
  program := []
  arguments := [[0xFF], Bytes.ofString "--k-step", Bytes.ofString "--k-step", Bytes.ofString "2"]

end Sample

open Sample in
/-- The value is found after the second of two equal flags. -/
theorem containsSequence_iff_repeating :
  repeating.containsSequence ["--k-step", "2"] = true
    ∧ repeating.containsSequence ["--k-step", "2", "--k-step", "2", "--k-step"] = false
  := by
  have hfound := (containsSequence_iff repeating ["--k-step", "2"]).1
  have hmore := containsSequence_iff repeating ["--k-step", "2", "--k-step", "2", "--k-step"]
  constructor
  · exact hfound.mpr ⟨[[0xFF], Bytes.ofString "--k-step"], [], rfl⟩
  · exact hmore.2.2.2 (by decide)

end Command

end Proctor
