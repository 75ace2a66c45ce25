import Mathlib.Data.List.Infix
import Proctor.Policy
import Proctor.Proofs.Sequence
import Proctor.Proofs.Text.Transparency

/-!
# Commands as text

A command is displayed as its program and its arguments with a space between any two of them. If all
of them are text, then they are displayed as they are, and if none of them has a space, then the
display can be taken apart again. No flag has a space, so that it comes down to the paths of the
verifier and of the benchmark.
-/

namespace Proctor

/-- The pieces that separators were put before are found again. -/
theorem Sequence.splitOn_append_flatMap {α β : Type} [BEq α] [LawfulBEq α] {separator : α}
    {piece : List α} (hpiece : separator ∉ piece) {f : β → List α} {list : List β}
    (hlist : ∀ b ∈ list, separator ∉ f b) :
  splitOn separator (piece ++ list.flatMap fun b => separator :: f b) = piece :: list.map f
  := by
  induction list generalizing piece with
  | nil => rw [List.flatMap_nil, List.append_nil, splitOn_of_not_mem separator hpiece, List.map_nil]
  | cons b list ih =>
      obtain ⟨hb, hrest⟩ := List.forall_mem_cons.mp hlist
      rw [List.flatMap_cons, List.cons_append, splitOn_append, splitOn_of_not_mem separator hpiece,
        ih hb hrest]
      rfl

/-- The text of a byte string has a space exactly if the byte string has one. -/
theorem Utf8.space_mem_lossy_iff {bytes : Bytes} :
  ' ' ∈ lossy bytes ↔ 0x20 ∈ bytes
  := by
  rw [← List.singleton_infix_iff, infix_lossy_iff (List.cons_ne_nil _ _),
    ← List.singleton_infix_iff]
  · rfl
  · rw [List.forall_mem_singleton]
    decide

namespace Command

/-! ### Text -/

/-- The bytes of a command, with a space between its parts. -/
def bytes (command : Command) : Bytes :=
  [0x20].intercalate (command.program :: command.arguments)

/-- The arguments that are text are displayed as they are. -/
theorem encode_flatMap_lossy {arguments : List Bytes}
    (h : ∀ argument ∈ arguments, Utf8.isValid argument) :
  Utf8.encode (arguments.flatMap fun argument => ' ' :: Utf8.lossy argument)
    = arguments.flatMap (0x20 :: ·)
  := by
  induction arguments with
  | nil => rfl
  | cons argument arguments ih =>
      obtain ⟨hargument, harguments⟩ := List.forall_mem_cons.mp h
      rw [List.flatMap_cons, Utf8.encode_append, ih harguments, List.flatMap_cons,
        ← List.singleton_append, Utf8.encode_append, Utf8.encode_lossy hargument]
      rfl

/-- A command whose parts are text is displayed as it is. -/
theorem encode_display {command : Command} (hprogram : Utf8.isValid command.program)
    (harguments : ∀ argument ∈ command.arguments, Utf8.isValid argument) :
  Utf8.encode command.display.toList = command.bytes
  := by
  rw [display, String.toList_ofList, Utf8.encode_append, Utf8.encode_lossy hprogram,
    encode_flatMap_lossy harguments, bytes, Sequence.intercalate_cons]

/-! ### Splitting -/

/-- The display of a command whose parts have no space is split into the texts of these parts. -/
theorem splitOn_display {command : Command} (hprogram : 0x20 ∉ command.program)
    (harguments : ∀ argument ∈ command.arguments, 0x20 ∉ argument) :
  Sequence.splitOn ' ' command.display.toList
    = (command.program :: command.arguments).map Utf8.lossy
  := by
  rw [display, String.toList_ofList, Sequence.splitOn_append_flatMap, List.map_cons]
  · rwa [Utf8.space_mem_lossy_iff]
  · intro argument hargument
    rw [Utf8.space_mem_lossy_iff]
    apply harguments argument hargument

end Command

namespace Policy

variable {policy : Policy} {verifier : Path}

/-- An argument of a command is the benchmark or a flag. -/
theorem eq_or_exists_of_mem_arguments {argument : Bytes}
    (h : argument ∈ (policy.command verifier).arguments) :
  argument = policy.benchmark
    ∨ ∃ flag ∈ baseFlags ++ policy.trailingFlags, Bytes.ofString flag = argument
  := by
  rw [command, List.mem_append, List.mem_cons, or_left_comm, ← List.mem_append, ← List.map_append]
    at h
  exact h.imp_right List.mem_map.mp

/-- The flags of a command are text, so its arguments are if the path of the benchmark is. -/
theorem isValid_of_mem_arguments (h : Utf8.isValid policy.benchmark) :
  ∀ argument ∈ (policy.command verifier).arguments, Utf8.isValid argument
  := by
  intro argument hargument
  obtain rfl | ⟨flag, -, rfl⟩ := eq_or_exists_of_mem_arguments hargument
  · apply h
  · apply Utf8.isValid_ofString

/-- No flag has a space. -/
theorem all_spaceless (policy : Policy) :
  (baseFlags ++ policy.trailingFlags).all fun flag => !(Bytes.ofString flag).contains 0x20
  := by
  simp only [trailingFlags, List.all_append, Bool.and_eq_true]
  refine ⟨by decide, ⟨⟨?_, ?_⟩, ?_⟩, ?_⟩
  · cases policy.architecture <;> decide
  · cases policy.concurrent <;> decide
  · cases policy.concurrent <;> cases policy.category <;> decide
  · cases policy.engine <;> decide

theorem space_notMem_of_mem_arguments (h : 0x20 ∉ policy.benchmark) :
  ∀ argument ∈ (policy.command verifier).arguments, 0x20 ∉ argument
  := by
  intro argument hargument
  obtain rfl | ⟨flag, hflag, rfl⟩ := eq_or_exists_of_mem_arguments hargument
  · apply h
  · have hspaceless := List.all_eq_true.mp policy.all_spaceless flag hflag
    simpa using hspaceless

/-- Where the paths of the verifier and of the benchmark are text without spaces, the display of the
command splits at its spaces into the program and the arguments, byte for byte and in order. -/
theorem splitOn_display_command (policy : Policy) (verifier : Path)
    (hverifier : Utf8.isValid verifier) (hbenchmark : Utf8.isValid policy.benchmark)
    (hverifierSpace : 0x20 ∉ verifier) (hbenchmarkSpace : 0x20 ∉ policy.benchmark) :
  (Sequence.splitOn ' ' (policy.command verifier).display.toList).map Utf8.encode
    = verifier :: (policy.command verifier).arguments
  := by
  have hvalid : ∀ part ∈ verifier :: (policy.command verifier).arguments, Utf8.isValid part :=
    List.forall_mem_cons.mpr ⟨hverifier, isValid_of_mem_arguments hbenchmark⟩
  have hsplit : Sequence.splitOn ' ' (policy.command verifier).display.toList
      = (verifier :: (policy.command verifier).arguments).map Utf8.lossy :=
    Command.splitOn_display hverifierSpace (space_notMem_of_mem_arguments hbenchmarkSpace)
  rw [hsplit, List.map_map]
  conv_rhs => rw [← List.map_id (verifier :: (policy.command verifier).arguments)]
  apply List.map_congr_left
  intro part hpart
  apply Utf8.encode_lossy (hvalid part hpart)

namespace Sample

/-- A policy whose benchmark has blanks other than spaces, and letters beyond ASCII. -/
def tabbed : Policy where
  strategy := .falsification
  architecture := .bits64
  category := .reachability
  concurrent := false
  benchmark := Bytes.ofString "\ta\nü\u2003.c"

end Sample

open Sample in
/-- An empty program is a piece of its own, and a tab, a line feed or a space of another width does
not end one. -/
theorem splitOn_display_command_tabbed :
  Utf8.isValid tabbed.benchmark ∧ 0x20 ∉ tabbed.benchmark
    ∧ (Sequence.splitOn ' ' (tabbed.command []).display.toList).map Utf8.encode
      = [] :: (tabbed.command []).arguments
  := by
  have hvalid : Utf8.isValid tabbed.benchmark := by decide
  have hspace : 0x20 ∉ tabbed.benchmark := by decide
  use hvalid, hspace
  apply splitOn_display_command tabbed [] (by decide) hvalid List.not_mem_nil hspace

end Policy

end Proctor
