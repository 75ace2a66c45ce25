import Mathlib.Data.List.Basic
import Mathlib.Data.List.Find
import Proctor.Proofs.Sequence
import Proctor.Proofs.Verdict

/-!
# Comparing the codes of outputs

How the codes of two outputs compare when one is a part of the other, and when both have the same
lines. The rules are tried in the order of their codes, so that an output to which more rules apply
has a code that comes no later. No marker has a line feed, so that only the set of lines counts: not
their order, and not the stream in which they are printed.
-/

namespace Proctor

/-- The result code of an output. -/
def Output.code (category : Category) (output : Output) : ResultCode :=
  (classify output.text category).1

theorem Output.code_eq_firstCode (category : Category) (output : Output) :
  output.code category = Rule.firstCode (Rule.forCategory category) (Utf8.lossy output.bytes)
  := classify_eq_firstCode output.text category

/-! ### The rank of a code -/

/-- The codes that an output can have, from the one that prevails over all others to the one of an
output without markers. -/
def ResultCode.ladder : List ResultCode :=
  [timedOut, memOut, forceFloatMode, unwindingAssertion, failReach, success, unknown]

/-- The place of a code among those that an output can have. -/
def ResultCode.rank (code : ResultCode) : Nat :=
  ladder.idxOf code

theorem ResultCode.text_verdict_eq_true_iff (code : ResultCode) :
  code.verdict.text = "TRUE" ↔ code = success
  := by
  cases code <;> decide

namespace Rule

/-- The codes of rules in order, and the one that is left when no rule applies. -/
def codes (rules : List Rule) : List ResultCode :=
  rules.map code ++ [.unknown]

theorem firstCode_mem_codes (rules : List Rule) (text : List Char) :
  firstCode rules text ∈ codes rules
  := by
  induction rules with
  | nil => apply List.mem_singleton_self
  | cons rule rules ih =>
      rw [firstCode_cons]
      split
      · apply List.mem_cons_self
      · apply List.mem_cons_of_mem _ ih

/-- If no code occurs twice, the place of the code of a text is the place of the first rule that
applies to it. -/
theorem idxOf_firstCode {rules : List Rule} (hnodup : (codes rules).Nodup) (text : List Char) :
  (codes rules).idxOf (firstCode rules text) = rules.findIdx (·.applies text)
  := by
  induction rules with
  | nil => rfl
  | cons rule rules ih =>
      obtain ⟨hnotMem, hrest⟩ := List.nodup_cons.mp hnodup
      rw [firstCode_cons, List.findIdx_cons]
      cases rule.applies text with
      | true => apply List.idxOf_cons_self
      | false =>
          -- A later rule cannot give this code again, so that the search for it goes on.
          have hne : rule.code ≠ firstCode rules text := by
            intro heq
            apply hnotMem
            rw [heq]
            apply firstCode_mem_codes
          rw [if_neg Bool.false_ne_true, cond_false, ← ih hrest]
          apply List.idxOf_cons_ne _ hne

/-- A rule that applies to a part of an output applies to the whole. -/
theorem applies_lossy_of_part {category : Category} {rule : Rule}
    (hrule : rule ∈ forCategory category) {part whole : Bytes} (hpart : part <:+: whole)
    (h : rule.applies (Utf8.lossy part)) :
  rule.applies (Utf8.lossy whole)
  := by
  rw [applies_lossy_iff category hrule] at h ⊢
  intro marker hmarker
  apply (h marker hmarker).trans hpart

end Rule

theorem Output.code_mem_ladder (category : Category) (output : Output) :
  output.code category ∈ ResultCode.ladder
  := by
  rw [code_eq_firstCode, Rule.forCategory_eq category .coverage]
  apply Rule.firstCode_mem_codes (Rule.forCategory .coverage)

/-- The rank of an output is the place of the first rule that applies to it. -/
theorem Output.rank_code (category : Category) (output : Output) :
  (output.code category).rank
    = (Rule.forCategory category).findIdx (·.applies (Utf8.lossy output.bytes))
  := by
  have hnodup : (Rule.codes (Rule.forCategory .coverage)).Nodup := by decide
  rw [code_eq_firstCode, Rule.forCategory_eq category .coverage]
  apply Rule.idxOf_firstCode hnodup

/-- More output never upgrades the result: whatever is printed before and after some bytes, and
wherever these are cut, the code of the whole ranks no later than that of the part. So the whole is
never announced as true if the part amounts to a failure or to something having run out, and if the
part is announced as true, then so is the whole, or it ranks before. -/
theorem rank_code_append_le (category : Category) (before bytes after : Bytes) :
  let part := Output.code category ⟨bytes⟩
  let whole := Output.code category ⟨before ++ bytes ++ after⟩
  part ∈ ResultCode.ladder ∧ whole ∈ ResultCode.ladder ∧ whole.rank ≤ part.rank
    ∧ (part ≠ .success → part ≠ .unknown → whole.verdict.text ≠ "TRUE")
    ∧ (part.verdict.text = "TRUE" → whole.verdict.text = "TRUE" ∨ whole.rank < part.rank)
  := by
  intro part whole
  have hpart : part ∈ ResultCode.ladder := Output.code_mem_ladder category ⟨bytes⟩
  have hwhole : whole ∈ ResultCode.ladder := Output.code_mem_ladder category _
  have hrank : whole.rank ≤ part.rank := by
    rw [Output.rank_code, Output.rank_code]
    apply List.findIdx_le_findIdx
    intro rule hrule
    apply Rule.applies_lossy_of_part hrule
    exact ⟨before, after, rfl⟩
  refine ⟨hpart, hwhole, hrank, ?_, ?_⟩
  · intro hsuccess hunknown htrue
    have hlast : ∀ code ∈ ResultCode.ladder, ResultCode.success.rank ≤ code.rank →
        code = .success ∨ code = .unknown := by decide
    rw [ResultCode.text_verdict_eq_true_iff] at htrue
    rw [htrue] at hrank
    obtain heq | heq := hlast part hpart hrank
    · apply hsuccess heq
    · apply hunknown heq
  · rw [ResultCode.text_verdict_eq_true_iff, ResultCode.text_verdict_eq_true_iff]
    intro heq
    have hfirst : ∀ code ∈ ResultCode.ladder, code.rank ≤ ResultCode.success.rank →
        code = .success ∨ code.rank < ResultCode.success.rank := by decide
    rw [heq] at hrank ⊢
    apply hfirst whole hwhole hrank

/-! ### Lines -/

/-- What stands between the line feeds of an output, before the first one and after the last one. -/
def Output.lines (output : Output) : List Bytes :=
  Sequence.splitOn 0x0A output.bytes

/-- Two outputs have the same lines, in any order and each any number of times. -/
def Output.SameLines (first second : Output) : Prop :=
  ∀ line, line ∈ first.lines ↔ line ∈ second.lines

/-- No marker has a line feed. -/
theorem Rule.lineFeed_notMem (category : Category) :
  ∀ rule ∈ Rule.forCategory category, ∀ marker ∈ rule.markers, 0x0A ∉ Bytes.ofString marker
  := by
  have hcheck : (Rule.forCategory .coverage).all fun rule => rule.markers.all fun marker =>
      !(Bytes.ofString marker).contains 0x0A := by decide
  rw [Rule.forCategory_eq category .coverage]
  simpa [List.all_eq_true] using hcheck

/-- A rule applies to an output exactly if each of its markers stands in a line, whichever. -/
theorem Rule.applies_iff_lines {category : Category} {rule : Rule}
    (hrule : rule ∈ Rule.forCategory category) (output : Output) :
  rule.applies (Utf8.lossy output.bytes) = true
    ↔ ∀ marker ∈ rule.markers, ∃ line ∈ output.lines, Marker.Occurs line marker
  := by
  rw [applies_lossy_iff category hrule]
  apply forall₂_congr
  intro marker hmarker
  have hlineFeed := lineFeed_notMem category rule hrule marker hmarker
  apply (Sequence.exists_mem_splitOn_iff 0x0A hlineFeed _).symm

theorem Output.SameLines.code_eq {first second : Output} (h : first.SameLines second)
    (category : Category) :
  first.code category = second.code category
  := by
  rw [code_eq_firstCode, code_eq_firstCode, Rule.firstCode, Rule.firstCode]
  congr 2
  apply List.find?_congr
  intro rule hrule
  rw [Bool.eq_iff_iff, Rule.applies_iff_lines hrule, Rule.applies_iff_lines hrule]
  apply forall₂_congr
  intro marker _
  apply exists_congr
  intro line
  rw [h line]

/-- Every line of a stream ends in a line feed. -/
def Bytes.Terminated (stream : Bytes) : Prop :=
  stream = [] ∨ [0x0A] <:+ stream

/-- The lines of a stream of which every line ends in a line feed. -/
def Bytes.terminatedLines (stream : Bytes) : List Bytes :=
  (Sequence.splitOn 0x0A stream).dropLast

/-- What follows a stream of terminated lines begins a line of its own. -/
theorem Bytes.Terminated.splitOn_append {stream : Bytes} (h : stream.Terminated) (rest : Bytes) :
  Sequence.splitOn 0x0A (stream ++ rest) = stream.terminatedLines ++ Sequence.splitOn 0x0A rest
  := by
  obtain rfl | ⟨body, rfl⟩ := h
  · rfl
  · rw [terminatedLines, List.append_assoc, List.singleton_append, Sequence.splitOn_append,
      Sequence.splitOn_append]
    congr 1
    exact List.dropLast_concat.symm

theorem Bytes.Terminated.splitOn_eq {stream : Bytes} (h : stream.Terminated) :
  Sequence.splitOn 0x0A stream = stream.terminatedLines ++ [[]]
  := by
  have hsplit := h.splitOn_append []
  rwa [List.append_nil] at hsplit

theorem Bytes.Terminated.append {first second : Bytes} (hfirst : first.Terminated)
    (hsecond : second.Terminated) :
  (first ++ second).Terminated
  := by
  obtain rfl | hsecond := hsecond
  · rwa [List.append_nil]
  · right
    apply hsecond.trans (List.suffix_append ..)

theorem Bytes.Terminated.terminatedLines_append {first second : Bytes}
    (hfirst : first.Terminated) (hsecond : second.Terminated) :
  (first ++ second).terminatedLines = first.terminatedLines ++ second.terminatedLines
  := by
  rw [Bytes.terminatedLines, hfirst.splitOn_append, hsecond.splitOn_eq, ← List.append_assoc,
    List.dropLast_concat]

/-- Terminated lines in another order are the same lines. -/
theorem Output.sameLines_of_perm {first second : Bytes} (hfirst : first.Terminated)
    (hsecond : second.Terminated) (h : first.terminatedLines.Perm second.terminatedLines) :
  SameLines ⟨first⟩ ⟨second⟩
  := by
  intro line
  rw [lines, lines, hfirst.splitOn_eq, hsecond.splitOn_eq, List.mem_append, List.mem_append,
    h.mem_iff]

/-- The code of an output depends only on the set of its lines. In particular, if every line of both
streams ends in a line feed, it does not matter which stream comes first, or whether the lines of
the two are mixed in any other order. -/
theorem code_eq_of_lines (category : Category) :
  (∀ first second : Output, first.SameLines second → first.code category = second.code category)
    ∧ ∀ stdout stderr : Bytes, stdout.Terminated → stderr.Terminated →
      (Output.ofStreams stderr stdout).code category
          = (Output.ofStreams stdout stderr).code category
        ∧ ∀ mixed : Bytes, mixed.Terminated →
          mixed.terminatedLines.Perm (stdout.terminatedLines ++ stderr.terminatedLines) →
          Output.code category ⟨mixed⟩ = (Output.ofStreams stdout stderr).code category
  := by
  constructor
  · intro first second hlines
    apply hlines.code_eq
  · intro stdout stderr hstdout hstderr
    have hmixed : ∀ mixed : Bytes, mixed.Terminated →
        mixed.terminatedLines.Perm (stdout.terminatedLines ++ stderr.terminatedLines) →
        Output.code category ⟨mixed⟩ = (Output.ofStreams stdout stderr).code category := by
      intro mixed hterminated hperm
      rw [← hstdout.terminatedLines_append hstderr] at hperm
      apply (Output.sameLines_of_perm hterminated (hstdout.append hstderr) hperm).code_eq
    refine ⟨?_, hmixed⟩
    apply hmixed (stderr ++ stdout) (hstderr.append hstdout)
    rw [hstderr.terminatedLines_append hstdout]
    apply List.perm_append_comm

namespace Output.Sample

/-- A stream that tells a failure, with a byte that is not text. -/
def failing : Bytes :=
  0xFF :: Bytes.ofString "\nVERIFICATION FAILED\n"

/-- A stream that tells what failed. -/
def unwinding : Bytes :=
  Bytes.ofString "  unwinding assertion loop 3\n"

end Output.Sample

open Output.Sample in
/-- The two markers of one rule may come from either stream. -/
theorem code_eq_of_lines_unwinding :
  failing.Terminated ∧ unwinding.Terminated
    ∧ (Output.ofStreams unwinding failing).code .coverage = .unwindingAssertion
    ∧ (Output.ofStreams failing unwinding).code .coverage = .unwindingAssertion
  := by
  have hfailing : failing.Terminated := .inr (by decide)
  have hunwinding : unwinding.Terminated := .inr (by decide)
  have hcode : (Output.ofStreams failing unwinding).code .coverage = .unwindingAssertion := by
    decide +kernel
  have hexchanged := ((code_eq_of_lines .coverage).2 _ _ hfailing hunwinding).1
  exact ⟨hfailing, hunwinding, hexchanged.trans hcode, hcode⟩

/-- A marker can stand across the border between two streams if the first one does not end its last
line. -/
example :
  (Output.ofStreams (Bytes.ofString "VERIFICATION ") (Bytes.ofString "FAILED")).code .coverage
      = .failReach
    ∧ (Output.ofStreams (Bytes.ofString "FAILED") (Bytes.ofString "VERIFICATION ")).code .coverage
      = .unknown
  := by decide +kernel

end Proctor
