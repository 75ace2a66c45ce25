import Mathlib.Tactic.SplitIfs
import Proctor.Proofs.Text.Transparency
import Proctor.Verdict

/-!
# Verdicts from the bytes of an output

The rules search the text of an output, which is made from its bytes with replacements for whatever
is ill formed. The markers are ASCII, so the search can be made in the bytes themselves, and what an
output amounts to is a chain of conditions on the markers that stand in its bytes.
-/

namespace Proctor

/-! ### Markers in bytes -/

/-- The bytes of a marker stand in a byte string. -/
def Marker.Occurs (bytes : Bytes) (marker : String) : Prop :=
  Bytes.ofString marker <:+: bytes

instance (bytes : Bytes) (marker : String) : Decidable (Marker.Occurs bytes marker) :=
  decidable_of_iff _ Sequence.occurs_iff

/-- The rules are the same whatever is to be shown. -/
theorem Rule.forCategory_eq (category other : Category) :
  Rule.forCategory category = Rule.forCategory other
  := by
  cases category <;> cases other <;> rfl

/-- Every marker of a rule is a text of ASCII characters and not empty. -/
theorem Rule.isAscii_of_mem (category : Category) :
  ∀ rule ∈ Rule.forCategory category, ∀ marker ∈ rule.markers,
    marker.toList ≠ [] ∧ ∀ c ∈ marker.toList, Utf8.IsAscii c
  := by
  have hcheck : (Rule.forCategory .coverage).all fun rule => rule.markers.all fun marker =>
      !marker.toList.isEmpty && marker.toList.all (decide <| Utf8.IsAscii ·) := by decide
  rw [Rule.forCategory_eq category .coverage]
  simpa [List.all_eq_true] using hcheck

/-- A rule applies to the text of a byte string exactly when its markers stand in the bytes. -/
theorem Rule.applies_lossy_iff (category : Category) {rule : Rule}
    (hrule : rule ∈ Rule.forCategory category) (bytes : Bytes) :
  rule.applies (Utf8.lossy bytes) = true ↔ ∀ marker ∈ rule.markers, Marker.Occurs bytes marker
  := by
  rw [Rule.applies, List.all_eq_true]
  constructor
  · intro h marker hmarker
    obtain ⟨hne, hascii⟩ := Rule.isAscii_of_mem category rule hrule marker hmarker
    apply (Utf8.infix_lossy_iff hne hascii bytes).mp
    apply Sequence.occurs_iff.mp (h marker hmarker)
  · intro h marker hmarker
    obtain ⟨hne, hascii⟩ := Rule.isAscii_of_mem category rule hrule marker hmarker
    apply Sequence.occurs_iff.mpr
    apply (Utf8.infix_lossy_iff hne hascii bytes).mpr (h marker hmarker)

/-! ### The first rule that applies -/

/-- The code of the first rule that applies to a text. -/
def Rule.firstCode (rules : List Rule) (text : List Char) : ResultCode :=
  ((rules.find? (·.applies text)).map Rule.code).getD .unknown

theorem Rule.firstCode_nil (text : List Char) :
  firstCode [] text = .unknown
  := rfl

/-- A rule gives its code if it applies, and otherwise leaves it to the rules after it. -/
theorem Rule.firstCode_cons (rule : Rule) (rules : List Rule) (text : List Char) :
  firstCode (rule :: rules) text
    = if rule.applies text = true then rule.code else firstCode rules text
  := by
  rw [firstCode, List.find?_cons]
  cases rule.applies text with
  | false => rfl
  | true => rfl

theorem classify_eq_firstCode (text : List Char) (category : Category) :
  (classify text category).1 = Rule.firstCode (Rule.forCategory category) text
  := by
  rw [classify, Rule.firstCode]
  cases (Rule.forCategory category).find? (·.applies text) with
  | none => rfl
  | some rule => rfl

/-- The result code of an output as a chain of conditions on its bytes. -/
theorem classify_lossy (bytes : Bytes) (category : Category) :
  (classify (Utf8.lossy bytes) category).1
    = if Marker.Occurs bytes "Timed out" then .timedOut
      else if Marker.Occurs bytes "Out of memory" then .memOut
      else if Marker.Occurs bytes "Chosen solver doesn't support floating-point numbers" then
        .forceFloatMode
      else if Marker.Occurs bytes "VERIFICATION FAILED"
          ∧ Marker.Occurs bytes "unwinding assertion loop" then
        .unwindingAssertion
      else if Marker.Occurs bytes "VERIFICATION FAILED" then .failReach
      else if Marker.Occurs bytes "VERIFICATION SUCCESSFUL" then .success
      else .unknown
  := by
  rw [classify_eq_firstCode, Rule.forCategory_eq category .coverage, Rule.forCategory]
  simp (disch := decide) only [Rule.firstCode_cons, Rule.firstCode_nil,
    Rule.applies_lossy_iff .coverage, List.forall_mem_cons, List.not_mem_nil, IsEmpty.forall_iff,
    implies_true, and_true]
  rfl

/-! ### The verdict -/

/-- What is announced of the output that two streams make up depends on the markers that stand in
the bytes of the streams, one after the other. It does not matter whether these bytes are well
formed, where one stream ends and the other begins, and what was to be shown. -/
theorem announced_text_iff (stdout stderr : Bytes) (category : Category) :
  let bytes := stdout ++ stderr
  let text := (classify (Output.ofStreams stdout stderr).text category).1.verdict.text
  (∀ other, (classify (Output.ofStreams stdout stderr).text other).1.verdict.text = text)
    ∧ (text = "Timed out" ↔ Marker.Occurs bytes "Timed out")
    ∧ (text = "TRUE"
      ↔ Marker.Occurs bytes "VERIFICATION SUCCESSFUL" ∧ ¬ Marker.Occurs bytes "Timed out"
        ∧ ¬ Marker.Occurs bytes "Out of memory"
        ∧ ¬ Marker.Occurs bytes "Chosen solver doesn't support floating-point numbers"
        ∧ ¬ Marker.Occurs bytes "VERIFICATION FAILED")
    ∧ (text = "FALSE_REACH"
      ↔ Marker.Occurs bytes "VERIFICATION FAILED" ∧ ¬ Marker.Occurs bytes "Timed out"
        ∧ ¬ Marker.Occurs bytes "Out of memory"
        ∧ ¬ Marker.Occurs bytes "Chosen solver doesn't support floating-point numbers"
        ∧ ¬ Marker.Occurs bytes "unwinding assertion loop")
    ∧ (text = "Unknown" ↔ text ≠ "Timed out" ∧ text ≠ "TRUE" ∧ text ≠ "FALSE_REACH")
  := by
  intro bytes text
  constructor
  · intro other
    rw [classify_eq_firstCode, Rule.forCategory_eq other category, ← classify_eq_firstCode]
  · have htext : text = _ := congrArg (·.verdict.text) (classify_lossy bytes category)
    -- One case for each code, with the conditions under which the rules before it were passed.
    split_ifs at htext with htime hmemory hfloat hunwinding hfailed hsuccessful
    · simp [htext, htime, ResultCode.verdict, Verdict.text]
    · simp [htext, htime, hmemory, ResultCode.verdict, Verdict.text]
    · simp [htext, htime, hfloat, ResultCode.verdict, Verdict.text]
    · simp [htext, htime, hunwinding, ResultCode.verdict, Verdict.text]
    · have hloop : ¬ Marker.Occurs bytes "unwinding assertion loop" := by
        intro hloop
        apply hunwinding ⟨hfailed, hloop⟩
      simp [htext, htime, hmemory, hfloat, hfailed, hloop, ResultCode.verdict, Verdict.text]
    · simp [htext, htime, hmemory, hfloat, hfailed, hsuccessful, ResultCode.verdict, Verdict.text]
    · simp [htext, htime, hfailed, hsuccessful, ResultCode.verdict, Verdict.text]

/-- A sequence that the border between the streams cuts off does not swallow the marker after
it. -/
example :
  (classify (Output.ofStreams [0xE2, 0x82] (Bytes.ofString Marker.successful)).text
    .coverage).1.verdict.text = "TRUE"
  := by decide +kernel

end Proctor
