import Proctor.Proofs.Evidence.Candidates
import Proctor.Proofs.Text.Numeral

/-!
# The index of a test case

The name of a test case is a numeral between a fixed beginning and a fixed ending, and no other text
names one. The index is the number that the numeral denotes, however many zeros the numeral begins
with, but the greatest index if the number is greater.
-/

namespace Proctor.Evidence

theorem ofString_testCase (digits : List Char) :
  Bytes.ofString ("testcase-" ++ String.ofList digits ++ ".xml")
    = Bytes.ofString testCaseBeginning ++ Utf8.encode digits ++ Bytes.ofString testCaseEnding
  := by
  have hdigits : Bytes.ofString (String.ofList digits) = Utf8.encode digits := by
    rw [Bytes.ofString, String.toList_ofList, Utf8.encode]
  rw [Bytes.ofString_append, Bytes.ofString_append, hdigits]
  rfl

/-- A text names a test case if it has a numeral between the beginning and the ending. -/
theorem index?_ofString_eq_some_iff {name : String} {index : Nat} :
  index? (Bytes.ofString name) = some index
    ↔ ∃ digits, Text.IsNumeral digits ∧ name = "testcase-" ++ String.ofList digits ++ ".xml"
      ∧ index = min (Text.value digits) (2 ^ 64 - 1)
  := by
  have hindex {digits : List Char} (hdigits : ∀ c ∈ digits, Text.IsDigit c) :
      Bytes.boundedValue greatestIndex (Utf8.encode digits)
        = min (Text.value digits) (2 ^ 64 - 1) := by
    rw [Bytes.boundedValue_eq_min, Text.natValue_encode hdigits, Nat.min_comm]
    rfl
  rw [index?_eq_some_iff]
  constructor
  · rintro ⟨bytes, hne, hbytes, hname, rfl⟩
    obtain ⟨digits, hdigits, rfl⟩ := Text.exists_encode_eq hbytes
    rw [← ofString_testCase] at hname
    rw [Ne, Utf8.encode_eq_nil_iff] at hne
    exact ⟨digits, ⟨hne, hdigits⟩, Bytes.ofString_injective hname, hindex hdigits⟩
  · rintro ⟨digits, ⟨hne, hdigits⟩, rfl, rfl⟩
    refine ⟨Utf8.encode digits, ?_, Text.isDigit_of_mem_encode hdigits, ofString_testCase digits,
      (hindex hdigits).symm⟩
    rwa [Ne, Utf8.encode_eq_nil_iff]

/-- The texts that name a test case are those with a numeral between the beginning and the ending.
The index is the number that the numeral denotes, or the greatest index if the number is greater;
zeros at the beginning of the numeral make no difference. -/
theorem index_language (name : String) :
  (∀ index, index? (Bytes.ofString name) = some index
      ↔ ∃ digits, Text.IsNumeral digits ∧ name = "testcase-" ++ String.ofList digits ++ ".xml"
        ∧ index = min (Text.value digits) (2 ^ 64 - 1))
    ∧ (index? (Bytes.ofString name) = none
      ↔ ∀ digits, Text.IsNumeral digits → name ≠ "testcase-" ++ String.ofList digits ++ ".xml")
    ∧ ∀ digits, Text.IsNumeral digits → ∀ zeros,
      index? (Bytes.ofString
          ("testcase-" ++ String.ofList (List.replicate zeros '0' ++ digits) ++ ".xml"))
        = some (min (Text.value digits) (2 ^ 64 - 1))
  := by
  refine ⟨fun index => index?_ofString_eq_some_iff, ?_, ?_⟩
  · rw [Option.eq_none_iff_forall_ne_some]
    constructor
    · intro h digits hdigits hname
      exact h _ (index?_ofString_eq_some_iff.mpr ⟨digits, hdigits, hname, rfl⟩)
    · intro h index hindex
      obtain ⟨digits, hdigits, hname, -⟩ := index?_ofString_eq_some_iff.mp hindex
      apply h digits hdigits hname
  · intro digits hdigits zeros
    rw [index?_ofString_eq_some_iff]
    use List.replicate zeros '0' ++ digits, hdigits.zeros_append zeros, rfl
    rw [Text.value_zeros_append]

example : index? (Bytes.ofString "testcase-018446744073709551616.xml") = some (2 ^ 64 - 1) := by
  decide

end Proctor.Evidence
