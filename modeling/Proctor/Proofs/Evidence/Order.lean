import Mathlib.Data.List.Sort
import Proctor.Proofs.FileSystem.Directory

/-!
# The test cases of a directory

Test cases are ordered totally, and a directory does not have two of the same name. The test cases
of a directory are therefore fixed by which of their names lead to a regular file, in whatever order
the entries are listed and whatever else is listed with them.
-/

namespace Proctor.Evidence

/-! ### The order of test cases -/

namespace TestCase

theorem le_iff {first second : TestCase} :
  first.le second ↔ first.index < second.index
    ∨ first.index = second.index ∧ first.name ≤ second.name
  := by
  simp [le, List.not_lt]

theorem le_trans (first second third : TestCase) (h : first.le second) (h' : second.le third) :
  first.le third
  := by
  rw [le_iff] at *
  obtain hlt | ⟨heq, hle⟩ := h
  · left
    obtain hlt' | ⟨heq', -⟩ := h'
    · apply hlt.trans hlt'
    · rwa [← heq']
  · rw [heq]
    obtain hlt' | ⟨heq', hle'⟩ := h'
    · apply Or.inl hlt'
    · exact .inr ⟨heq', List.le_trans hle hle'⟩

theorem le_total (first second : TestCase) :
  first.le second || second.le first
  := by
  rw [Bool.or_eq_true, le_iff, le_iff]
  obtain hlt | heq | hgt := Nat.lt_trichotomy first.index second.index
  · apply Or.inl (.inl hlt)
  · obtain hle | hle := List.le_total first.name second.name
    · exact .inl (.inr ⟨heq, hle⟩)
    · exact .inr (.inr ⟨heq.symm, hle⟩)
  · apply Or.inr (.inl hgt)

theorem le_antisymm {first second : TestCase} (h : first.le second) (h' : second.le first) :
  first = second
  := by
  rw [le_iff] at h h'
  obtain ⟨index, name⟩ := first
  obtain ⟨index', name'⟩ := second
  obtain hlt | ⟨heq, hle⟩ := h
  · obtain hlt' | ⟨heq', -⟩ := h'
    · cases hlt.asymm hlt'
    · cases hlt.ne' heq'
  · obtain hlt' | ⟨-, hle'⟩ := h'
    · cases hlt'.ne' heq
    · cases heq
      cases List.le_antisymm hle hle'
      rfl

end TestCase

/-- Test cases in another order are sorted into the same one. -/
theorem mergeSort_eq_of_perm {first second : List TestCase} (h : first.Perm second) :
  first.mergeSort TestCase.le = second.mergeSort TestCase.le
  := by
  apply List.Perm.eq_of_pairwise fun _ _ _ _ => TestCase.le_antisymm
  · apply List.pairwise_mergeSort TestCase.le_trans TestCase.le_total
  · apply List.pairwise_mergeSort TestCase.le_trans TestCase.le_total
  · apply ((List.mergeSort_perm _ _).trans h).trans (List.mergeSort_perm _ _).symm

/-! ### What the test cases depend on -/

section TestCases

variable {files files' : FileSystem} {directory : Path} {names names' : List Name}

/-- In a directory, an entry is a test case by its name and because it leads to a regular file. -/
theorem mem_filterMap_testCase? (hlist : files.list directory = .ok names) {testCase : TestCase} :
  testCase ∈ names.filterMap (testCase? files directory)
    ↔ testCase? files directory testCase.name = some testCase
  := by
  rw [List.mem_filterMap]
  constructor
  · rintro ⟨name, -, htestCase⟩
    rwa [name_of_testCase? htestCase]
  · intro htestCase
    refine ⟨testCase.name, ?_, htestCase⟩
    obtain ⟨-, hindex, hfile⟩ := isSome_testCase?.mp (Option.isSome_of_eq_some htestCase)
    apply FileSystem.mem_of_isFile hlist (isPlain_of_index? hindex) hfile

theorem nodup_filterMap_testCase? (hlist : files.list directory = .ok names) :
  (names.filterMap (testCase? files directory)).Nodup
  := by
  apply List.Nodup.filterMap
  · intro name name' testCase hname hname'
    rw [← name_of_testCase? hname, name_of_testCase? hname']
  · apply FileSystem.nodup_of_list hlist

theorem testCase?_congr {name : Name}
    (h : (index? name).isSome →
      files'.isFile (directory.join name) = files.isFile (directory.join name)) :
  testCase? files' directory name = testCase? files directory name
  := by
  simp only [testCase?]
  cases hindex : index? name with
  | none => rfl
  | some index => rw [h (Option.isSome_of_eq_some hindex)]

/-- The test cases are fixed by which of their names lead to a regular file. -/
theorem testCases_congr (hlist : files.list directory = .ok names)
    (hlist' : files'.list directory = .ok names')
    (h : ∀ name, (index? name).isSome →
      files'.isFile (directory.join name) = files.isFile (directory.join name)) :
  testCases files' directory names' = testCases files directory names
  := by
  apply mergeSort_eq_of_perm
  rw [List.perm_ext_iff_of_nodup (nodup_filterMap_testCase? hlist')
    (nodup_filterMap_testCase? hlist)]
  intro testCase
  rw [mem_filterMap_testCase? hlist', mem_filterMap_testCase? hlist,
    testCase?_congr (h testCase.name)]

end TestCases

end Proctor.Evidence
