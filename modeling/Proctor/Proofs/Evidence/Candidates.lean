import Mathlib.Data.List.Nodup
import Mathlib.Data.List.Perm.Basic
import Mathlib.Data.Option.Basic
import Proctor.Evidence
import Proctor.Proofs.Sequence

/-!
# The names of the candidates

The candidates in a directory have pairwise distinct names, each of them valid text, and the last
name of the path of a candidate is the name that it has in the directory. The names of test cases
are distinct because the entries of a directory are, and none of them is the name of the metadata
file.
-/

namespace Proctor

namespace Path

/-- A name that denotes an entry of a directory, and neither the directory nor the one above it. -/
structure IsPlain (name : Name) : Prop where
  no_separator : separator ∉ name
  ne_nil : name ≠ []
  ne_selfName : name ≠ selfName
  ne_parentName : name ≠ parentName

theorem names_append_separator (path rest : Path) :
  names (path ++ separator :: rest) = path.names ++ rest.names
  := by
  rw [names, Sequence.splitOn_append, List.filter_append, names, names]

theorem IsPlain.names_eq {name : Name} (h : IsPlain name) :
  names name = [name]
  := by
  simp [names, Sequence.splitOn_of_not_mem separator h.no_separator, h.ne_nil]

theorem names_join {name : Name} (h : IsPlain name) (directory : Path) :
  (directory.join name).names = directory.names ++ [name]
  := by
  rw [join]
  split
  · next hend =>
    rw [Bool.or_eq_true, List.isEmpty_iff, beq_iff_eq, List.getLast?_eq_some_iff] at hend
    obtain rfl | ⟨start, rfl⟩ := hend
    · rw [List.nil_append, h.names_eq]
      rfl
    · rw [List.append_assoc, List.cons_append, List.nil_append, names_append_separator, h.names_eq,
        names_append_separator]
      simp [names, Sequence.splitOn, Sequence.splitAux]
  · rw [names_append_separator, h.names_eq]

/-- The last name of the path of an entry is the name of the entry. -/
theorem lastName?_join {name : Name} (h : IsPlain name) (directory : Path) :
  (directory.join name).lastName? = some name
  := by
  rw [lastName?, names_join h, List.filter_append]
  simp [h.ne_selfName, h.ne_parentName]

/-- The last name of a path is no longer than the path. -/
theorem length_le_of_lastName? {path : Path} {name : Name} (h : path.lastName? = some name) :
  name.length ≤ path.length
  := by
  rw [lastName?, Option.filter_eq_some_iff] at h
  have hmem := List.mem_of_mem_filter (List.mem_of_mem_filter (List.mem_of_getLast? h.1))
  apply (Sequence.infix_of_mem_splitOn hmem).length_le

end Path

namespace FileSystem

/-- The entries of a directory have distinct names. -/
theorem nodup_children (fs : FileSystem) (directory : Location) :
  (fs.children directory).Nodup
  := by
  rw [children]
  apply List.Nodup.filterMap
  · intro location location' name hname hname'
    rw [Option.mem_def, Location.nameIn?_eq_some_iff] at hname hname'
    rw [hname, hname']
  · apply Std.TreeMap.nodup_keys

theorem nodup_of_list {fs : FileSystem} {path : Path} {names : List Name}
    (h : fs.list path = .ok names) :
  names.Nodup
  := by
  rw [list] at h
  split at h
  · split at h
    · split at h
      · cases h
        apply nodup_children
      · cases h
    · cases h
    · cases h
  · cases h

end FileSystem

namespace Evidence

/-! ### Names of test cases -/

/-- A test case is named by digits between the beginning and the ending. -/
theorem index?_eq_some_iff {name : Name} {index : Nat} :
  index? name = some index ↔ ∃ digits : Bytes,
    digits ≠ [] ∧ (∀ b ∈ digits, Bytes.isDigit b)
      ∧ name = Bytes.ofString testCaseBeginning ++ digits ++ Bytes.ofString testCaseEnding
      ∧ index = Bytes.boundedValue greatestIndex digits
  := by
  simp only [index?, Option.bind_eq_bind, Option.bind_eq_some_iff,
    Sequence.dropBeginning?_eq_some_iff, Sequence.dropEnding?_eq_some_iff]
  constructor
  · rintro ⟨rest, rfl, digits, rfl, h⟩
    split at h
    · cases h
    · next hdigits =>
      cases h
      simp at hdigits
      exact ⟨digits, hdigits.1, hdigits.2, by simp, rfl⟩
  · rintro ⟨digits, hne, hdigits, rfl, rfl⟩
    refine ⟨_, List.append_assoc .., digits, rfl, if_neg ?_⟩
    simpa [hne] using hdigits

theorem isPlain_of_index? {name : Name} (h : (index? name).isSome) :
  Path.IsPlain name
  := by
  obtain ⟨index, hindex⟩ := Option.isSome_iff_exists.mp h
  obtain ⟨digits, -, hdigits, rfl, -⟩ := index?_eq_some_iff.mp hindex
  have hhead : (Bytes.ofString testCaseBeginning ++ digits
      ++ Bytes.ofString testCaseEnding).head? = some 0x74 := rfl
  have hdigit : Path.separator ∉ digits := by
    intro hmem
    cases hdigits _ hmem
  have hbeginning : Path.separator ∉ Bytes.ofString testCaseBeginning := by decide
  have hending : Path.separator ∉ Bytes.ofString testCaseEnding := by decide
  constructor
  · simp only [List.mem_append, hbeginning, hdigit, hending, or_self, not_false_eq_true]
  all_goals
    intro heq
    rw [heq] at hhead
    cases hhead

/-! ### Candidates -/

section Candidates

variable {files : FileSystem} {directory : Path} {names : List Name} {name : Name}

theorem isSome_testCase? :
  (testCase? files directory name).isSome
    ↔ Utf8.isValid name ∧ (index? name).isSome ∧ files.isFile (directory.join name)
  := by
  simp only [testCase?, guard]
  by_cases hvalid : Utf8.isValid name <;> by_cases hfile : files.isFile (directory.join name) <;>
    cases index? name <;> simp [hvalid, hfile, failure]

theorem testCase?_eq_some_iff {testCase : TestCase} :
  testCase? files directory name = some testCase
    ↔ testCase.name = name ∧ Utf8.isValid name ∧ index? name = some testCase.index
      ∧ files.isFile (directory.join name)
  := by
  simp only [testCase?, Option.bind_eq_bind, Option.bind_eq_some_iff, Option.guard_eq_some',
    exists_const, Option.pure_def, Option.some_inj]
  constructor
  · rintro ⟨hvalid, index, hindex, hfile, rfl⟩
    exact ⟨rfl, hvalid, hindex, hfile⟩
  · rintro ⟨rfl, hvalid, hindex, hfile⟩
    exact ⟨hvalid, testCase.index, hindex, hfile, rfl⟩

theorem name_of_testCase? {testCase : TestCase}
    (h : testCase? files directory name = some testCase) :
  testCase.name = name
  := (testCase?_eq_some_iff.mp h).1

/-- The test cases are those entries of the directory that are one, in another order. -/
theorem map_name_testCases_perm :
  ((testCases files directory names).map TestCase.name).Perm
    (names.filter fun name => (testCase? files directory name).isSome)
  := by
  have hname : ∀ name, (testCase? files directory name).map TestCase.name
      = Option.guard (fun name => (testCase? files directory name).isSome) name := by
    intro name
    cases h : testCase? files directory name with
    | none => simp [Option.guard, h]
    | some testCase => simp [Option.guard, h, name_of_testCase? h]
  rw [← List.filterMap_eq_filter, ← funext hname, ← List.map_filterMap]
  apply (List.mergeSort_perm _ _).map

theorem mem_map_name_testCases :
  name ∈ (testCases files directory names).map TestCase.name
    ↔ name ∈ names ∧ Utf8.isValid name ∧ (index? name).isSome
      ∧ files.isFile (directory.join name)
  := by
  rw [map_name_testCases_perm.mem_iff, List.mem_filter, isSome_testCase?]

/-- The names of the candidates in a directory with the given entries. -/
def candidates (files : FileSystem) (directory : Path) (names : List Name) : List Name :=
  (testCases files directory names).map TestCase.name ++ [Bytes.ofString metadataFile]

theorem files_bundle :
  (bundle files directory names).files = (candidates files directory names).map directory.join
  := by
  simp [bundle, candidates]

theorem isPlain_of_mem_candidates (h : name ∈ candidates files directory names) :
  Path.IsPlain name ∧ Utf8.isValid name
  := by
  rw [candidates, List.mem_append, mem_map_name_testCases, List.mem_singleton] at h
  obtain ⟨-, hvalid, hindex, -⟩ | rfl := h
  · exact ⟨isPlain_of_index? hindex, hvalid⟩
  · refine ⟨?_, by decide⟩
    constructor <;> decide

theorem nodup_candidates (h : names.Nodup) :
  (candidates files directory names).Nodup
  := by
  rw [candidates, List.nodup_append, map_name_testCases_perm.nodup_iff]
  refine ⟨h.filter _, List.nodup_singleton _, ?_⟩
  rintro name hname _ hmetadata rfl
  rw [List.mem_singleton] at hmetadata
  have hindex := (mem_map_name_testCases.mp hname).2.2.1
  rw [hmetadata] at hindex
  cases hindex

theorem isFile_of_mem_testCases
    (h : name ∈ (testCases files directory names).map TestCase.name) :
  files.isFile (directory.join name)
  := (mem_map_name_testCases.mp h).2.2.2

/-- Every test case is a regular file, so that the metadata file alone may be missing. -/
theorem filter_candidates :
  (candidates files directory names).filter (fun name => files.isFile (directory.join name))
    = (testCases files directory names).map TestCase.name
      ++ if files.isFile (directory.join (Bytes.ofString metadataFile))
        then [Bytes.ofString metadataFile] else []
  := by
  rw [candidates, List.filter_append, List.filter_singleton, cond_eq_ite,
    List.filter_eq_self.mpr fun name => isFile_of_mem_testCases]

theorem filter_not_candidates :
  (candidates files directory names).filter (fun name => !files.isFile (directory.join name))
    = if files.isFile (directory.join (Bytes.ofString metadataFile)) then []
      else [Bytes.ofString metadataFile]
  := by
  have htestCases : ((testCases files directory names).map TestCase.name).filter
      (fun name => !files.isFile (directory.join name)) = [] := by
    apply List.filter_eq_nil_iff.mpr
    intro name hname
    simp [isFile_of_mem_testCases hname]
  rw [candidates, List.filter_append, htestCases, List.filter_singleton, Bool.cond_not, cond_eq_ite,
    List.nil_append]

end Candidates

end Evidence

end Proctor
