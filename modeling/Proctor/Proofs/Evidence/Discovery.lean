import Proctor.Proofs.Evidence.Order
import Proctor.Proofs.Evidence.Package
import Proctor.Proofs.Text.Ascii

/-!
# What is discovered

The candidates in a directory are its test cases and the metadata file, in whatever order the
entries are listed. Each test case is there once, and they follow each other strictly by index and
name. As far as the greatest index goes this is the order of the numbers in their names. Test cases
with greater numbers all have that index, so that among them the names decide.
-/

namespace Proctor

/-! ### Numbers and names -/

namespace Bytes

/-- A string of digits, of which there is at least one. -/
def IsNumeral (digits : Bytes) : Prop :=
  digits ≠ [] ∧ ∀ b ∈ digits, isDigit b

instance : DecidablePred IsNumeral :=
  fun digits => decidable_of_iff (digits ≠ [] ∧ digits.all isDigit = true)
    (and_congr_right fun _ => List.all_eq_true)

theorem digitValue_le {b : UInt8} (h : isDigit b) :
  digitValue b ≤ 9
  := by
  rw [isDigit_iff] at h
  rw [digitValue]
  omega

theorem digitValue_lt {a b : UInt8} (ha : isDigit a) (h : a < b) :
  digitValue a < digitValue b
  := by
  rw [isDigit_iff] at ha
  rw [UInt8.lt_iff_toNat_lt] at h
  rw [digitValue, digitValue]
  omega

/-- One more digit of a number. -/
def addDigit (n : Nat) (b : UInt8) : Nat :=
  10 * n + digitValue b

/-- As many digits after a smaller number make a smaller number. -/
theorem foldl_addDigit_lt {digits digits' : Bytes} (hdigits : ∀ b ∈ digits, isDigit b)
    (hlength : digits.length = digits'.length) {n n' : Nat} (h : n < n') :
  digits.foldl addDigit n < digits'.foldl addDigit n'
  := by
  induction digits generalizing digits' n n' with
  | nil =>
      rw [List.eq_nil_of_length_eq_zero hlength.symm]
      apply h
  | cons b digits ih =>
      obtain ⟨b', digits', rfl⟩ := List.exists_cons_of_length_eq_add_one hlength.symm
      obtain ⟨hb, hrest⟩ := List.forall_mem_cons.mp hdigits
      have hvalue := digitValue_le hb
      apply ih hrest (Nat.succ.inj hlength)
      rw [addDigit, addDigit]
      omega

/-- Of two numerals of the same length, the one that denotes less comes first, whatever follows
both. -/
theorem append_lt_append_of_foldl_lt {digits digits' : Bytes} (hdigits' : ∀ b ∈ digits', isDigit b)
    (hlength : digits.length = digits'.length) {n : Nat}
    (h : digits.foldl addDigit n < digits'.foldl addDigit n) (rest : Bytes) :
  digits ++ rest < digits' ++ rest
  := by
  induction digits generalizing digits' n with
  | nil =>
      rw [List.eq_nil_of_length_eq_zero hlength.symm] at h
      cases Nat.lt_irrefl _ h
  | cons b digits ih =>
      obtain ⟨b', digits', rfl⟩ := List.exists_cons_of_length_eq_add_one hlength.symm
      obtain ⟨hb', hrest'⟩ := List.forall_mem_cons.mp hdigits'
      rw [List.cons_append, List.cons_append, List.cons_lt_cons_iff]
      obtain hlt | heq | hgt := Nat.lt_trichotomy b.toNat b'.toNat
      · apply Or.inl (UInt8.lt_iff_toNat_lt.mpr hlt)
      · rw [UInt8.toNat_inj.mp heq] at h
        exact .inr ⟨UInt8.toNat_inj.mp heq, ih hrest' (Nat.succ.inj hlength) h⟩
      · -- A smaller first digit cannot be made up for by those after it.
        have hdigit : addDigit n b' < addDigit n b :=
          Nat.add_lt_add_left (digitValue_lt hb' (UInt8.lt_iff_toNat_lt.mpr hgt)) _
        cases h.asymm (foldl_addDigit_lt hrest' (Nat.succ.inj hlength).symm hdigit)

end Bytes

theorem Path.join_injective (directory : Path) :
  Function.Injective directory.join
  := by
  intro name name' h
  rw [join, join] at h
  split at h
  · apply List.append_cancel_left h
  · apply List.tail_eq_of_cons_eq (List.append_cancel_left h)

/-- Two elements of a list that follows a strict order stand in it as the order says. -/
theorem pair_sublist_of_pairwise {α : Type} {r : α → α → Prop} (hasymm : ∀ a b, r a b → ¬ r b a)
    {list : List α} (hlist : list.Pairwise r) {a b : α} (ha : a ∈ list) (hb : b ∈ list)
    (h : r a b) :
  [a, b].Sublist list
  := by
  obtain ⟨before, after, rfl⟩ := List.append_of_mem ha
  rw [List.pairwise_append] at hlist
  rw [List.mem_append, List.mem_cons] at hb
  obtain hbefore | rfl | hafter := hb
  · cases hasymm a b h (hlist.2.2 b hbefore a List.mem_cons_self)
  · cases hasymm b b h h
  · apply List.Sublist.trans _ (List.sublist_append_right before _)
    apply List.Sublist.cons_cons a (List.singleton_sublist.mpr hafter)

namespace Evidence

/-! ### The strict order -/

namespace TestCase

/-- The strict order of test cases: by index, then by name. -/
def Precedes (first second : TestCase) : Prop :=
  first.index < second.index ∨ first.index = second.index ∧ first.name < second.name

theorem Precedes.asymm (first second : TestCase) (h : first.Precedes second) :
  ¬ second.Precedes first
  := by
  rintro (hlt' | ⟨heq', hname'⟩)
  · obtain hlt | ⟨heq, -⟩ := h
    · apply hlt.asymm hlt'
    · apply hlt'.ne' heq
  · obtain hlt | ⟨-, hname⟩ := h
    · apply hlt.ne' heq'
    · apply List.lt_asymm hname hname'

theorem precedes_of_le_of_ne {first second : TestCase} (h : first.le second)
    (hne : first ≠ second) :
  first.Precedes second
  := by
  obtain ⟨index, name⟩ := first
  obtain ⟨index', name'⟩ := second
  obtain hlt | ⟨heq, hle⟩ := le_iff.mp h
  · apply Or.inl hlt
  · obtain hlt | hname := List.le_iff_lt_or_eq.mp hle
    · exact .inr ⟨heq, hlt⟩
    · cases heq
      cases hname
      contradiction

end TestCase

section TestCases

variable {files : FileSystem} {directory : Path} {names names' : List Name}

theorem mem_testCases {testCase : TestCase} :
  testCase ∈ testCases files directory names
    ↔ testCase.name ∈ names ∧ Utf8.isValid testCase.name
      ∧ index? testCase.name = some testCase.index
      ∧ files.isFile (directory.join testCase.name)
  := by
  rw [testCases, List.mem_mergeSort, List.mem_filterMap]
  simp only [testCase?_eq_some_iff]
  constructor
  · rintro ⟨name, hmem, rfl, htestCase⟩
    exact ⟨hmem, htestCase⟩
  · rintro ⟨hmem, htestCase⟩
    exact ⟨testCase.name, hmem, rfl, htestCase⟩

/-- The test cases of a directory follow each other in strict order. -/
theorem pairwise_testCases (h : names.Nodup) :
  (testCases files directory names).Pairwise TestCase.Precedes
  := by
  have hsorted : (testCases files directory names).Pairwise fun a b => a.le b :=
    List.pairwise_mergeSort TestCase.le_trans TestCase.le_total _
  have hnodup : (testCases files directory names).Nodup := by
    apply List.Nodup.of_map TestCase.name
    rw [map_name_testCases_perm.nodup_iff]
    apply h.filter
  apply (hsorted.and hnodup).imp
  rintro first second ⟨hle, hne⟩
  apply TestCase.precedes_of_le_of_ne hle hne

/-- The order in which the entries of a directory are listed makes no difference. -/
theorem bundle_eq_of_perm (h : names.Perm names') :
  bundle files directory names = bundle files directory names'
  := by
  have htestCases : testCases files directory names = testCases files directory names' :=
    mergeSort_eq_of_perm (h.filterMap _)
  rw [bundle, htestCases, bundle]

theorem nodup_files_bundle (h : names.Nodup) :
  (bundle files directory names).files.Nodup
  := by
  rw [files_bundle]
  apply (nodup_candidates h).map directory.join_injective

end TestCases

/-! ### Discovery -/

/-- The name of the test case with a numeral. -/
def testCaseName (digits : Bytes) : Name :=
  Bytes.ofString "testcase-" ++ digits ++ Bytes.ofString ".xml"

theorem index?_eq_some_iff_numeral {name : Name} {index : Nat} :
  index? name = some index ↔ ∃ digits : Bytes, digits.IsNumeral ∧ name = testCaseName digits
    ∧ index = min digits.natValue (Nat.pow 2 64 - 1)
  := by
  simp only [index?_eq_some_iff, Bytes.boundedValue_eq_min, Nat.min_comm, Bytes.IsNumeral,
    and_assoc]
  rfl

theorem discover_of_list {files : FileSystem} {directory : Path} {names : List Name}
    (h : files.list directory = .ok names) :
  discover files directory = .ok (bundle files directory names)
  := by
  rw [discover, h]

/-- What is discovered in a directory: the entries with the name of a test case that lead to a
regular file, each of them once and in strict order by index and name, and then the metadata file,
whether it is there or not. It is the same for every order in which the entries are listed. -/
theorem discover_exact {files : FileSystem} {directory : Path} {listed : List Name}
    (hlist : files.list directory = .ok listed) :
  ∃ (found : List TestCase) (discovered : Bundle),
    discover files directory = .ok discovered
    ∧ discovered.files = found.map (fun testCase => directory.join testCase.name)
        ++ [directory.join (Bytes.ofString "metadata.xml")]
    ∧ (∀ index name, ⟨index, name⟩ ∈ found
        ↔ name ∈ listed ∧ Utf8.isValid name
          ∧ (∃ digits : Bytes, digits.IsNumeral ∧ name = testCaseName digits
            ∧ index = min digits.natValue (Nat.pow 2 64 - 1))
          ∧ files.isFile (directory.join name))
    ∧ found.Pairwise TestCase.Precedes
    ∧ discovered.files.Nodup
    ∧ ∀ names, names.Perm listed → bundle files directory names = discovered
  := by
  have hnodup := FileSystem.nodup_of_list hlist
  use testCases files directory listed, bundle files directory listed, discover_of_list hlist, rfl
  constructor
  · intro index name
    rw [mem_testCases, index?_eq_some_iff_numeral]
  · use pairwise_testCases hnodup, nodup_files_bundle hnodup
    intro names hperm
    apply bundle_eq_of_perm hperm

theorem discover_exact_linkedWorld :
  linkedWorld.files.list Path.selfName = .ok linkedNames
    ∧ ∃ discovered, discover linkedWorld.files Path.selfName = .ok discovered
      ∧ discovered.files
        = ["./testcase-02.xml", "./testcase-2.xml", "./testcase-10.xml", "./metadata.xml"].map
          Bytes.ofString
      ∧ discovered.files.Nodup
      ∧ bundle linkedWorld.files Path.selfName linkedNames.reverse = discovered
  := by
  have hlist : linkedWorld.files.list Path.selfName = .ok linkedNames := rfl
  obtain ⟨found, discovered, hdiscover, -, -, -, hnodup, hperm⟩ := discover_exact hlist
  refine ⟨hlist, discovered, hdiscover, ?_, hnodup, hperm _ (List.reverse_perm linkedNames)⟩
  rw [← hperm linkedNames (.refl linkedNames), bundle, testCases_linkedWorld]
  rfl

/-! ### Numbers of test cases -/

/-- The path of the test case with a numeral in a directory. -/
def testCasePath (directory : Path) (digits : Bytes) : Path :=
  directory.join (testCaseName digits)

theorem isValid_testCaseName {digits : Bytes} (h : digits.IsNumeral) :
  Utf8.isValid (testCaseName digits)
  := by
  have hbeginning : (Bytes.ofString "testcase-").all (decide <| ·.toNat < 0x80) := by decide
  have hending : (Bytes.ofString ".xml").all (decide <| ·.toNat < 0x80) := by decide
  apply Utf8.isValid_of_forall_lt
  intro b hb
  rw [testCaseName, List.mem_append, List.mem_append] at hb
  obtain (hb | hb) | hb := hb
  · apply of_decide_eq_true (List.all_eq_true.mp hbeginning b hb)
  · have hdigit := Bytes.isDigit_iff.mp (h.2 b hb)
    omega
  · apply of_decide_eq_true (List.all_eq_true.mp hending b hb)

section Numbers

variable {files : FileSystem} {directory : Path} {listed : List Name} {digits digits' : Bytes}
  (hlist : files.list directory = .ok listed)

include hlist

/-- A regular file with the name of a test case is one. -/
theorem mem_testCases_of_isFile (hnumeral : digits.IsNumeral)
    (hfile : files.isFile (testCasePath directory digits)) :
  ⟨min digits.natValue (Nat.pow 2 64 - 1), testCaseName digits⟩ ∈ testCases files directory listed
  := by
  have hindex : index? (testCaseName digits) = some (min digits.natValue (Nat.pow 2 64 - 1)) :=
    index?_eq_some_iff_numeral.mpr ⟨digits, hnumeral, rfl, rfl⟩
  have hlisted : testCaseName digits ∈ listed :=
    FileSystem.mem_of_isFile hlist (isPlain_of_index? (Option.isSome_of_eq_some hindex)) hfile
  rw [mem_testCases]
  exact ⟨hlisted, isValid_testCaseName hnumeral, hindex, hfile⟩

theorem sublist_files_bundle {first second : TestCase}
    (hfirst : first ∈ testCases files directory listed)
    (hsecond : second ∈ testCases files directory listed) (h : first.Precedes second) :
  [directory.join first.name, directory.join second.name].Sublist
    (bundle files directory listed).files
  := by
  have hpair := pair_sublist_of_pairwise TestCase.Precedes.asymm
    (pairwise_testCases (FileSystem.nodup_of_list hlist)) hfirst hsecond h
  apply (hpair.map fun testCase => directory.join testCase.name).trans
  apply List.sublist_append_left

/-- Test cases are discovered in the order of their numbers if the smaller number is below the
greatest index, or if both numerals have the same length. From the greatest index on they both have
that index, and they are discovered in the order of their names. -/
theorem discover_by_number (hnumeral : digits.IsNumeral) (hnumeral' : digits'.IsNumeral)
    (hfile : files.isFile (testCasePath directory digits))
    (hfile' : files.isFile (testCasePath directory digits'))
    (hlt : digits.natValue < digits'.natValue) :
  ∃ discovered, discover files directory = .ok discovered ∧ discovered.files.Nodup
    ∧ (digits.natValue < Nat.pow 2 64 - 1 ∨ digits.length = digits'.length →
        [testCasePath directory digits, testCasePath directory digits'].Sublist discovered.files)
    ∧ (Nat.pow 2 64 - 1 ≤ digits.natValue →
        ⟨Nat.pow 2 64 - 1, testCaseName digits⟩ ∈ testCases files directory listed
        ∧ ⟨Nat.pow 2 64 - 1, testCaseName digits'⟩ ∈ testCases files directory listed
        ∧ (testCaseName digits < testCaseName digits' →
          [testCasePath directory digits, testCasePath directory digits'].Sublist discovered.files)
        ∧ (testCaseName digits' < testCaseName digits →
          [testCasePath directory digits', testCasePath directory digits].Sublist
            discovered.files))
  := by
  have hmem := mem_testCases_of_isFile hlist hnumeral hfile
  have hmem' := mem_testCases_of_isFile hlist hnumeral' hfile'
  use bundle files directory listed, discover_of_list hlist,
    nodup_files_bundle (FileSystem.nodup_of_list hlist)
  constructor
  · intro horder
    apply sublist_files_bundle hlist hmem hmem'
    by_cases hbound : digits.natValue < Nat.pow 2 64 - 1
    · left
      apply lt_min
      · apply (Nat.min_le_left _ _).trans_lt hlt
      · apply (Nat.min_le_left _ _).trans_lt hbound
    · -- Both have the greatest index, and the names decide.
      right
      have hle := Nat.not_lt.mp hbound
      have hlength := horder.resolve_left hbound
      rw [Nat.min_eq_right hle, Nat.min_eq_right (hle.trans hlt.le)]
      refine ⟨rfl, ?_⟩
      rw [testCaseName, testCaseName, List.append_assoc, List.append_assoc]
      apply List.append_left_lt
      apply Bytes.append_lt_append_of_foldl_lt hnumeral'.2 hlength hlt
  · intro hle
    rw [Nat.min_eq_right hle] at hmem
    rw [Nat.min_eq_right (hle.trans hlt.le)] at hmem'
    refine ⟨hmem, hmem', ?_, ?_⟩
    · intro hname
      apply sublist_files_bundle hlist hmem hmem' (.inr ⟨rfl, hname⟩)
    · intro hname
      apply sublist_files_bundle hlist hmem' hmem (.inr ⟨rfl, hname⟩)

end Numbers

namespace Bundle.Sample

/-- The numeral of a number beyond the greatest index. -/
def nines : Bytes :=
  Bytes.ofString "99999999999999999999"

/-- The numeral of the next number, which is longer. -/
def power : Bytes :=
  Bytes.ofString "100000000000000000000"

/-- The numeral of a small number. -/
def seven : Bytes :=
  Bytes.ofString "07"

/-- A directory with a test case for each of the three. -/
def hugeWorld : World :=
  worldWith [("testcase-99999999999999999999.xml", .file (.data [0x61]) false),
    ("testcase-100000000000000000000.xml", .file (.data [0x62]) false),
    ("testcase-07.xml", .file (.data [0x63]) false)]

/-- The entries of that directory as they are listed. -/
def hugeNames : List Name :=
  ["testcase-07.xml", "testcase-100000000000000000000.xml",
    "testcase-99999999999999999999.xml"].map Bytes.ofString

theorem list_hugeWorld :
  hugeWorld.files.list Path.selfName = .ok hugeNames
  := rfl

theorem isNumeral_all :
  seven.IsNumeral ∧ nines.IsNumeral ∧ power.IsNumeral
  := by decide

theorem isFile_hugeWorld :
  hugeWorld.files.isFile (testCasePath Path.selfName seven)
    ∧ hugeWorld.files.isFile (testCasePath Path.selfName nines)
    ∧ hugeWorld.files.isFile (testCasePath Path.selfName power)
  := by decide

theorem natValue_lt :
  seven.natValue < nines.natValue ∧ nines.natValue < power.natValue
  := by decide

theorem testCases_hugeWorld :
  testCases hugeWorld.files Path.selfName hugeNames
    = [⟨7, testCaseName seven⟩, ⟨Nat.pow 2 64 - 1, testCaseName power⟩,
      ⟨Nat.pow 2 64 - 1, testCaseName nines⟩]
  := by
  have hfound : hugeNames.filterMap (testCase? hugeWorld.files Path.selfName)
      = [⟨7, testCaseName seven⟩, ⟨Nat.pow 2 64 - 1, testCaseName power⟩,
        ⟨Nat.pow 2 64 - 1, testCaseName nines⟩] := by decide +kernel
  rw [testCases, hfound]
  apply List.mergeSort_of_pairwise
  decide

end Bundle.Sample

open Bundle.Sample in
theorem discover_by_number_hugeWorld :
  hugeWorld.files.list Path.selfName = .ok hugeNames
    ∧ seven.natValue < nines.natValue
    ∧ ∃ discovered, discover hugeWorld.files Path.selfName = .ok discovered
      ∧ [testCasePath Path.selfName seven, testCasePath Path.selfName nines].Sublist
          discovered.files
      ∧ [testCasePath Path.selfName power, testCasePath Path.selfName nines].Sublist
          discovered.files
  := by
  obtain ⟨hseven, hnines, hpower⟩ := isNumeral_all
  obtain ⟨hseven', hnines', hpower'⟩ := isFile_hugeWorld
  obtain ⟨hsmall, hgreat⟩ := natValue_lt
  obtain ⟨discovered, hdiscover, -, hnumbers, -⟩ :=
    discover_by_number list_hugeWorld hseven hnines hseven' hnines' hsmall
  obtain ⟨discovered', hdiscover', -, -, hnames⟩ :=
    discover_by_number list_hugeWorld hnines hpower hnines' hpower' hgreat
  cases Except.ok.inj (hdiscover.symm.trans hdiscover')
  refine ⟨list_hugeWorld, hsmall, discovered, hdiscover, hnumbers (.inl (by decide)), ?_⟩
  apply (hnames (by decide)).2.2.2
  decide

open Bundle.Sample in
/-- Of two test cases beyond the greatest index, the one with the greater number can come first. -/
theorem discover_hugeWorld :
  nines.IsNumeral ∧ power.IsNumeral
    ∧ hugeWorld.files.isFile (testCasePath Path.selfName nines)
    ∧ hugeWorld.files.isFile (testCasePath Path.selfName power)
    ∧ nines.natValue < power.natValue
    ∧ ∃ discovered, discover hugeWorld.files Path.selfName = .ok discovered
      ∧ ¬ [testCasePath Path.selfName nines, testCasePath Path.selfName power].Sublist
          discovered.files
  := by
  refine ⟨isNumeral_all.2.1, isNumeral_all.2.2, isFile_hugeWorld.2.1, isFile_hugeWorld.2.2,
    natValue_lt.2, _, discover_of_list list_hugeWorld, ?_⟩
  rw [bundle, testCases_hugeWorld]
  decide

end Evidence

end Proctor
