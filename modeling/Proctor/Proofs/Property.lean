import Mathlib.Tactic.SplitIfs
import Proctor.Proofs.Session.Laws
import Proctor.Proofs.Text.Transparency
import Proctor.Property

/-!
# Recognition of properties

The table of specifications has those for coverage before those for reachability, so that the first
match comes to an order of categories: a property file asks for coverage if any specification for
coverage occurs in it, and otherwise for reachability if one for reachability does. Where in the
file they stand does not matter. All specifications are ASCII, so that they can be looked for in the
bytes of the file, but a file is recognised only if all of its bytes are text.
-/

namespace Proctor.Property

/-- The specifications that ask for coverage. -/
def coverageTexts : List String :=
  ["COVER( init(main()), FQL(COVER EDGES(@DECISIONEDGE)) )",
    "COVER( init(main()), FQL(COVER EDGES(@CONDITIONEDGE)) )",
    "COVER( init(main()), FQL(COVER EDGES(@BASICBLOCKENTRY)) )"]

/-- The specifications that ask for reachability. -/
def reachabilityTexts : List String :=
  ["COVER( init(main()), FQL(COVER EDGES(@CALL(__VERIFIER_error))) )",
    "CHECK( init(main()), LTL(G ! call(__VERIFIER_error())) )"]

/-- One of some specifications occurs in a text. -/
def Mentions (specifications : List String) (text : List Char) : Prop :=
  ∃ specification ∈ specifications, specification.toList <:+: text

/-- The bytes of one of some specifications occur in a byte string. -/
def Occurs (specifications : List String) (bytes : Bytes) : Prop :=
  ∃ specification ∈ specifications, Bytes.ofString specification <:+: bytes

instance (specifications : List String) (text : List Char) :
    Decidable (Mentions specifications text) :=
  decidable_of_iff (specifications.any fun specification =>
    Sequence.occurs specification.toList text) (by simp [Mentions, Sequence.occurs_iff])

/-! ### The first match -/

/-- In a table of a single category the first match gives this category if there is a match. -/
theorem map_find?_eq (specifications : List String) (category : Category) (text : List Char) :
  ((specifications.map fun specification => (specification, category)).find? fun entry =>
      Sequence.occurs entry.1.toList text).map Prod.snd
    = if Mentions specifications text then some category else none
  := by
  rw [List.find?_map, Option.map_map]
  split
  · next hmentions =>
    obtain ⟨specification, hmem, hoccurs⟩ := hmentions
    obtain ⟨found, hfound⟩ := Option.isSome_iff_exists.mp
      (List.find?_isSome (p := fun specification => Sequence.occurs specification.toList text).mpr
        ⟨specification, hmem, Sequence.occurs_iff.mpr hoccurs⟩)
    apply Option.map_eq_some_iff.mpr ⟨found, hfound, rfl⟩
  · next hmentions =>
    rw [Option.map_eq_none_iff, List.find?_eq_none]
    intro specification hmem hoccurs
    apply hmentions ⟨specification, hmem, Sequence.occurs_iff.mp hoccurs⟩

/-- A text asks for coverage if it mentions it, and otherwise for reachability if it mentions
that. -/
theorem category?_eq (text : List Char) :
  category? text
    = if Mentions coverageTexts text then some .coverage
      else if Mentions reachabilityTexts text then some .reachability
      else none
  := by
  have htable : specifications
      = (coverageTexts.map fun specification => (specification, .coverage))
        ++ reachabilityTexts.map fun specification => (specification, .reachability) := rfl
  rw [category?, htable, List.find?_append, Option.map_or, map_find?_eq, map_find?_eq]
  split_ifs <;> rfl

theorem category_eq (text : List Char) :
  category text
    = if Mentions coverageTexts text then .ok .coverage
      else if Mentions reachabilityTexts text then .ok .reachability
      else .error .unsupportedProperty
  := by
  rw [category, category?_eq]
  split_ifs <;> rfl

/-! ### Parts of a text -/

theorem Mentions.append {specifications : List String} {text : List Char}
    (h : Mentions specifications text) (before after : List Char) :
  Mentions specifications (before ++ text ++ after)
  := by
  obtain ⟨specification, hmem, hinfix⟩ := h
  use specification, hmem
  apply hinfix.trans
  use before, after

theorem category_append_of_coverage {text : List Char} (h : category text = .ok .coverage)
    (before after : List Char) :
  category (before ++ text ++ after) = .ok .coverage
  := by
  rw [category_eq] at h ⊢
  split_ifs at h with hcoverage hreachability
  · rw [if_pos (hcoverage.append before after)]
  · cases h

theorem exists_category_append {text : List Char} {found : Category} (h : category text = .ok found)
    (before after : List Char) :
  ∃ category', category (before ++ text ++ after) = .ok category'
  := by
  simp only [category_eq] at h ⊢
  split_ifs at h with hcoverage hreachability
  · use .coverage
    rw [if_pos (hcoverage.append before after)]
  · by_cases hmore : Mentions coverageTexts (before ++ text ++ after)
    · use .coverage
      rw [if_pos hmore]
    · use .reachability
      rw [if_neg hmore, if_pos (hreachability.append before after)]

/-- Only which specifications a text mentions matters. -/
theorem category_congr {text text' : List Char}
    (h : ∀ specification ∈ coverageTexts ++ reachabilityTexts,
      specification.toList <:+: text ↔ specification.toList <:+: text') :
  category text = category text'
  := by
  have hmentions {specifications : List String}
      (hsubset : specifications ⊆ coverageTexts ++ reachabilityTexts) :
      Mentions specifications text ↔ Mentions specifications text' := by
    apply exists_congr
    intro specification
    apply and_congr_right
    intro hmem
    apply h specification (hsubset hmem)
  simp only [category_eq, hmentions (List.subset_append_left coverageTexts _),
    hmentions (List.subset_append_right _ reachabilityTexts)]

/-! ### Files -/

/-- A specification is a text of ASCII characters and not empty. -/
theorem isAscii_of_mem :
  ∀ specification ∈ coverageTexts ++ reachabilityTexts,
    specification.toList ≠ [] ∧ ∀ c ∈ specification.toList, Utf8.IsAscii c
  := by
  have hcheck : (coverageTexts ++ reachabilityTexts).all fun specification =>
      !specification.toList.isEmpty && specification.toList.all (decide <| Utf8.IsAscii ·) := by
    decide
  simpa only [List.all_eq_true, Bool.and_eq_true, Bool.not_eq_true', List.isEmpty_eq_false_iff,
    decide_eq_true_eq] using hcheck

theorem mentions_lossy_iff {specifications : List String}
    (hsubset : specifications ⊆ coverageTexts ++ reachabilityTexts) (bytes : Bytes) :
  Mentions specifications (Utf8.lossy bytes) ↔ Occurs specifications bytes
  := by
  apply exists_congr
  intro specification
  apply and_congr_right
  intro hmem
  obtain ⟨hne, hascii⟩ := isAscii_of_mem specification (hsubset hmem)
  apply Utf8.infix_lossy_iff hne hascii

/-- What a file of a given content asks for. -/
theorem ofFile_eq {files : FileSystem} {path : Path} {bytes : Bytes}
    (h : files.read path = .ok bytes) :
  ofFile files path
    = if Utf8.isValid bytes then category (Utf8.lossy bytes)
      else .error (.propertyUnreadable path .notText)
  := by
  rw [ofFile, FileSystem.readText, h]
  simp only [Utf8.decode?_eq]
  split_ifs <;> rfl

theorem runIn_resolve (world : World) (path : Path) :
  ((resolve path).runIn world).1 = ofFile world.files path
  := by
  simp only [resolve, Session.runIn_bind, Session.runIn_files, Session.runIn_liftM]
  cases ofFile world.files path with
  | error failure => rfl
  | ok category => rfl

/-- What a property file of any content asks for. It is coverage exactly if the content is text in
which a specification for coverage occurs, reachability exactly if it is text in which one for
reachability occurs and none for coverage, an unsupported property exactly if it is text in which no
specification occurs, and a file that cannot be read as text exactly if it is not text.

A text that has a part which asks for coverage asks for coverage as well, and a text that has a part
which is supported is itself supported. Two texts in which the same specifications occur, in any
order and any number of times, ask for the same. -/
theorem resolve_recognition {world : World} {path : Path} {bytes : Bytes}
    (hread : world.files.read path = .ok bytes) :
  (((resolve path).runIn world).1 = .ok .coverage
      ↔ Utf8.isValid bytes ∧ Occurs coverageTexts bytes)
    ∧ (((resolve path).runIn world).1 = .ok .reachability
      ↔ Utf8.isValid bytes ∧ ¬ Occurs coverageTexts bytes ∧ Occurs reachabilityTexts bytes)
    ∧ (((resolve path).runIn world).1 = .error .unsupportedProperty
      ↔ Utf8.isValid bytes ∧ ¬ Occurs coverageTexts bytes ∧ ¬ Occurs reachabilityTexts bytes)
    ∧ (((resolve path).runIn world).1 = .error (.propertyUnreadable path .notText)
      ↔ ¬ Utf8.isValid bytes)
    ∧ (∀ before text after, category text = .ok .coverage →
      category (before ++ text ++ after) = .ok .coverage)
    ∧ (∀ before text after found, category text = .ok found →
      ∃ found', category (before ++ text ++ after) = .ok found')
    ∧ ∀ text text', (∀ specification ∈ coverageTexts ++ reachabilityTexts,
        specification.toList <:+: text ↔ specification.toList <:+: text') →
      category text = category text'
  := by
  rw [runIn_resolve, ofFile_eq hread, category_eq,
    ← mentions_lossy_iff (List.subset_append_left coverageTexts _),
    ← mentions_lossy_iff (List.subset_append_right _ reachabilityTexts)]
  refine ⟨?_, ?_, ?_, ?_, ?_, ?_, ?_⟩
  · split_ifs <;> simp [*]
  · split_ifs <;> simp [*]
  · split_ifs <;> simp [*]
  · split_ifs <;> simp [*]
  · intro before text after h
    apply category_append_of_coverage h
  · intro before text after found h
    apply exists_category_append h
  · intro text text' h
    apply category_congr h

namespace Sample

/-- A world whose root has a property file of the given content. -/
def worldWith (content : Bytes) : World where
  files := (FileSystem.empty []).put (Location.root.enter (Bytes.ofString "property.prp"))
    (.file (.data content) false)

/-- The path of that property file. -/
def path : Path :=
  Bytes.ofString "property.prp"

/-- A content with a specification for reachability before one for coverage. -/
def both : Bytes :=
  Bytes.ofString ("CHECK( init(main()), LTL(G ! call(__VERIFIER_error())) )é"
    ++ "COVER( init(main()), FQL(COVER EDGES(@CONDITIONEDGE)) )")

end Sample

open Sample in
/-- Coverage is asked for although it comes last, but not if a byte that is not text follows. -/
theorem resolve_recognition_both :
  ((resolve path).runIn (worldWith both)).1 = .ok .coverage
    ∧ ((resolve path).runIn (worldWith (both ++ [0xFF]))).1
      = .error (.propertyUnreadable path .notText)
  := by
  have hread (content : Bytes) : (worldWith content).files.read path = .ok content := rfl
  constructor
  · apply (resolve_recognition (hread both)).1.mpr
    refine ⟨Utf8.isValid_ofString _, "COVER( init(main()), FQL(COVER EDGES(@CONDITIONEDGE)) )",
      by decide, ?_⟩
    rw [both, Bytes.ofString_append]
    apply (List.suffix_append ..).isInfix
  · apply (resolve_recognition (hread (both ++ [0xFF]))).2.2.2.1.mpr
    decide +kernel

end Proctor.Property
