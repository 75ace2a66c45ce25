/-!
# Sequences

Three operations on lists that the rest of the library is built on: whether one list occurs in
another as a contiguous run, the pieces of a list between separators, and what follows a given
beginning or precedes a given ending. They are stated for lists of any type, because bytes,
characters and command arguments are searched in the same way.
-/

namespace Proctor.Sequence

variable {α : Type}

/-- Whether `pattern` occurs in a list as a contiguous run. The empty pattern occurs everywhere. -/
def occurs [BEq α] (pattern : List α) : List α → Bool
  | [] => pattern.isEmpty
  | a :: rest => pattern.isPrefixOf (a :: rest) || occurs pattern rest

/-- The pieces of `list` between the elements equal to `separator`, after the pieces already
read; the piece being read and the pieces already read are in reverse order. -/
def splitAux [BEq α] (separator : α) : (list piece : List α) → (pieces : List (List α)) →
    List (List α)
  | [], piece, pieces => (piece.reverse :: pieces).reverse
  | a :: rest, piece, pieces =>
    if a == separator then splitAux separator rest [] (piece.reverse :: pieces)
    else splitAux separator rest (a :: piece) pieces

/-- The pieces of a list between the elements equal to `separator`, one more than there are such
elements. -/
def splitOn [BEq α] (separator : α) (list : List α) : List (List α) :=
  splitAux separator list [] []

/-- What follows `beginning` in a list that begins with it. -/
def dropBeginning? [BEq α] : (beginning list : List α) → Option (List α)
  | [], list => some list
  | _ :: _, [] => none
  | b :: beginning, a :: list => if b == a then dropBeginning? beginning list else none

/-- What precedes `ending` in a list that ends with it. -/
def dropEnding? [BEq α] (ending list : List α) : Option (List α) :=
  (dropBeginning? ending.reverse list.reverse).map List.reverse

/-! ### Occurrence -/

theorem occurs_iff [BEq α] [LawfulBEq α] {pattern list : List α} :
  occurs pattern list = true ↔ pattern <:+: list
  := by
  induction list with
  | nil => simp [occurs]
  | cons a rest ih => simp [occurs, ih, List.infix_cons_iff]

@[simp] theorem occurs_nil_left [BEq α] [LawfulBEq α] (list : List α) :
  occurs [] list = true
  := occurs_iff.2 List.nil_infix

/-! ### Beginnings and endings -/

theorem dropBeginning?_eq_some_iff [BEq α] [LawfulBEq α] {beginning list rest : List α} :
  dropBeginning? beginning list = some rest ↔ list = beginning ++ rest
  := by
  induction beginning generalizing list with
  | nil => simp [dropBeginning?]
  | cons b beginning ih =>
    cases list with
    | nil => simp [dropBeginning?]
    | cons a list =>
      by_cases h : b = a
      · simp [dropBeginning?, h, ih]
      · simp [dropBeginning?, h, Ne.symm h]

theorem dropEnding?_eq_some_iff [BEq α] [LawfulBEq α] {ending list rest : List α} :
  dropEnding? ending list = some rest ↔ list = rest ++ ending
  := by
  simp only [dropEnding?, Option.map_eq_some_iff, dropBeginning?_eq_some_iff]
  constructor
  · rintro ⟨r, h, rfl⟩
    rw [← List.reverse_reverse list, h]
    simp
  · rintro rfl
    exact ⟨rest.reverse, by simp, by simp⟩

end Proctor.Sequence
