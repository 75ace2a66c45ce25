import Proctor.Sequence

/-!
# Occurrence and pieces

What the search for a pattern may skip, and how the pieces of a list between separators behave when
lists are put together. A pattern that has no separator is found in a list exactly if it is found in
one of the pieces, and it does not matter whether one separator or several stand between two pieces.
-/

namespace Proctor.Sequence

variable {α : Type}

/-! ### Occurrence -/

/-- An element that a pattern does not have can be skipped in the search for the pattern. -/
theorem infix_cons_iff_of_not_mem {pattern list : List α} {a : α} (hne : pattern ≠ [])
    (ha : a ∉ pattern) :
  pattern <:+: a :: list ↔ pattern <:+: list
  := by
  rw [List.infix_cons_iff, List.prefix_cons_iff]
  constructor
  · rintro ((rfl | ⟨rest, rfl, -⟩) | h)
    · contradiction
    · exact absurd List.mem_cons_self ha
    · apply h
  · intro h
    right
    apply h

/-- Elements that a pattern does not have can be skipped in the search for the pattern. -/
theorem infix_append_iff_of_not_mem {pattern skipped list : List α} (hne : pattern ≠ [])
    (hskipped : ∀ a ∈ skipped, a ∉ pattern) :
  pattern <:+: skipped ++ list ↔ pattern <:+: list
  := by
  induction skipped with
  | nil => rfl
  | cons a skipped ih =>
      obtain ⟨ha, hrest⟩ := List.forall_mem_cons.mp hskipped
      rw [List.cons_append, infix_cons_iff_of_not_mem hne ha, ih hrest]

/-- A pattern without a separator cannot begin before it and end after it. -/
theorem prefix_append_cons_iff_of_not_mem {pattern first second : List α} {separator : α}
    (h : separator ∉ pattern) :
  pattern <+: first ++ separator :: second ↔ pattern <+: first
  := by
  induction first generalizing pattern with
  | nil =>
      cases pattern with
      | nil => simp
      | cons b pattern =>
          rw [List.nil_append, List.cons_prefix_cons, List.prefix_nil]
          constructor
          · rintro ⟨rfl, -⟩
            exact absurd List.mem_cons_self h
          · intro hnil
            cases hnil
  | cons a first ih =>
      cases pattern with
      | nil => simp
      | cons b pattern =>
          rw [List.cons_append, List.cons_prefix_cons, List.cons_prefix_cons,
            ih (List.not_mem_of_not_mem_cons h)]

/-- A pattern without a separator occurs before it or after it. -/
theorem infix_append_cons_iff_of_not_mem {pattern first second : List α} {separator : α}
    (h : separator ∉ pattern) :
  pattern <:+: first ++ separator :: second ↔ pattern <:+: first ∨ pattern <:+: second
  := by
  induction first with
  | nil =>
      by_cases hne : pattern = []
      · simp [hne]
      · rw [List.nil_append, infix_cons_iff_of_not_mem hne h, List.infix_nil, or_iff_right hne]
  | cons a first ih =>
      rw [List.cons_append, List.infix_cons_iff, List.infix_cons_iff, ih, ← List.cons_append,
        prefix_append_cons_iff_of_not_mem h, or_assoc]

/-! ### Codes -/

/-- If none of a family of lists begins another, the lists can be told apart whatever follows
them. -/
theorem append_eq_append_iff_of_prefixFree {ι : Type} {code : ι → List α}
    (hcode : ∀ i j, code i <+: code j → i = j) {i j : ι} {rest rest' : List α} :
  code i ++ rest = code j ++ rest' ↔ i = j ∧ rest = rest'
  := by
  constructor
  · intro h
    -- Both are beginnings of the same list, so the shorter one begins the longer one.
    have hindex : i = j := by
      obtain hle | hle := Nat.le_total (code i).length (code j).length
      · apply hcode i j
        apply List.prefix_of_prefix_length_le (List.prefix_append _ rest) _ hle
        rw [h]
        apply List.prefix_append
      · symm
        apply hcode j i
        apply List.prefix_of_prefix_length_le (List.prefix_append _ rest') _ hle
        rw [← h]
        apply List.prefix_append
    subst hindex
    exact ⟨rfl, List.append_cancel_left h⟩
  · rintro ⟨rfl, rfl⟩
    rfl

/-! ### Replacement -/

/-- A list becomes another one when `new` is put in the place of some occurrences of `old`. -/
inductive Replaces (old new : List α) : List α → List α → Prop
  | nil : Replaces old new [] []
  | keep (a : α) {list list' : List α} :
      Replaces old new list list' → Replaces old new (a :: list) (a :: list')
  | replace {list list' : List α} :
      Replaces old new list list' → Replaces old new (old ++ list) (new ++ list')

/-- A pattern that lacks the first elements of a list begins the list only if it is empty. -/
theorem prefix_append_iff_of_not_mem {pattern skipped list : List α} (hne : skipped ≠ [])
    (hskipped : ∀ a ∈ skipped, a ∉ pattern) :
  pattern <+: skipped ++ list ↔ pattern = []
  := by
  obtain ⟨a, skipped, rfl⟩ := List.exists_cons_of_ne_nil hne
  rw [List.cons_append, List.prefix_cons_iff, or_iff_left]
  rintro ⟨rest, rfl, -⟩
  apply hskipped a List.mem_cons_self List.mem_cons_self

section Replaces

variable {old new list list' : List α} (hold : old ≠ []) (hnew : new ≠ [])
  (h : Replaces old new list list')

include hold hnew h

theorem Replaces.prefix_iff {pattern : List α} (holds : ∀ a ∈ old, a ∉ pattern)
    (hnews : ∀ a ∈ new, a ∉ pattern) :
  pattern <+: list' ↔ pattern <+: list
  := by
  induction h generalizing pattern with
  | nil => rfl
  | keep a _ ih =>
      cases pattern with
      | nil => simp
      | cons b pattern =>
          rw [List.cons_prefix_cons, List.cons_prefix_cons, ih]
          · intro c hc
            apply List.not_mem_of_not_mem_cons (holds c hc)
          · intro c hc
            apply List.not_mem_of_not_mem_cons (hnews c hc)
  | replace =>
      rw [prefix_append_iff_of_not_mem hold holds, prefix_append_iff_of_not_mem hnew hnews]

/-- Where nothing that a pattern has is taken away or put in, and something stays between what stood
before and after, the pattern occurs exactly if it did. -/
theorem Replaces.infix_iff {pattern : List α} (hne : pattern ≠ []) (holds : ∀ a ∈ old, a ∉ pattern)
    (hnews : ∀ a ∈ new, a ∉ pattern) :
  pattern <:+: list' ↔ pattern <:+: list
  := by
  induction h with
  | nil => rfl
  | keep a h ih =>
      rw [List.infix_cons_iff, List.infix_cons_iff, ih,
        (Replaces.keep a h).prefix_iff hold hnew holds hnews]
  | replace _ ih =>
      rw [infix_append_iff_of_not_mem hne holds, infix_append_iff_of_not_mem hne hnews, ih]

end Replaces

/-! ### Beginnings that are dropped -/

/-- What is left after a beginning was dropped does not begin with an element that is dropped. -/
theorem eq_false_of_mem_head?_dropWhile {p : α → Bool} {list : List α} {a : α}
    (h : a ∈ (list.dropWhile p).head?) :
  p a = false
  := by
  have hhead := List.head?_dropWhile_not p list
  rwa [Option.mem_def.mp h] at hhead

theorem dropWhile_eq_self {p : α → Bool} {list : List α} (h : ∀ a ∈ list.head?, p a = false) :
  list.dropWhile p = list
  := by
  cases list with
  | nil => rfl
  | cons a list =>
      apply List.dropWhile_cons_of_neg
      rw [h a rfl]
      apply Bool.false_ne_true

/-! ### Pieces -/

theorem splitAux_eq [BEq α] (separator : α) (list piece : List α) (pieces : List (List α)) :
  splitAux separator list piece pieces = pieces.reverse ++ splitAux separator list piece []
  := by
  induction list generalizing piece pieces with
  | nil => simp [splitAux]
  | cons a list ih =>
      simp only [splitAux]
      split
      · rw [ih, ih [] [piece.reverse]]
        simp
      · apply ih

theorem infix_of_mem_splitAux [BEq α] {separator : α} {list piece found : List α}
    (h : found ∈ splitAux separator list piece []) :
  found <:+: piece.reverse ++ list
  := by
  induction list generalizing piece with
  | nil =>
      obtain rfl : found = piece.reverse := by simpa [splitAux] using h
      apply List.infix_append []
  | cons a list ih =>
      rw [splitAux] at h
      split at h
      · rw [splitAux_eq, List.mem_append] at h
        obtain hpiece | hrest := h
        · obtain rfl : found = piece.reverse := by simpa using hpiece
          apply List.infix_append []
        · apply (ih hrest).trans
          apply List.IsSuffix.isInfix ⟨piece.reverse ++ [a], by simp⟩
      · have hrest := ih h
        rwa [List.reverse_cons, List.append_assoc, List.singleton_append] at hrest

/-- The pieces of a list occur in it. -/
theorem infix_of_mem_splitOn [BEq α] {separator : α} {list piece : List α}
    (h : piece ∈ splitOn separator list) :
  piece <:+: list
  := infix_of_mem_splitAux h

section Pieces

variable [BEq α] [LawfulBEq α] (separator : α)

theorem splitAux_append (list rest piece : List α) (pieces : List (List α)) :
  splitAux separator (list ++ separator :: rest) piece pieces
    = splitAux separator rest [] (splitAux separator list piece pieces).reverse
  := by
  induction list generalizing piece pieces with
  | nil => simp [splitAux]
  | cons a list ih =>
      simp only [List.cons_append, splitAux]
      split <;> apply ih

/-- The pieces before a separator come before those after it. -/
theorem splitOn_append (list rest : List α) :
  splitOn separator (list ++ separator :: rest) = splitOn separator list ++ splitOn separator rest
  := by
  rw [splitOn, splitAux_append, splitAux_eq, List.reverse_reverse]
  rfl

theorem splitAux_of_not_mem {list : List α} (h : separator ∉ list) (piece : List α)
    (pieces : List (List α)) :
  splitAux separator list piece pieces = ((piece.reverse ++ list) :: pieces).reverse
  := by
  induction list generalizing piece with
  | nil => simp [splitAux]
  | cons a list ih =>
      have hne : ¬ (a == separator) = true := by
        rw [beq_iff_eq]
        rintro rfl
        apply h List.mem_cons_self
      rw [splitAux, if_neg hne, ih (List.not_mem_of_not_mem_cons h)]
      simp

/-- A list without separators is a single piece. -/
theorem splitOn_of_not_mem {list : List α} (h : separator ∉ list) :
  splitOn separator list = [list]
  := splitAux_of_not_mem separator h [] []

/-- While a list is read, a pattern without a separator occurs in one of the pieces exactly if it
occurs in the piece being read together with what is still to be read. -/
theorem exists_mem_splitAux_iff {pattern : List α} (h : separator ∉ pattern)
    (list piece : List α) :
  (∃ found ∈ splitAux separator list piece [], pattern <:+: found)
    ↔ pattern <:+: piece.reverse ++ list
  := by
  induction list generalizing piece with
  | nil => simp [splitAux]
  | cons a list ih =>
      rw [splitAux]
      split
      · next ha =>
        obtain rfl := eq_of_beq ha
        -- The piece being read is complete, and the rest is read as a list of its own.
        have hrest := ih []
        rw [List.reverse_nil, List.nil_append] at hrest
        rw [splitAux_eq, infix_append_cons_iff_of_not_mem h, ← hrest]
        simp
      · rw [ih, List.reverse_cons, List.append_assoc, List.singleton_append]

/-- A pattern without a separator occurs in a list exactly if it occurs in one of its pieces. -/
theorem exists_mem_splitOn_iff {pattern : List α} (h : separator ∉ pattern) (list : List α) :
  (∃ piece ∈ splitOn separator list, pattern <:+: piece) ↔ pattern <:+: list
  := exists_mem_splitAux_iff separator h list []

end Pieces

/-- Separators between pieces are separators before all pieces but the first. -/
theorem intercalate_cons (separator : α) (piece : List α) (pieces : List (List α)) :
  [separator].intercalate (piece :: pieces) = piece ++ pieces.flatMap (separator :: ·)
  := by
  induction pieces generalizing piece with
  | nil => rw [List.intercalate_singleton, List.flatMap_nil, List.append_nil]
  | cons next pieces ih =>
      rw [List.intercalate_cons_cons, ih, List.flatMap_cons, List.append_assoc]
      rfl

end Proctor.Sequence
