import Mathlib.Data.List.TakeWhile
import Mathlib.Tactic.Use
import Proctor.Proofs.Sequence
import Proctor.Text.Blank

/-!
# Trimming

A text consists of a core, which neither begins nor ends with a blank character, and of blank
characters around it. The core is determined by the text, and it is what trimming leaves.
-/

namespace Proctor.Text

/-- The core of a text: what it has between blank characters, if that neither begins nor ends with
one. -/
structure IsCore (text core : List Char) : Prop where
  exists_blanks : ∃ before after, text = before ++ core ++ after
    ∧ (∀ c ∈ before, isBlank c) ∧ ∀ c ∈ after, isBlank c
  head : ∀ c ∈ core.head?, isBlank c = false
  last : ∀ c ∈ core.getLast?, isBlank c = false

/-! ### The end of a text -/

theorem exists_append_trimEnd (text : List Char) :
  ∃ after, text = trimEnd text ++ after ∧ ∀ c ∈ after, isBlank c
  := by
  use (text.reverse.takeWhile isBlank).reverse
  constructor
  · rw [trimEnd, ← List.reverse_append, List.takeWhile_append_dropWhile, List.reverse_reverse]
  · intro c hc
    apply List.mem_takeWhile_imp (List.mem_reverse.mp hc)

theorem eq_false_of_mem_getLast?_trimEnd {text : List Char} {c : Char}
    (h : c ∈ (trimEnd text).getLast?) :
  isBlank c = false
  := by
  rw [trimEnd, List.getLast?_reverse] at h
  apply Sequence.eq_false_of_mem_head?_dropWhile h

/-- Blank characters at the end of a text are removed, and nothing before them. -/
theorem trimEnd_append {core after : List Char} (hlast : ∀ c ∈ core.getLast?, isBlank c = false)
    (hafter : ∀ c ∈ after, isBlank c) :
  trimEnd (core ++ after) = core
  := by
  rw [trimEnd, List.reverse_append, List.dropWhile_append_of_pos, Sequence.dropWhile_eq_self,
    List.reverse_reverse]
  · rwa [List.head?_reverse]
  · intro c hc
    apply hafter c (List.mem_reverse.mp hc)

/-! ### Both ends -/

theorem isCore_trim (text : List Char) :
  IsCore text (trim text)
  := by
  obtain ⟨after, hafter, hblank⟩ := exists_append_trimEnd (text.dropWhile isBlank)
  rw [← trim] at hafter
  constructor
  · use text.takeWhile isBlank, after
    rw [List.append_assoc, ← hafter, List.takeWhile_append_dropWhile]
    exact ⟨rfl, fun c => List.mem_takeWhile_imp, hblank⟩
  · intro c hc
    apply Sequence.eq_false_of_mem_head?_dropWhile
    rw [hafter, List.head?_append, Option.mem_def.mp hc]
    rfl
  · intro c hc
    apply eq_false_of_mem_getLast?_trimEnd hc

theorem IsCore.eq_trim {text core : List Char} (h : IsCore text core) :
  core = trim text
  := by
  obtain ⟨⟨before, after, rfl, hbefore, hafter⟩, hhead, hlast⟩ := h
  rw [trim, List.append_assoc, List.dropWhile_append_of_pos hbefore]
  cases core with
  | nil =>
      -- Without a core everything is dropped at the beginning already.
      rw [List.nil_append, List.dropWhile_eq_nil_iff.mpr hafter]
      rfl
  | cons c core =>
      rw [Sequence.dropWhile_eq_self, trimEnd_append hlast hafter]
      apply hhead

/-- A text has exactly one core. -/
theorem isCore_iff {text core : List Char} :
  IsCore text core ↔ core = trim text
  := by
  constructor
  · apply IsCore.eq_trim
  · rintro rfl
    apply isCore_trim

end Proctor.Text
