import Mathlib.Tactic.IntervalCases
import Mathlib.Tactic.Use
import Proctor.Proofs.Settings.Grammar

/-!
# Skipping blanks and numbers

What the reader does with a text whose beginning is known: blanks are skipped up to the first
character that is none, digits up to the first that is none, and numbers up to whatever ends them.
Where exactly the reader stands after that does not matter for what it reads next, so that the
number of bytes before a place is only said to exist.
-/

namespace Proctor.Utf8

/-- ASCII characters are encoded by one byte each. -/
theorem encode_of_isAscii {text : List Char} (h : ∀ c ∈ text, IsAscii c) :
  encode text = text.map fun c => UInt8.ofNat c.toNat
  := by
  induction text with
  | nil => rfl
  | cons c text ih =>
      obtain ⟨hc, htext⟩ := List.forall_mem_cons.mp h
      rw [encode_cons_of_isAscii hc, ih htext, List.map_cons]

end Proctor.Utf8

namespace Proctor.Settings

open Json

/-! ### Places -/

namespace Cursor

/-- The place before a text, after some bytes. -/
def before (text : List Char) (offset : Nat) : Cursor :=
  ⟨Utf8.encode text, offset⟩

theorem skipWhile_before {p : UInt8 → Bool} {text rest : List Char}
    (htext : ∀ c ∈ text, Utf8.IsAscii c ∧ p (UInt8.ofNat c.toNat))
    (hrest : ∀ c ∈ rest.head?, Utf8.IsAscii c ∧ p (UInt8.ofNat c.toNat) = false) (offset : Nat) :
  ∃ after, (before (text ++ rest) offset).skipWhile p = before rest after
  := by
  have hdrop : (Utf8.encode (text ++ rest)).dropWhile p = Utf8.encode rest := by
    rw [Utf8.encode_append, List.dropWhile_append_of_pos, Sequence.dropWhile_eq_self]
    · intro b hb
      cases rest with
      | nil => cases hb
      | cons c rest =>
          obtain ⟨hc, hp⟩ := hrest c rfl
          rw [Utf8.encode_cons_of_isAscii hc, List.head?_cons, Option.mem_some_iff] at hb
          rwa [← hb]
    · rw [Utf8.encode_of_isAscii fun c hc => (htext c hc).1, List.forall_mem_map]
      intro c hc
      apply (htext c hc).2
  use offset + ((Utf8.encode (text ++ rest)).takeWhile p).length
  rw [skipWhile, before, hdrop, before]

/-- A character between tokens is skipped. -/
theorem isBlank_of_mem {c : Char} (h : c ∈ [' ', '\t', '\n', '\r']) :
  Utf8.IsAscii c ∧ isBlank (UInt8.ofNat c.toNat)
  := by
  simp only [List.mem_cons, List.not_mem_nil, or_false] at h
  rcases h with rfl | rfl | rfl | rfl <;> decide

/-- Blanks are skipped up to whatever else comes after them. -/
theorem skipBlanks_before (blanks : Blanks) {rest : List Char}
    (hrest : ∀ c ∈ rest.head?, Utf8.IsAscii c ∧ isBlank (UInt8.ofNat c.toNat) = false)
    (offset : Nat) :
  ∃ after, (before (blanks.text ++ rest) offset).skipBlanks = before rest after
  := by
  apply skipWhile_before _ hrest
  intro c hc
  apply isBlank_of_mem (blanks.isBlank c hc)

/-- A text that does not begin with a digit, and with no character beyond ASCII either. -/
def NoDigit (text : List Char) : Prop :=
  ∀ c ∈ text.head?, Utf8.IsAscii c ∧ ¬ Text.IsDigit c

theorem NoDigit.isDigit_eq_false {text : List Char} (h : NoDigit text) {c : Char}
    (hc : c ∈ text.head?) :
  Bytes.isDigit (UInt8.ofNat c.toNat) = false
  := by
  obtain ⟨hascii, hdigit⟩ := h c hc
  rwa [← Bool.not_eq_true, Bytes.isDigit_iff, Utf8.toNat_ofNat_of_isAscii hascii]

theorem NoDigit.any_head?_encode {text : List Char} (h : NoDigit text) :
  (Utf8.encode text).head?.any Bytes.isDigit = false
  := by
  cases text with
  | nil => rfl
  | cons c text =>
      rw [Utf8.encode_cons_of_isAscii (h c rfl).1]
      apply h.isDigit_eq_false rfl

/-- Digits are skipped up to whatever else comes after them. -/
theorem skipDigits_before {digits rest : List Char} (hdigits : ∀ c ∈ digits, Text.IsDigit c)
    (hrest : NoDigit rest) (offset : Nat) :
  ∃ after, (before (digits ++ rest) offset).skipWhile Bytes.isDigit = before rest after
  := by
  apply skipWhile_before
  · intro c hc
    exact ⟨(hdigits c hc).isAscii, (hdigits c hc).isDigit_ofNat⟩
  · intro c hc
    exact ⟨(hrest c hc).1, hrest.isDigit_eq_false hc⟩

end Cursor

open Cursor (before NoDigit)

/-! ### Numbers -/

/-- The characters that may follow a value within a bracket. -/
def delimiters : List Char :=
  [' ', '\t', '\n', '\r', ',', ']', '}']

/-- A text that begins with a character that may follow a value. -/
def Delimited (rest : List Char) : Prop :=
  ∃ c ∈ delimiters, ∃ more, rest = c :: more

/-- Digits do not begin with a byte of another kind. -/
theorem rest_ne_cons_of_isNumeral {digits rest : List Char} (h : Text.IsNumeral digits) {b : UInt8}
    (hb : Bytes.isDigit b = false) {bytes : Bytes} {offset : Nat} :
  (before (digits ++ rest) offset).rest ≠ b :: bytes
  := by
  obtain ⟨hne, hdigits⟩ := h
  obtain ⟨c, digits, rfl⟩ := List.exists_cons_of_ne_nil hne
  have hc := hdigits c List.mem_cons_self
  intro heq
  rw [before, List.cons_append, Utf8.encode_cons_of_isAscii hc.isAscii, List.cons.injEq] at heq
  rw [← heq.1, hc.isDigit_ofNat] at hb
  cases hb

/-- A sign is read, whether it is there or not. -/
theorem sign_before {signs digits : List Char} (hsign : signs ∈ [[], ['+'], ['-']])
    (hdigits : Text.IsNumeral digits) (rest : List Char) (offset : Nat) :
  ∃ isMinus after, sign (before (signs ++ (digits ++ rest)) offset)
    = (isMinus, before (digits ++ rest) after)
  := by
  simp only [List.mem_cons, List.not_mem_nil, or_false] at hsign
  rcases hsign with rfl | rfl | rfl
  · use false, offset
    rw [List.nil_append, sign]
    split
    · next heq => cases rest_ne_cons_of_isNumeral hdigits (by decide) heq
    · next heq => cases rest_ne_cons_of_isNumeral hdigits (by decide) heq
    · rfl
  · exact ⟨false, offset + 1, rfl⟩
  · exact ⟨true, offset + 1, rfl⟩

theorem Delimited.noDigit {rest : List Char} (h : Delimited rest) :
  NoDigit rest
  := by
  obtain ⟨c, hc, more, rfl⟩ := h
  intro c' hc'
  obtain rfl := Option.mem_some_iff.mp hc'
  simp only [delimiters, List.mem_cons, List.not_mem_nil, or_false] at hc
  rcases hc with rfl | rfl | rfl | rfl | rfl | rfl | rfl <;> decide

theorem skipExponent_before {signs digits rest : List Char} (hsign : signs ∈ [[], ['+'], ['-']])
    (hdigits : Text.IsNumeral digits) (hrest : Delimited rest) (offset : Nat) :
  ∃ after, skipExponent (before (signs ++ (digits ++ rest)) offset) = .ok (before rest after)
  := by
  obtain ⟨isMinus, start, hsign⟩ := sign_before hsign hdigits rest offset
  obtain ⟨hne, hdigits⟩ := hdigits
  obtain ⟨c, digits, rfl⟩ := List.exists_cons_of_ne_nil hne
  obtain ⟨hc, hdigits⟩ := List.forall_mem_cons.mp hdigits
  obtain ⟨after, hafter⟩ :=
    Cursor.skipDigits_before hdigits hrest.noDigit (start + 1)
  use after
  rw [skipExponent, hsign]
  simp only [before, List.cons_append, Utf8.encode_cons_of_isAscii hc.isAscii,
    if_pos hc.isDigit_ofNat]
  apply congrArg Except.ok hafter

theorem skipOptionalExponent_before {exponent rest : List Char} (h : IsExponent exponent)
    (hrest : Delimited rest) (offset : Nat) :
  ∃ after, skipOptionalExponent (before (exponent ++ rest) offset) = .ok (before rest after)
  := by
  cases h with
  | absent =>
      obtain ⟨c, hc, more, rfl⟩ := hrest
      use offset
      simp only [delimiters, List.mem_cons, List.not_mem_nil, or_false] at hc
      rcases hc with rfl | rfl | rfl | rfl | rfl | rfl | rfl <;> rfl
  | @present letter signs digits hletter hsign hdigits =>
      obtain ⟨after, hafter⟩ := skipExponent_before hsign hdigits hrest (offset + 1)
      use after
      rw [List.append_assoc, ← hafter]
      simp only [List.mem_cons, List.not_mem_nil, or_false] at hletter
      rcases hletter with rfl | rfl <;> rfl

/-- The place after what follows the digits before the point of a number. -/
def skipFraction (cursor : Cursor) : Except Mistake Cursor :=
  match cursor.rest with
  | 0x2E :: rest =>
    let fraction : Cursor := ⟨rest, cursor.offset + 1⟩
    if rest.head?.any Bytes.isDigit then
      skipOptionalExponent (fraction.skipWhile Bytes.isDigit)
    else fraction.ahead .invalidNumber
  | _ => skipOptionalExponent cursor

theorem skipUnsigned_cons (first : UInt8) (rest : Bytes) (offset : Nat) :
  skipUnsigned ⟨first :: rest, offset⟩
    = if !Bytes.isDigit first then Cursor.here ⟨rest, offset + 1⟩ .invalidNumber
      else if first = 0x30 && rest.head?.any Bytes.isDigit then
        Cursor.ahead ⟨rest, offset + 1⟩ .invalidNumber
      else skipFraction (if first = 0x30 then ⟨rest, offset + 1⟩
        else Cursor.skipWhile Bytes.isDigit ⟨rest, offset + 1⟩)
  := rfl

section Number

variable {fraction exponent rest : List Char} (hfraction : IsFraction fraction)
  (hexponent : IsExponent exponent) (hrest : Delimited rest)

include hexponent hrest

theorem noDigit_exponent :
  NoDigit (exponent ++ rest)
  := by
  cases hexponent with
  | absent => apply hrest.noDigit
  | present hletter =>
      intro c hc
      obtain rfl := Option.mem_some_iff.mp hc
      simp only [List.mem_cons, List.not_mem_nil, or_false] at hletter
      rcases hletter with rfl | rfl <;> decide

include hfraction

theorem noDigit_fraction :
  NoDigit (fraction ++ (exponent ++ rest))
  := by
  cases hfraction with
  | absent => apply noDigit_exponent hexponent hrest
  | present =>
      intro c hc
      obtain rfl := Option.mem_some_iff.mp hc
      decide

theorem skipFraction_before (offset : Nat) :
  ∃ after, skipFraction (before (fraction ++ (exponent ++ rest)) offset) = .ok (before rest after)
  := by
  cases hfraction with
  | absent =>
      -- Neither an exponent nor what follows a number begins with a point.
      obtain ⟨after, hafter⟩ := skipOptionalExponent_before hexponent hrest offset
      use after
      rw [List.nil_append, ← hafter]
      cases hexponent with
      | absent =>
          obtain ⟨c, hc, more, rfl⟩ := hrest
          simp only [delimiters, List.mem_cons, List.not_mem_nil, or_false] at hc
          rcases hc with rfl | rfl | rfl | rfl | rfl | rfl | rfl <;> rfl
      | present hletter =>
          simp only [List.mem_cons, List.not_mem_nil, or_false] at hletter
          rcases hletter with rfl | rfl <;> rfl
  | @present digits hdigits =>
      obtain ⟨hne, hdigits⟩ := hdigits
      obtain ⟨start, hstart⟩ :=
        Cursor.skipDigits_before hdigits (noDigit_exponent hexponent hrest) (offset + 1)
      obtain ⟨after, hafter⟩ := skipOptionalExponent_before hexponent hrest start
      obtain ⟨c, digits, rfl⟩ := List.exists_cons_of_ne_nil hne
      have hc := hdigits c List.mem_cons_self
      have hany : (Utf8.encode (c :: digits ++ (exponent ++ rest))).head?.any Bytes.isDigit := by
        rw [List.cons_append, Utf8.encode_cons_of_isAscii hc.isAscii]
        apply hc.isDigit_ofNat
      use after
      rw [← hafter, ← hstart]
      apply if_pos hany

theorem skipUnsigned_before {whole : List Char} (hwhole : Text.IsNumeral whole)
    (hzero : whole.head? = some '0' → whole = ['0']) (offset : Nat) :
  ∃ after, skipUnsigned (before (whole ++ (fraction ++ (exponent ++ rest))) offset)
    = .ok (before rest after)
  := by
  have hend := noDigit_fraction hfraction hexponent hrest
  obtain ⟨hne, hdigits⟩ := hwhole
  obtain ⟨c, digits, rfl⟩ := List.exists_cons_of_ne_nil hne
  obtain ⟨hc, hdigits⟩ := List.forall_mem_cons.mp hdigits
  have hread : before (c :: digits ++ (fraction ++ (exponent ++ rest))) offset
      = ⟨UInt8.ofNat c.toNat :: Utf8.encode (digits ++ (fraction ++ (exponent ++ rest))), offset⟩ :=
    congrArg (Cursor.mk · offset) (Utf8.encode_cons_of_isAscii hc.isAscii _)
  rw [hread, skipUnsigned_cons, hc.isDigit_ofNat, Bool.not_true, if_neg Bool.false_ne_true]
  by_cases hbyte : UInt8.ofNat c.toNat = 0x30
  · -- A zero stands alone before the point.
    obtain rfl : c = '0' := (Utf8.eq_ofNat_iff_of_isAscii hc.isAscii (by decide)).mpr hbyte
    obtain rfl : digits = [] := List.tail_eq_of_cons_eq (hzero rfl)
    obtain ⟨after, hafter⟩ := skipFraction_before hfraction hexponent hrest (offset + 1)
    use after
    rw [List.nil_append, hend.any_head?_encode, Bool.and_false, if_neg Bool.false_ne_true,
      if_pos hbyte]
    apply hafter
  · obtain ⟨start, hstart⟩ := Cursor.skipDigits_before hdigits hend (offset + 1)
    obtain ⟨after, hafter⟩ := skipFraction_before hfraction hexponent hrest start
    use after
    rw [decide_eq_false hbyte, Bool.false_and, if_neg Bool.false_ne_true, if_neg hbyte]
    rw [before] at hstart
    rw [hstart, hafter]

end Number

/-- A number is skipped, whatever follows it. -/
theorem skipNumber_before {text rest : List Char} (h : IsNumber text) (hrest : Delimited rest)
    (offset : Nat) :
  ∃ after, skipNumber (before (text ++ rest) offset) = .ok (before rest after)
  := by
  obtain ⟨hminus, hwhole, hzero, hfraction, hexponent⟩ := h
  simp only [List.append_assoc]
  simp only [List.mem_cons, List.not_mem_nil, or_false] at hminus
  rcases hminus with rfl | rfl
  · obtain ⟨after, hafter⟩ :=
      skipUnsigned_before hfraction hexponent hrest hwhole hzero offset
    use after
    rw [List.nil_append, ← hafter, skipNumber]
    split
    · next heq => cases rest_ne_cons_of_isNumeral hwhole (by decide) heq
    · rfl
  · apply skipUnsigned_before hfraction hexponent hrest hwhole hzero (offset + 1)

end Proctor.Settings
