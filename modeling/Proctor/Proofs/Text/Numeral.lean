import Mathlib.Data.List.TakeWhile
import Mathlib.Data.Nat.Digits.Defs
import Mathlib.Tactic.IntervalCases
import Proctor.Proofs.Sequence
import Proctor.Proofs.Text.Encoding

/-!
# Numerals

A numeral is a text of decimal digits, and it denotes a number in base ten. Zeros that it begins
with do not count, and but for them a number has only one numeral. The bytes of a numeral are digits
again and denote the same number, and every byte string of digits comes from a numeral.
-/

namespace Proctor.Text

/-- A decimal digit. -/
def IsDigit (c : Char) : Prop :=
  '0' ≤ c ∧ c ≤ '9'

instance : DecidablePred IsDigit :=
  fun c => inferInstanceAs (Decidable ('0' ≤ c ∧ c ≤ '9'))

/-- A text of decimal digits, of which there is at least one. -/
def IsNumeral (digits : List Char) : Prop :=
  digits ≠ [] ∧ ∀ c ∈ digits, IsDigit c

/-- The number that a digit denotes. -/
def digitValue (c : Char) : Nat :=
  c.toNat - '0'.toNat

/-- The number that a text of digits denotes in base ten. -/
def value (digits : List Char) : Nat :=
  Nat.ofDigits 10 (digits.reverse.map digitValue)

/-! ### Digits -/

theorem isDigit_iff_toNat {c : Char} :
  IsDigit c ↔ 0x30 ≤ c.toNat ∧ c.toNat ≤ 0x39
  := Iff.rfl

theorem isDigit_iff {c : Char} :
  IsDigit c ↔ c.isDigit
  := by
  simp only [Char.isDigit, Bool.and_eq_true, decide_eq_true_eq]
  rfl

theorem isNumeral_iff {digits : List Char} :
  IsNumeral digits ↔ (digits.isEmpty || !digits.all Char.isDigit) = false
  := by
  simp [IsNumeral, isDigit_iff]

instance : DecidablePred IsNumeral :=
  fun _ => decidable_of_iff _ isNumeral_iff.symm

theorem IsDigit.isAscii {c : Char} (h : IsDigit c) :
  Utf8.IsAscii c
  := by
  rw [isDigit_iff_toNat] at h
  rw [Utf8.IsAscii]
  omega

theorem IsDigit.digitValue_lt {c : Char} (h : IsDigit c) :
  digitValue c < 10
  := by
  rw [isDigit_iff_toNat] at h
  rw [digitValue]
  have hzero : '0'.toNat = 0x30 := rfl
  omega

/-- A digit is written for the number that it denotes. -/
theorem IsDigit.digitChar_digitValue {c : Char} (h : IsDigit c) :
  (digitValue c).digitChar = c
  := by
  obtain ⟨hlow, hhigh⟩ := isDigit_iff_toNat.mp h
  rw [← Char.ofNat_toNat c, digitValue]
  interval_cases c.toNat <;> rfl

/-! ### The number that a numeral denotes -/

section Value

variable {digits digits' : List Char}

theorem value_eq_foldl (digits : List Char) :
  value digits = digits.foldl (fun n c => 10 * n + digitValue c) 0
  := by
  rw [value, Nat.ofDigits_eq_foldr, List.foldr_map, List.foldr_reverse]
  simp only [Nat.cast_id, Nat.add_comm]

/-- Zeros at the beginning of a numeral do not count. -/
theorem value_zeros_append (count : Nat) (digits : List Char) :
  value (List.replicate count '0' ++ digits) = value digits
  := by
  rw [value, List.reverse_append, List.map_append, List.reverse_replicate, List.map_replicate]
  apply Nat.ofDigits_append_replicate_zero

theorem IsNumeral.zeros_append (h : IsNumeral digits) (count : Nat) :
  IsNumeral (List.replicate count '0' ++ digits)
  := by
  constructor
  · apply List.append_ne_nil_of_right_ne_nil _ h.1
  · rw [List.forall_mem_append]
    constructor
    · intro c hc
      rw [List.eq_of_mem_replicate hc]
      decide
    · apply h.2

theorem map_digitChar_digitValue (hdigits : ∀ c ∈ digits, IsDigit c) :
  (digits.map digitValue).map Nat.digitChar = digits
  := by
  rw [List.map_map]
  conv_rhs => rw [← List.map_id digits]
  apply List.map_congr_left
  intro c hc
  apply (hdigits c hc).digitChar_digitValue

/-- A numeral that does not begin with a zero has the digits of the number that it denotes. -/
theorem digits_value (hdigits : ∀ c ∈ digits, IsDigit c) (hhead : digits.head? ≠ some '0') :
  Nat.digits 10 (value digits) = digits.reverse.map digitValue
  := by
  apply Nat.digits_ofDigits 10 (by decide)
  · rw [List.forall_mem_map]
    intro c hc
    apply (hdigits c (List.mem_reverse.mp hc)).digitValue_lt
  · -- The last of the reversed digits is the first one.
    intro hne
    have hne' : digits ≠ [] := by
      rintro rfl
      apply hne rfl
    have hdigit := hdigits _ (List.head_mem hne')
    rw [List.getLast_map, List.getLast_reverse]
    intro hzero
    apply hhead
    rw [List.head?_eq_some_head hne', ← hdigit.digitChar_digitValue, hzero]
    rfl

theorem eq_of_value_eq (hdigits : ∀ c ∈ digits, IsDigit c) (hhead : digits.head? ≠ some '0')
    (hdigits' : ∀ c ∈ digits', IsDigit c) (hhead' : digits'.head? ≠ some '0')
    (h : value digits = value digits') :
  digits = digits'
  := by
  have hvalues := digits_value hdigits hhead
  rw [h, digits_value hdigits' hhead', List.map_reverse, List.map_reverse] at hvalues
  have hmap := congrArg (List.map Nat.digitChar) (List.reverse_inj.mp hvalues)
  rw [map_digitChar_digitValue hdigits, map_digitChar_digitValue hdigits'] at hmap
  apply hmap.symm

/-- A number has only one numeral, but for the zeros before it. -/
theorem value_eq_value_iff (hdigits : ∀ c ∈ digits, IsDigit c)
    (hdigits' : ∀ c ∈ digits', IsDigit c) (hhead' : digits'.head? ≠ some '0') :
  value digits = value digits' ↔ ∃ count, digits = List.replicate count '0' ++ digits'
  := by
  constructor
  · intro h
    have hsplit := List.takeWhile_append_dropWhile (p := (· == '0')) (l := digits)
    have hzeros : digits.takeWhile (· == '0')
        = List.replicate (digits.takeWhile (· == '0')).length '0' := by
      apply List.eq_replicate_of_mem
      intro c hc
      have hzero := List.mem_takeWhile_imp hc
      apply eq_of_beq hzero
    use (digits.takeWhile (· == '0')).length
    rw [hzeros] at hsplit
    rw [← hsplit, value_zeros_append] at h
    rw [← eq_of_value_eq _ _ hdigits' hhead' h, hsplit]
    · intro c hc
      apply hdigits c ((List.dropWhile_sublist _).mem hc)
    · intro hhead
      cases Sequence.eq_false_of_mem_head?_dropWhile hhead
  · rintro ⟨count, rfl⟩
    apply value_zeros_append

end Value

/-! ### Numerals as bytes -/

theorem IsDigit.isDigit_ofNat {c : Char} (h : IsDigit c) :
  Bytes.isDigit (UInt8.ofNat c.toNat)
  := by
  rw [Bytes.isDigit_iff, Utf8.toNat_ofNat_of_isAscii h.isAscii]
  apply h

/-- A byte that is a digit is the byte of a digit. -/
theorem exists_isDigit {b : UInt8} (h : Bytes.isDigit b) :
  ∃ c, IsDigit c ∧ UInt8.ofNat c.toNat = b
  := by
  rw [Bytes.isDigit_iff] at h
  have hvalid : b.toNat.isValidChar := by
    left
    omega
  use Char.ofNat b.toNat
  rw [isDigit_iff_toNat, Utf8.toNat_ofNat_of_isValidChar hvalid]
  exact ⟨h, UInt8.ofNat_toNat⟩

section Bytes

variable {digits : List Char}

theorem isDigit_of_mem_encode (hdigits : ∀ c ∈ digits, IsDigit c) :
  ∀ b ∈ Utf8.encode digits, Bytes.isDigit b
  := by
  induction digits with
  | nil => simp [Utf8.encode]
  | cons c digits ih =>
      obtain ⟨hc, hrest⟩ := List.forall_mem_cons.mp hdigits
      rw [Utf8.encode_cons_of_isAscii hc.isAscii, List.forall_mem_cons]
      exact ⟨hc.isDigit_ofNat, ih hrest⟩

/-- The bytes of a numeral denote the same number. -/
theorem natValue_encode (hdigits : ∀ c ∈ digits, IsDigit c) :
  Bytes.natValue (Utf8.encode digits) = value digits
  := by
  rw [value_eq_foldl, Bytes.natValue]
  generalize 0 = n
  induction digits generalizing n with
  | nil => rfl
  | cons c digits ih =>
      obtain ⟨hc, hrest⟩ := List.forall_mem_cons.mp hdigits
      rw [Utf8.encode_cons_of_isAscii hc.isAscii, List.foldl_cons, List.foldl_cons, ih hrest,
        Bytes.digitValue, Utf8.toNat_ofNat_of_isAscii hc.isAscii]
      rfl

/-- Bytes that are digits are the bytes of a numeral. -/
theorem exists_encode_eq {bytes : Bytes} (hbytes : ∀ b ∈ bytes, Bytes.isDigit b) :
  ∃ digits, (∀ c ∈ digits, IsDigit c) ∧ Utf8.encode digits = bytes
  := by
  induction bytes with
  | nil => exact ⟨[], List.forall_mem_nil _, rfl⟩
  | cons b bytes ih =>
      obtain ⟨hb, hrest⟩ := List.forall_mem_cons.mp hbytes
      obtain ⟨digits, hdigits, rfl⟩ := ih hrest
      obtain ⟨c, hc, rfl⟩ := exists_isDigit hb
      use c :: digits, List.forall_mem_cons.mpr ⟨hc, hdigits⟩
      apply Utf8.encode_cons_of_isAscii hc.isAscii

end Bytes

end Proctor.Text
