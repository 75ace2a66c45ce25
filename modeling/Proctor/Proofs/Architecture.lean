import Proctor.Configuration
import Proctor.Proofs.Text.Numeral
import Proctor.Proofs.Text.Trimming
import Std.Data.String.ToNat

/-!
# The language of architectures

An architecture is asked for by a numeral between blank characters, which may follow a plus sign and
begin with any number of zeros. Numerals are read exactly up to 32 bits and refused beyond, so that
no greater number is taken for 32 or 64.
-/

namespace Proctor

namespace Text

/-- A text is a numeral of a number, which may follow a plus sign. -/
def Names (text : List Char) (n : Nat) : Prop :=
  ∃ digits, (text = digits ∨ text = '+' :: digits) ∧ IsNumeral digits ∧ value digits = n

theorem not_isNumeral_plus (digits : List Char) :
  ¬ IsNumeral ('+' :: digits)
  := by
  intro h
  have hdigit := h.2 '+' List.mem_cons_self
  revert hdigit
  decide

theorem names_plus_iff {digits : List Char} {n : Nat} :
  Names ('+' :: digits) n ↔ IsNumeral digits ∧ value digits = n
  := by
  constructor
  · rintro ⟨digits', rfl | hplus, hnumeral, hvalue⟩
    · cases not_isNumeral_plus digits hnumeral
    · obtain rfl := List.tail_eq_of_cons_eq hplus
      exact ⟨hnumeral, hvalue⟩
  · intro h
    use digits, Or.inr rfl

theorem names_iff_of_ne_plus {text : List Char} (h : ∀ digits, text ≠ '+' :: digits) {n : Nat} :
  Names text n ↔ IsNumeral text ∧ value text = n
  := by
  constructor
  · rintro ⟨digits, rfl | hplus, hnumeral⟩
    · apply hnumeral
    · cases h digits hplus
  · intro hnumeral
    use text, Or.inl rfl

/-- A text names one number only. -/
theorem Names.unique {text : List Char} {n m : Nat} (hn : Names text n) (hm : Names text m) :
  n = m
  := by
  by_cases hplus : ∃ digits, text = '+' :: digits
  · obtain ⟨digits, rfl⟩ := hplus
    rw [← (names_plus_iff.mp hn).2, (names_plus_iff.mp hm).2]
  · rw [not_exists] at hplus
    rw [← ((names_iff_of_ne_plus hplus).mp hn).2, ((names_iff_of_ne_plus hplus).mp hm).2]

/-- The texts that name a number are those with its numeral after zeros, and perhaps after a plus
sign. -/
theorem names_value_iff {text : List Char} (digits : List Char) (hnumeral : IsNumeral digits)
    (hhead : digits.head? ≠ some '0') :
  Names text (value digits)
    ↔ ∃ zeros, text = List.replicate zeros '0' ++ digits
      ∨ text = '+' :: (List.replicate zeros '0' ++ digits)
  := by
  constructor
  · rintro ⟨written, hsign, hwritten, hvalue⟩
    obtain ⟨zeros, rfl⟩ := (value_eq_value_iff hwritten.2 hnumeral.2 hhead).mp hvalue
    use zeros
  · rintro ⟨zeros, hsign⟩
    use List.replicate zeros '0' ++ digits, hsign, hnumeral.zeros_append zeros
    apply value_zeros_append

end Text

namespace Architecture

/-! ### Numbers of 32 bits -/

theorem digitsValue?_of_isNumeral {digits : List Char} (h : Text.IsNumeral digits) :
  digitsValue? digits = (some (min (2 ^ 32) (Text.value digits))).filter (· < 2 ^ 32)
  := by
  have hread : digitsValue? digits
      = (some (Bytes.boundedValue wordLimit (Utf8.encode digits))).filter (· < wordLimit) := by
    rw [digitsValue?, Text.isNumeral_iff.mp h]
    rfl
  rw [hread, Bytes.boundedValue_eq_min, Text.natValue_encode h.2]
  rfl

/-- A text of digits is read if it denotes a number of 32 bits, and then as that number. -/
theorem digitsValue?_eq_some_iff {digits : List Char} {n : Nat} :
  digitsValue? digits = some n ↔ (Text.IsNumeral digits ∧ Text.value digits = n) ∧ n < 2 ^ 32
  := by
  by_cases h : Text.IsNumeral digits
  · rw [digitsValue?_of_isNumeral h, Option.filter_eq_some_iff, Option.some_inj, decide_eq_true_eq]
    constructor
    · rintro ⟨hmin, hlt⟩
      -- The number that was read is below the bound, so it is not the bound.
      have hvalue : Text.value digits = n := by omega
      exact ⟨⟨h, hvalue⟩, hlt⟩
    · rintro ⟨⟨-, rfl⟩, hlt⟩
      exact ⟨Nat.min_eq_right hlt.le, hlt⟩
  · have hdigits := Bool.of_not_eq_false (mt Text.isNumeral_iff.mpr h)
    rw [digitsValue?, if_pos hdigits]
    simp [h]

theorem word?_eq_some_iff {text : List Char} {n : Nat} :
  word? text = some n ↔ Text.Names text n ∧ n < 2 ^ 32
  := by
  unfold word?
  split
  · rw [digitsValue?_eq_some_iff, Text.names_plus_iff]
  · next hplus => rw [digitsValue?_eq_some_iff, Text.names_iff_of_ne_plus hplus]

/-! ### What a text is read as -/

theorem ofBits_eq_ok_iff {n : Nat} {architecture : Architecture} :
  ofBits n = .ok architecture ↔ n = architecture.bits
  := by
  rw [ofBits, ofBits?]
  split_ifs with h32 h64
  · cases architecture <;> simp [bits, h32]
  · cases architecture <;> simp [bits, h64]
  · cases architecture <;> simp [bits, h32, h64]

theorem ofBits_eq_error_iff {n : Nat} {fault : Fault} :
  ofBits n = .error fault ↔ fault = .unsupported n ∧ n ≠ 32 ∧ n ≠ 64
  := by
  rw [ofBits, ofBits?]
  split_ifs with h32 h64
  · simp [h32]
  · simp [h64]
  · simp [h32, h64, eq_comm]

section Parse

variable {text : String}

/-- A text is either read as the number that its core names, or it is invalid. -/
theorem parse_cases (text : String) :
  (∃ n, Text.Names (Text.trim text.toList) n ∧ n < 2 ^ 32 ∧ parse text = ofBits n)
    ∨ (¬ ∃ n, Text.Names (Text.trim text.toList) n ∧ n < 2 ^ 32)
      ∧ parse text = .error (.invalid text)
  := by
  rw [parse]
  cases hword : word? (Text.trim text.toList) with
  | some n =>
      obtain ⟨hnames, hlt⟩ := word?_eq_some_iff.mp hword
      exact .inl ⟨n, hnames, hlt, rfl⟩
  | none =>
      refine .inr ⟨?_, rfl⟩
      rintro ⟨n, h⟩
      rw [word?_eq_some_iff.mpr h] at hword
      cases hword

theorem parse_eq_ok_iff {architecture : Architecture} :
  parse text = .ok architecture ↔ Text.Names (Text.trim text.toList) architecture.bits
  := by
  have hbits : architecture.bits < 2 ^ 32 := by cases architecture <;> decide
  obtain ⟨n, hnames, -, hparse⟩ | ⟨hnone, hparse⟩ := parse_cases text
  · rw [hparse, ofBits_eq_ok_iff]
    constructor
    · rintro rfl
      apply hnames
    · intro hbits
      apply hnames.unique hbits
  · rw [hparse]
    constructor
    · intro h
      cases h
    · intro h
      cases hnone ⟨_, h, hbits⟩

theorem parse_eq_unsupported_iff {n : Nat} :
  parse text = .error (.unsupported n)
    ↔ Text.Names (Text.trim text.toList) n ∧ n < 2 ^ 32 ∧ n ≠ 32 ∧ n ≠ 64
  := by
  obtain ⟨m, hnames, hlt, hparse⟩ | ⟨hnone, hparse⟩ := parse_cases text
  · rw [hparse, ofBits_eq_error_iff, Fault.unsupported.injEq]
    constructor
    · rintro ⟨rfl, hne⟩
      exact ⟨hnames, hlt, hne⟩
    · rintro ⟨hnames', -, hne⟩
      obtain rfl := hnames.unique hnames'
      exact ⟨rfl, hne⟩
  · rw [hparse]
    constructor
    · intro h
      cases h
    · rintro ⟨hnames, hlt, -⟩
      cases hnone ⟨n, hnames, hlt⟩

theorem parse_eq_invalid_iff :
  parse text = .error (.invalid text)
    ↔ ¬ ∃ n, Text.Names (Text.trim text.toList) n ∧ n < 2 ^ 32
  := by
  obtain ⟨n, hnames, hlt, hparse⟩ | ⟨hnone, hparse⟩ := parse_cases text
  · rw [hparse, ofBits_eq_error_iff]
    constructor
    · rintro ⟨h, -⟩
      cases h
    · intro hnone
      cases hnone ⟨n, hnames, hlt⟩
  · exact iff_of_true hparse hnone

end Parse

/-! ### Faults -/

theorem Fault.message_unsupported (n : Nat) :
  (unsupported n).message = "Unsupported architecture: " ++ n.repr ++ " (expected 32 or 64)"
  := rfl

theorem Fault.message_invalid (text : String) :
  (invalid text).message = "Invalid architecture: " ++ text
  := rfl

theorem Fault.message_unsupported_ne_invalid (n : Nat) (text : String) :
  (unsupported n).message ≠ (invalid text).message
  := by
  intro h
  have hhead := congrArg (List.head? ∘ String.toList) h
  have hunsupported : "Unsupported architecture: ".toList.head? = some 'U' := by decide
  have hinvalid : "Invalid architecture: ".toList.head? = some 'I' := by decide
  rw [message_unsupported, message_invalid] at hhead
  simp only [Function.comp_apply, String.toList_append, List.head?_append, hunsupported, hinvalid,
    Option.some_or] at hhead
  cases hhead

/-- Every fault has a text of its own. -/
theorem Fault.message_injective :
  Function.Injective message
  := by
  intro fault fault' h
  cases fault with
  | unsupported n =>
      cases fault' with
      | unsupported m =>
          rw [message_unsupported, message_unsupported, String.append_left_inj,
            String.append_right_inj] at h
          rw [Nat.repr_injective h]
      | invalid text => cases message_unsupported_ne_invalid n text h
  | invalid text =>
      cases fault' with
      | unsupported n => cases message_unsupported_ne_invalid n text h.symm
      | invalid text' =>
          rw [message_invalid, message_invalid, String.append_right_inj] at h
          rw [h]

end Architecture

namespace Configuration

/-- A text that should name an architecture is refused with a message. -/
def Refused (text message : String) : Prop :=
  ∃ fault, architectureOfText text = .error (.config fault) ∧ fault.message = message

theorem refused_message_iff {text : String} {fault : Architecture.Fault} :
  Refused text fault.message ↔ Architecture.parse text = .error fault
  := by
  rw [Refused, architectureOfText]
  cases Architecture.parse text with
  | ok architecture =>
      constructor
      · rintro ⟨fault, h, -⟩
        cases h
      · intro h
        cases h
  | error fault' =>
      constructor
      · rintro ⟨fault, h, hmessage⟩
        cases h
        rw [Architecture.Fault.message_injective hmessage]
      · intro h
        cases h
        exact ⟨.architecture fault, rfl, rfl⟩

theorem architectureOfText_eq_ok_iff {text : String} {architecture : Architecture} :
  architectureOfText text = .ok architecture ↔ Architecture.parse text = .ok architecture
  := by
  rw [architectureOfText]
  cases Architecture.parse text with
  | ok architecture' => rw [Except.mapError, Except.ok.injEq, Except.ok.injEq]
  | error fault =>
      constructor <;>
        · intro h
          cases h

/-- What a text is read as depends on its core, of which there is exactly one. The core names an
architecture if it is 32 or 64 after any number of zeros, with or without a plus sign. A numeral of
another number of 32 bits is unsupported, and every other text is invalid, also a numeral of a
number of more bits. -/
theorem architectureOfText_language (text : String) :
  ∃ core, (∀ t, Text.IsCore text.toList t ↔ t = core)
    ∧ (architectureOfText text = .ok .bits32
      ↔ ∃ zeros, core = List.replicate zeros '0' ++ ['3', '2']
        ∨ core = '+' :: (List.replicate zeros '0' ++ ['3', '2']))
    ∧ (architectureOfText text = .ok .bits64
      ↔ ∃ zeros, core = List.replicate zeros '0' ++ ['6', '4']
        ∨ core = '+' :: (List.replicate zeros '0' ++ ['6', '4']))
    ∧ (∀ n, Refused text ("Unsupported architecture: " ++ n.repr ++ " (expected 32 or 64)")
      ↔ Text.Names core n ∧ n < 2 ^ 32 ∧ n ≠ 32 ∧ n ≠ 64)
    ∧ (Refused text ("Invalid architecture: " ++ text) ↔ ¬ ∃ n, Text.Names core n ∧ n < 2 ^ 32)
    ∧ ∀ n, Text.Names core n → 2 ^ 32 ≤ n → Refused text ("Invalid architecture: " ++ text)
  := by
  have hinvalid : Refused text ("Invalid architecture: " ++ text)
      ↔ ¬ ∃ n, Text.Names (Text.trim text.toList) n ∧ n < 2 ^ 32 := by
    rw [← Architecture.parse_eq_invalid_iff, ← refused_message_iff]
    rfl
  use Text.trim text.toList, fun t => Text.isCore_iff
  refine ⟨?_, ?_, ?_, hinvalid, ?_⟩
  · rw [architectureOfText_eq_ok_iff, Architecture.parse_eq_ok_iff]
    apply Text.names_value_iff ['3', '2'] <;> decide
  · rw [architectureOfText_eq_ok_iff, Architecture.parse_eq_ok_iff]
    apply Text.names_value_iff ['6', '4'] <;> decide
  · intro n
    rw [← Architecture.parse_eq_unsupported_iff, ← refused_message_iff]
    rfl
  · intro n hnames hle
    rw [hinvalid]
    rintro ⟨m, hnames', hlt⟩
    rw [hnames.unique hnames'] at hle
    apply hlt.not_ge hle

end Configuration

end Proctor
