import Proctor.Proofs.Text.Ascii

/-!
# Encoding and reading back

Reading the bytes of a text gives the text again, so that different texts have different bytes.

After the first byte of a sequence come the last digits of its number to the base 64, one in each
byte. A state within a sequence can still denote the numbers that begin with what has been read, and
one more digit narrows them down until a single number is left.
-/

namespace Proctor.Utf8

theorem encode_append (first second : List Char) :
  encode (first ++ second) = encode first ++ encode second
  := List.flatMap_append

/-! ### Digits to the base 64 -/

/-- The byte for the last digit of a number to the base 64. -/
def digitByte (n : Nat) : UInt8 :=
  UInt8.ofNat (0x80 + n % 64)

/-- The bytes for the last digits of a number to the base 64. -/
def digitBytes : (count : Nat) → Nat → Bytes
  | 0, _ => []
  | count + 1, n => digitByte (n / 64 ^ count) :: digitBytes count n

@[simp] theorem toNat_digitByte (n : Nat) :
  (digitByte n).toNat = 0x80 + n % 64
  := by
  rw [digitByte, UInt8.toNat_ofNat']
  omega

/-- A byte from 0x80 to 0xBF is that of its digit. -/
theorem digitByte_eq {b : UInt8} {n : Nat} (hlow : 0x80 ≤ b.toNat) (hhigh : b.toNat ≤ 0xBF)
    (hdigit : n % 64 = b.toNat % 64) :
  digitByte n = b
  := by
  rw [← UInt8.toNat_inj, toNat_digitByte]
  omega

namespace State

/-- The bounds of a byte for a digit. -/
structure DigitBounds (low high : UInt8) : Prop where
  low_ge : 0x80 ≤ low.toNat
  low_le : low.toNat ≤ high.toNat
  high_le : high.toNat ≤ 0xBF

theorem digitBounds_all :
  DigitBounds 0x80 0xBF
  := by constructor <;> decide

/-- A state within a sequence can still denote a number if what has been read, together with a digit
that may come next, are the leading digits of the number. -/
def Denotes : State → Nat → Prop
  | .start, _ => False
  | .within code missing low high, n =>
    64 * code + low.toNat % 64 ≤ n / 64 ^ (missing - 1)
      ∧ n / 64 ^ (missing - 1) ≤ 64 * code + high.toNat % 64

section Within

variable {code missing n : Nat} {low high b : UInt8}

theorem next_last (hb : low.toNat ≤ b.toNat ∧ b.toNat ≤ high.toNat) :
  (within code 1 low high).next b = ([some (Char.ofNat (64 * code + b.toNat % 64))], .start)
  := by simp [next, UInt8.le_iff_toNat_le, hb]

theorem next_more (hb : low.toNat ≤ b.toNat ∧ b.toNat ≤ high.toNat) :
  (within code (missing + 2) low high).next b
    = ([], .within (64 * code + b.toNat % 64) (missing + 1) 0x80 0xBF)
  := by simp [next, UInt8.le_iff_toNat_le, hb]

theorem next_stop (hb : ¬ (low.toNat ≤ b.toNat ∧ b.toNat ≤ high.toNat)) :
  (within code missing low high).next b = (none :: (first b).1, (first b).2)
  := by simp [next, UInt8.le_iff_toNat_le, hb]

/-- A state that any digit may follow denotes the numbers that begin with what has been read. -/
theorem denotes_iff_div :
  (within code (missing + 1) 0x80 0xBF).Denotes n ↔ n / 64 ^ (missing + 1) = code
  := by
  rw [Nat.pow_succ, ← Nat.div_div_eq_div_mul]
  simp only [Denotes, Nat.add_sub_cancel, UInt8.reduceToNat]
  omega

variable (hbounds : DigitBounds low high)

include hbounds

/-- A state denotes the numbers whose leading digits are what has been read and a digit that may
come next. -/
theorem denotes_iff :
  (within code (missing + 1) low high).Denotes n
    ↔ (low.toNat ≤ (digitByte (n / 64 ^ missing)).toNat
        ∧ (digitByte (n / 64 ^ missing)).toNat ≤ high.toNat)
      ∧ 64 * code + (digitByte (n / 64 ^ missing)).toNat % 64 = n / 64 ^ missing
  := by
  obtain ⟨hlow, hle, hhigh⟩ := hbounds
  simp only [Denotes, Nat.add_sub_cancel, toNat_digitByte]
  omega

/-- The bytes for the last digits of a number are read as the number from a state that can denote
it. -/
theorem Denotes.scanAux_eq (h : (within code (missing + 1) low high).Denotes n) (rest : Bytes) :
  scanAux (within code (missing + 1) low high) (digitBytes (missing + 1) n ++ rest) []
    = some (Char.ofNat n) :: scanAux .start rest []
  := by
  induction missing generalizing code low high with
  | zero =>
      obtain ⟨hb, hn⟩ := (denotes_iff hbounds).mp h
      rw [digitBytes, digitBytes, List.cons_append, scanAux_cons, next_last hb, hn, Nat.pow_zero,
        Nat.div_one]
      rfl
  | succ missing ih =>
      obtain ⟨hb, hn⟩ := (denotes_iff hbounds).mp h
      rw [digitBytes, List.cons_append, scanAux_cons, next_more hb]
      apply ih digitBounds_all (denotes_iff_div.mpr hn.symm)

end Within

/-! ### First bytes -/

theorem first_two {b : UInt8} (hlow : 0xC2 ≤ b.toNat) (hhigh : b.toNat ≤ 0xDF) :
  first b = ([], .within (b.toNat % 32) 1 0x80 0xBF)
  := by
  simp only [first, UInt8.lt_iff_toNat_lt, UInt8.reduceToNat]
  rw [if_neg (by omega), if_neg (by omega), if_pos (by omega)]

theorem first_three {b : UInt8} (hlow : 0xE1 ≤ b.toNat) (hhigh : b.toNat ≤ 0xEF)
    (hne : b.toNat ≠ 0xED) :
  first b = ([], .within (b.toNat % 16) 2 0x80 0xBF)
  := by
  simp only [first, UInt8.lt_iff_toNat_lt, ← UInt8.toNat_inj, UInt8.reduceToNat]
  rw [if_neg (by omega), if_neg (by omega), if_neg (by omega), if_neg (by omega),
    if_neg (by omega), if_pos (by omega)]

theorem first_four {b : UInt8} (hlow : 0xF1 ≤ b.toNat) (hhigh : b.toNat ≤ 0xF3) :
  first b = ([], .within (b.toNat % 8) 3 0x80 0xBF)
  := by
  simp only [first, UInt8.lt_iff_toNat_lt, ← UInt8.toNat_inj, UInt8.reduceToNat]
  rw [if_neg (by omega), if_neg (by omega), if_neg (by omega), if_neg (by omega),
    if_neg (by omega), if_neg (by omega), if_neg (by omega), if_pos (by omega)]

end State

/-! ### Encodings of two, three and four bytes -/

section Encodings

variable {b : UInt8} {n : Nat}

theorem utf8EncodeChar_two (hlow : 0x80 ≤ n) (hhigh : n < 0x800) (hb : b.toNat = 0xC0 + n / 64) :
  String.utf8EncodeChar (Char.ofNat n) = b :: digitBytes 1 n
  := by
  have hn : (Char.ofNat n).val.toNat = n := toNat_ofNat_of_isValidChar (Or.inl (by omega))
  have hlead : n / 64 % 32 + 0xC0 = b.toNat := by omega
  rw [String.utf8EncodeChar, hn, if_neg (by omega), if_pos (by omega)]
  simp [digitBytes, digitByte, hlead, Nat.add_comm]

theorem utf8EncodeChar_three (hlow : 0x800 ≤ n) (hhigh : n < 0x10000)
    (hscalar : n < 0xD800 ∨ 0xDFFF < n) (hb : b.toNat = 0xE0 + n / 4096) :
  String.utf8EncodeChar (Char.ofNat n) = b :: digitBytes 2 n
  := by
  have hvalid : n.isValidChar := hscalar.imp_right fun h => ⟨h, by omega⟩
  have hn : (Char.ofNat n).val.toNat = n := toNat_ofNat_of_isValidChar hvalid
  have hlead : n / 4096 % 16 + 0xE0 = b.toNat := by omega
  rw [String.utf8EncodeChar, hn, if_neg (by omega), if_neg (by omega), if_pos (by omega)]
  simp [digitBytes, digitByte, hlead, Nat.add_comm]

theorem utf8EncodeChar_four (hlow : 0x10000 ≤ n) (hhigh : n < 0x110000)
    (hb : b.toNat = 0xF0 + n / 262144) :
  String.utf8EncodeChar (Char.ofNat n) = b :: digitBytes 3 n
  := by
  have hn : (Char.ofNat n).val.toNat = n := toNat_ofNat_of_isValidChar (Or.inr (by omega))
  have hlead : n / 262144 % 8 + 0xF0 = b.toNat := by omega
  rw [String.utf8EncodeChar, hn, if_neg (by omega), if_neg (by omega), if_neg (by omega)]
  simp [digitBytes, digitByte, hlead, Nat.add_comm]

end Encodings

namespace State

/-- A state is opened by a byte if whatever number it can denote is encoded by this byte and the
bytes for the last digits of the number. -/
def OpenedBy (b : UInt8) : State → Prop
  | .start => True
  | .within code missing low high =>
    DigitBounds low high ∧ 1 ≤ missing
      ∧ ∀ n, (within code missing low high).Denotes n →
        String.utf8EncodeChar (Char.ofNat n) = b :: digitBytes missing n

/-- The state after a first byte is opened by it. -/
theorem openedBy_first (b : UInt8) :
  (first b).2.OpenedBy b
  := by
  have hb := b.toNat_lt
  simp only [first, UInt8.lt_iff_toNat_lt, ← UInt8.toNat_inj, UInt8.reduceToNat]
  repeat' (apply iteInduction (motive := fun p : _ × State => p.2.OpenedBy b) <;> intro)
  all_goals try trivial
  all_goals
    refine ⟨by constructor <;> decide, by decide, ?_⟩
    intro n hn
    simp only [Denotes, UInt8.reduceToNat, Nat.reduceSub, Nat.reducePow, Nat.reduceMod,
      Nat.div_one] at hn
  · apply utf8EncodeChar_two <;> omega
  · apply utf8EncodeChar_three <;> omega
  · apply utf8EncodeChar_three <;> omega
  · apply utf8EncodeChar_three <;> omega
  · apply utf8EncodeChar_four <;> omega
  · apply utf8EncodeChar_four <;> omega
  · apply utf8EncodeChar_four <;> omega

/-- Every scalar value beyond ASCII can be denoted after some first byte. -/
theorem exists_first {n : Nat} (hvalid : n.isValidChar) (hascii : 0x80 ≤ n) :
  ∃ b code missing low high, first b = ([], .within code (missing + 1) low high)
    ∧ (within code (missing + 1) low high).Denotes n
  := by
  have htoNat {m : Nat} (hm : m < 0x100) : (UInt8.ofNat m).toNat = m :=
    UInt8.toNat_ofNat_of_lt' hm
  simp only [Nat.isValidChar] at hvalid
  have hranges : n < 0x800 ∨ (0x800 ≤ n ∧ n < 0x1000) ∨ (0xD000 ≤ n ∧ n < 0xD800)
      ∨ (0x1000 ≤ n ∧ n < 0x10000 ∧ n / 0x1000 ≠ 0xD) ∨ (0x10000 ≤ n ∧ n < 0x40000)
      ∨ (0x40000 ≤ n ∧ n < 0x100000) ∨ (0x100000 ≤ n ∧ n < 0x110000) := by omega
  rcases hranges with hn | hn | hn | hn | hn | hn | hn
  · have hb := htoNat (m := 0xC0 + n / 64) (by omega)
    refine ⟨_, _, 0, _, _, first_two (b := .ofNat (0xC0 + n / 64)) (by omega) (by omega), ?_⟩
    rw [denotes_iff_div]
    omega
  · refine ⟨0xE0, _, 1, _, _, rfl, ?_⟩
    simp only [Denotes, UInt8.reduceToNat]
    omega
  · refine ⟨0xED, _, 1, _, _, rfl, ?_⟩
    simp only [Denotes, UInt8.reduceToNat]
    omega
  · have hb := htoNat (m := 0xE0 + n / 4096) (by omega)
    refine ⟨_, _, 1, _, _,
      first_three (b := .ofNat (0xE0 + n / 4096)) (by omega) (by omega) (by omega), ?_⟩
    rw [denotes_iff_div]
    omega
  · refine ⟨0xF0, _, 2, _, _, rfl, ?_⟩
    simp only [Denotes, UInt8.reduceToNat]
    omega
  · have hb := htoNat (m := 0xF0 + n / 262144) (by omega)
    refine ⟨_, _, 2, _, _, first_four (b := .ofNat (0xF0 + n / 262144)) (by omega) (by omega), ?_⟩
    rw [denotes_iff_div]
    omega
  · refine ⟨0xF4, _, 2, _, _, rfl, ?_⟩
    simp only [Denotes, UInt8.reduceToNat]
    omega

end State

/-! ### Reading an encoding -/

theorem utf8EncodeChar_of_isAscii {c : Char} (hc : IsAscii c) :
  String.utf8EncodeChar c = [UInt8.ofNat c.toNat]
  := by simpa [encode] using encode_cons_of_isAscii hc []

/-- A byte below 0x80 is the encoding of a character. -/
theorem utf8EncodeChar_ofNat_of_lt {b : UInt8} (hb : b.toNat < 0x80) :
  String.utf8EncodeChar (Char.ofNat b.toNat) = [b]
  := by
  have hvalid : b.toNat.isValidChar := Or.inl (by omega)
  have htoNat := toNat_ofNat_of_isValidChar hvalid
  rw [utf8EncodeChar_of_isAscii (htoNat.trans_lt hb), htoNat, UInt8.ofNat_toNat]

/-- A byte that stands in an encoding only after the first byte. -/
def IsContinuation (b : UInt8) : Prop :=
  0x80 ≤ b.toNat ∧ b.toNat ≤ 0xBF

instance (b : UInt8) : Decidable (IsContinuation b) :=
  inferInstanceAs (Decidable (_ ∧ _))

/-- The encoding of a character beyond ASCII is a byte of 0xC0 or more and then continuation
bytes. -/
theorem exists_utf8EncodeChar_eq {c : Char} (hc : ¬ IsAscii c) :
  ∃ b more, String.utf8EncodeChar c = b :: more ∧ 0xC0 ≤ b.toNat ∧ ∀ b' ∈ more, IsContinuation b'
  := by
  have hsize : ¬ c.val.toNat ≤ 0x7F := fun h => hc (Nat.lt_succ_of_le h)
  rw [String.utf8EncodeChar, if_neg hsize]
  split_ifs
  all_goals
    refine ⟨_, _, rfl, ?_, ?_⟩
    · rw [UInt8.toNat_ofNat']
      omega
    · intro b hb
      simp only [List.mem_cons, List.not_mem_nil, or_false] at hb
      rcases hb with rfl | rfl | rfl <;> rw [IsContinuation, UInt8.toNat_ofNat'] <;> omega

/-- The bytes of a character beyond ASCII are all beyond ASCII. -/
theorem le_toNat_of_mem_utf8EncodeChar {c : Char} (hc : ¬ IsAscii c) {b : UInt8}
    (hb : b ∈ String.utf8EncodeChar c) :
  0x80 ≤ b.toNat
  := by
  obtain ⟨b', more, hencode, hfirst, hmore⟩ := exists_utf8EncodeChar_eq hc
  rw [hencode] at hb
  obtain rfl | hb := List.mem_cons.mp hb
  · omega
  · exact (hmore b hb).1

/-- The bytes of a character are read as the character. -/
theorem scan_utf8EncodeChar_append (c : Char) (rest : Bytes) :
  scan (String.utf8EncodeChar c ++ rest) = some c :: scan rest
  := by
  by_cases hc : IsAscii c
  · have htoNat := toNat_ofNat_of_isAscii hc
    have hnext := State.sound_start.next_of_lt (htoNat.trans_lt hc)
    rw [htoNat, Char.ofNat_toNat] at hnext
    rw [utf8EncodeChar_of_isAscii hc, List.singleton_append, scan, scanAux_cons, hnext]
    rfl
  · have hvalid : c.toNat.isValidChar := c.valid
    obtain ⟨b, code, missing, low, high, hfirst, hn⟩ :=
      State.exists_first hvalid (Nat.not_lt.mp hc)
    have hopened := State.openedBy_first b
    rw [hfirst] at hopened
    obtain ⟨hbounds, -, hencode⟩ := hopened
    have hbytes := hencode c.toNat hn
    have hread := hn.scanAux_eq hbounds rest
    rw [Char.ofNat_toNat] at hbytes hread
    rw [hbytes, List.cons_append, scan, scanAux_cons, State.next, hfirst, List.nil_append, hread]
    rfl

/-- The bytes of a text are read as the text. -/
theorem scan_encode (text : List Char) :
  scan (encode text) = text.map some
  := by
  induction text with
  | nil => rfl
  | cons c text ih =>
      rw [encode, List.flatMap_cons, scan_utf8EncodeChar_append, List.map_cons, ← encode, ih]

/-- The bytes of a text are well formed. -/
@[simp] theorem isValid_encode (text : List Char) :
  isValid (encode text) = true
  := by simp [isValid, scan_encode]

@[simp] theorem lossy_encode (text : List Char) :
  lossy (encode text) = text
  := by simp [lossy, scan_encode, Function.comp_def]

theorem isValid_ofString (s : String) :
  isValid (Bytes.ofString s)
  := isValid_encode s.toList

/-- Different texts have different bytes. -/
theorem encode_injective :
  Function.Injective encode
  := Function.LeftInverse.injective lossy_encode

end Proctor.Utf8

namespace Proctor.Bytes

theorem ofString_injective :
  Function.Injective ofString
  := by
  intro s s' h
  apply String.toList_injective
  apply Utf8.encode_injective h

theorem ofString_append (s s' : String) :
  ofString (s ++ s') = ofString s ++ ofString s'
  := by rw [ofString, String.toList_append, List.flatMap_append, ofString, ofString]

end Proctor.Bytes
