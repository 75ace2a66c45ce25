import Mathlib.Tactic.Ring
import Mathlib.Tactic.SplitIfs
import Mathlib.Tactic.Use
import Proctor.Text.Utf8

/-!
# ASCII characters and sound states

An ASCII character is encoded by the byte of its number, and a reader takes a byte below 0x80 for
such a character wherever it stands. This rests on what the reader can still complete when it stands
within a sequence: its state is sound if only bytes from 0x80 to 0xBF continue it, and every number
that the sequence can still denote is a scalar value beyond ASCII.
-/

namespace Proctor.Utf8

/-- A character that is encoded by a single byte. -/
def IsAscii (c : Char) : Prop :=
  c.toNat < 0x80

instance (c : Char) : Decidable (IsAscii c) :=
  inferInstanceAs (Decidable (c.toNat < 0x80))

/-- A character is made from the number of a scalar value. -/
theorem toNat_ofNat_of_isValidChar {n : Nat} (h : n.isValidChar) :
  (Char.ofNat n).toNat = n
  := by
  rw [Char.ofNat, dif_pos h]
  rfl

/-! ### What a sequence can still denote -/

namespace State

/-- The least number that a sequence can still denote. -/
def least (code missing : Nat) (low : UInt8) : Nat :=
  (64 * code + low.toNat % 64) * 64 ^ (missing - 1)

/-- The first number beyond those that a sequence can still denote. -/
def bound (code missing : Nat) (high : UInt8) : Nat :=
  (64 * code + high.toNat % 64 + 1) * 64 ^ (missing - 1)

/-- A state is sound if only bytes from 0x80 to 0xBF continue it, and all that it can complete are
scalar values beyond ASCII. -/
def Sound : State → Prop
  | .start => True
  | .within code missing low high =>
    1 ≤ missing ∧ 0x80 ≤ low.toNat ∧ high.toNat ≤ 0xBF ∧ 0x80 ≤ least code missing low ∧
      (bound code missing high ≤ 0xD800 ∨
        0xE000 ≤ least code missing low ∧ bound code missing high ≤ 0x110000)

theorem sound_start :
  start.Sound
  := trivial

/-- The state after the first byte of a sequence is sound. -/
theorem sound_first (b : UInt8) :
  (first b).2.Sound
  := by
  have hb := b.toNat_lt
  simp only [first, UInt8.lt_iff_toNat_lt, ← UInt8.toNat_inj]
  repeat' (apply iteInduction (motive := fun p : _ × State => p.2.Sound) <;> intro)
  all_goals
    simp only [Sound, least, bound, UInt8.reduceToNat] at *
    try omega

/-- One more byte does not lower the least number that a sequence can denote. -/
theorem least_le_least (code : Nat) {missing : Nat} {low high b : UInt8} (hmissing : 2 ≤ missing)
    (hlow : 0x80 ≤ low.toNat) (hhigh : high.toNat ≤ 0xBF)
    (hb : low.toNat ≤ b.toNat ∧ b.toNat ≤ high.toNat) :
  least code missing low ≤ least (64 * code + b.toNat % 64) (missing - 1) 0x80
  := by
  obtain ⟨k, rfl⟩ := Nat.exists_eq_add_of_le' hmissing
  have hcode : 64 * code + low.toNat % 64 ≤ 64 * code + b.toNat % 64 := by omega
  calc least code (k + 2) low
      ≤ (64 * code + b.toNat % 64) * 64 ^ (k + 1) := Nat.mul_le_mul_right _ hcode
    _ = (64 * (64 * code + b.toNat % 64) + 0) * 64 ^ k := by ring
    _ = least (64 * code + b.toNat % 64) (k + 1) 0x80 := rfl

/-- One more byte does not raise the bound of the numbers that a sequence can denote. -/
theorem bound_le_bound (code : Nat) {missing : Nat} {low high b : UInt8} (hmissing : 2 ≤ missing)
    (hlow : 0x80 ≤ low.toNat) (hhigh : high.toNat ≤ 0xBF)
    (hb : low.toNat ≤ b.toNat ∧ b.toNat ≤ high.toNat) :
  bound (64 * code + b.toNat % 64) (missing - 1) 0xBF ≤ bound code missing high
  := by
  obtain ⟨k, rfl⟩ := Nat.exists_eq_add_of_le' hmissing
  have hcode : 64 * code + b.toNat % 64 + 1 ≤ 64 * code + high.toNat % 64 + 1 := by omega
  calc bound (64 * code + b.toNat % 64) (k + 1) 0xBF
      = (64 * (64 * code + b.toNat % 64) + 63 + 1) * 64 ^ k := rfl
    _ = (64 * code + b.toNat % 64 + 1) * 64 ^ (k + 1) := by ring
    _ ≤ bound code (k + 2) high := Nat.mul_le_mul_right _ hcode

/-- Reading a byte leads from sound states to sound states. -/
theorem Sound.next {state : State} (h : state.Sound) (b : UInt8) :
  (state.next b).2.Sound
  := by
  cases state with
  | start => apply sound_first
  | within code missing low high =>
      obtain ⟨hmissing, hlow, hhigh, hleast, hscalar⟩ := h
      simp only [State.next, Bool.and_eq_true, decide_eq_true_eq, UInt8.le_iff_toNat_le]
      split_ifs with hb hlast
      · trivial
      · have hmore : 2 ≤ missing := by omega
        have hleast' := least_le_least code hmore hlow hhigh hb
        have hbound' := bound_le_bound code hmore hlow hhigh hb
        use by omega, by decide, by decide, by omega
        omega
      · apply sound_first

/-- A byte below 0x80 ends a sequence that is open, and is a character of its own. -/
theorem Sound.next_of_lt {state : State} (h : state.Sound) {b : UInt8} (hb : b.toNat < 0x80) :
  state.next b = (state.finish ++ [some (Char.ofNat b.toNat)], .start)
  := by
  have hfirst : first b = ([some (Char.ofNat b.toNat)], .start) := by
    rw [first, if_pos (UInt8.lt_iff_toNat_lt.mpr hb)]
  cases state with
  | start => apply hfirst
  | within code missing low high =>
      obtain ⟨-, hlow, -⟩ := h
      have hstop : ¬ (low ≤ b && b ≤ high) = true := by
        simp only [Bool.and_eq_true, decide_eq_true_eq, UInt8.le_iff_toNat_le]
        omega
      rw [State.next, if_neg hstop, hfirst]
      rfl

/-- A first byte of 0x80 or more is an ill-formed piece or opens a sequence. -/
theorem first_of_le {b : UInt8} (hb : 0x80 ≤ b.toNat) :
  first b = ([none], .start)
    ∨ ∃ code missing low high, first b = ([], .within code missing low high)
  := by
  have hnot : ¬ b < 0x80 := by
    rw [UInt8.lt_iff_toNat_lt]
    apply Nat.not_lt.mpr hb
  rw [first, if_neg hnot]
  repeat' (apply iteInduction (motive := fun p : _ × State => p = ([none], .start)
    ∨ ∃ code missing low high, p = ([], .within code missing low high)) <;> intro)
  all_goals simp

end State

/-- Bytes below 0x80 are read as the characters of their numbers. -/
theorem scan_of_forall_lt {bytes : Bytes} (h : ∀ b ∈ bytes, b.toNat < 0x80) :
  scan bytes = bytes.map fun b => some (Char.ofNat b.toNat)
  := by
  rw [scan]
  induction bytes with
  | nil => rfl
  | cons b rest ih =>
      obtain ⟨hb, hrest⟩ := List.forall_mem_cons.mp h
      rw [scanAux_cons, State.sound_start.next_of_lt hb, List.map_cons, ih hrest]
      rfl

theorem isValid_of_forall_lt {bytes : Bytes} (h : ∀ b ∈ bytes, b.toNat < 0x80) :
  isValid bytes
  := by simp [isValid, scan_of_forall_lt h]

theorem lossy_of_forall_lt {bytes : Bytes} (h : ∀ b ∈ bytes, b.toNat < 0x80) :
  lossy bytes = bytes.map fun b => Char.ofNat b.toNat
  := by simp [lossy, scan_of_forall_lt h]

/-! ### Encodings of ASCII characters -/

/-- Every character is encoded by some byte. -/
theorem encode_eq_nil_iff {text : List Char} :
  encode text = [] ↔ text = []
  := by
  cases text with
  | nil => simp [encode]
  | cons c text => simp [encode, String.utf8EncodeChar_ne_nil]

/-- An ASCII character is encoded by the byte of its number. -/
theorem encode_cons_of_isAscii {c : Char} (hc : IsAscii c) (text : List Char) :
  encode (c :: text) = UInt8.ofNat c.toNat :: encode text
  := by
  have hsize : c.toNat ≤ 0x7F := Nat.le_of_lt_succ hc
  simp [encode, String.utf8EncodeChar, hsize]

/-- The byte that encodes an ASCII character has the number of the character. -/
theorem toNat_ofNat_of_isAscii {c : Char} (hc : IsAscii c) :
  (UInt8.ofNat c.toNat).toNat = c.toNat
  := by
  rw [IsAscii] at hc
  rw [UInt8.toNat_ofNat']
  omega

/-- A byte below 0x80 stands for the character that it encodes. -/
theorem eq_ofNat_iff_of_isAscii {c : Char} (hc : IsAscii c) {b : UInt8} (hb : b.toNat < 0x80) :
  c = Char.ofNat b.toNat ↔ UInt8.ofNat c.toNat = b
  := by
  constructor
  · rintro rfl
    have hvalid : b.toNat.isValidChar := by
      left
      omega
    rw [toNat_ofNat_of_isValidChar hvalid]
    apply UInt8.ofNat_toNat
  · rintro rfl
    rw [toNat_ofNat_of_isAscii hc, Char.ofNat_toNat]

/-- The encoding of ASCII characters has only bytes below 0x80. -/
theorem toNat_lt_of_mem_encode {pattern : List Char} (hascii : ∀ c ∈ pattern, IsAscii c)
    {b : UInt8} (hb : b ∈ encode pattern) :
  b.toNat < 0x80
  := by
  induction pattern with
  | nil => cases hb
  | cons c pattern ih =>
      obtain ⟨hc, hpattern⟩ := List.forall_mem_cons.mp hascii
      rw [encode_cons_of_isAscii hc] at hb
      obtain rfl | hb := List.mem_cons.mp hb
      · rw [toNat_ofNat_of_isAscii hc]
        apply hc
      · apply ih hpattern hb

end Proctor.Utf8
