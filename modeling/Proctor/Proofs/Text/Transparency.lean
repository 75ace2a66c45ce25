import Proctor.Proofs.Text.Pieces

/-!
# ASCII characters in bytes and in text

The text of a byte string has an ASCII character exactly where the byte string has a byte below
0x80. Bytes of 0x80 and more become other characters, whether they are well formed or not, and each
run of them becomes at least one character. A pattern of ASCII characters therefore occurs in the
text if and only if its bytes occur in the byte string, and the ASCII characters of the text are the
bytes below 0x80.
-/

namespace Proctor.Utf8

/-- A text keeps the ASCII bytes of a byte string: it has an ASCII character for each of them, and
characters beyond ASCII for what stands between them. -/
inductive KeepsAscii : Bytes → List Char → Prop
  | nil : KeepsAscii [] []
  | ascii {c : Char} {bytes : Bytes} {text : List Char} :
      IsAscii c → KeepsAscii bytes text → KeepsAscii (UInt8.ofNat c.toNat :: bytes) (c :: text)
  | beyond {c : Char} {skipped bytes : Bytes} {text : List Char} :
      ¬ IsAscii c → skipped ≠ [] → (∀ b ∈ skipped, 0x80 ≤ b.toNat) → KeepsAscii bytes text →
      KeepsAscii (skipped ++ bytes) (c :: text)

/-! ### What a text keeps -/

/-- No byte of a maximal subpart is an ASCII byte. -/
theorem IsSubpart.le_toNat_of_mem {piece rest : Bytes} (h : IsSubpart piece rest) {b : UInt8}
    (hb : b ∈ piece) :
  0x80 ≤ b.toNat
  := by
  obtain ⟨first, more, rfl⟩ := List.exists_cons_of_ne_nil h.ne_nil
  obtain rfl | hb := List.mem_cons.mp hb
  · -- An ASCII byte in the first place would be a character.
    by_contra hlt
    apply h.no_character (Char.ofNat b.toNat)
    rw [utf8EncodeChar_ofNat_of_lt (Nat.not_le.mp hlt)]
    exact ⟨more ++ rest, rfl⟩
  · obtain hbegins | hsingle := h.begins_or_single
    · exact (hbegins.of_cons.2 b hb).1
    · obtain rfl : more = [] := List.length_eq_zero_iff.mp (Nat.succ.inj hsingle)
      cases hb

theorem Cuts.keepsAscii {bytes : Bytes} {pieces : List (Option Char)} (h : Cuts bytes pieces) :
  KeepsAscii bytes (pieces.map (·.getD '\uFFFD'))
  := by
  induction h with
  | nil => apply KeepsAscii.nil
  | character c _ ih =>
      by_cases hc : IsAscii c
      · rw [utf8EncodeChar_of_isAscii hc]
        apply KeepsAscii.ascii hc ih
      · apply KeepsAscii.beyond hc String.utf8EncodeChar_ne_nil _ ih
        intro b hb
        apply le_toNat_of_mem_utf8EncodeChar hc hb
  | illFormed hpiece _ ih =>
      apply KeepsAscii.beyond (by decide) hpiece.ne_nil _ ih
      intro b hb
      apply hpiece.le_toNat_of_mem hb

/-- The text of a byte string keeps its ASCII bytes, well formed or not. -/
theorem keepsAscii_lossy (bytes : Bytes) :
  KeepsAscii bytes (lossy bytes)
  := (cuts_iff.mpr rfl).keepsAscii

/-! ### Occurrence of ASCII patterns -/

section Patterns

variable {pattern : List Char} (hascii : ∀ c ∈ pattern, IsAscii c)

include hascii

theorem notMem_of_not_isAscii {c : Char} (hc : ¬ IsAscii c) :
  ∀ c' ∈ [c], c' ∉ pattern
  := by
  rw [List.forall_mem_singleton]
  intro hmem
  apply hc (hascii c hmem)

theorem notMem_encode_of_le {bytes : Bytes} (h : ∀ b ∈ bytes, 0x80 ≤ b.toNat) :
  ∀ b ∈ bytes, b ∉ encode pattern
  := by
  intro b hb hmem
  apply Nat.not_lt.mpr (h b hb) (toNat_lt_of_mem_encode hascii hmem)

/-- An ASCII pattern begins a text that keeps the ASCII bytes exactly when its bytes begin the byte
string. -/
theorem KeepsAscii.prefix_iff {bytes : Bytes} {text : List Char} (h : KeepsAscii bytes text) :
  pattern <+: text ↔ encode pattern <+: bytes
  := by
  induction h generalizing pattern with
  | nil => rw [List.prefix_nil, List.prefix_nil, encode_eq_nil_iff]
  | @ascii c bytes text hc _ ih =>
      cases pattern with
      | nil => simp [encode]
      | cons c' pattern =>
          obtain ⟨hc', hpattern⟩ := List.forall_mem_cons.mp hascii
          have htoNat := toNat_ofNat_of_isAscii hc
          have hbyte := eq_ofNat_iff_of_isAscii hc' (htoNat.trans_lt hc)
          rw [htoNat, Char.ofNat_toNat] at hbyte
          rw [encode_cons_of_isAscii hc', List.cons_prefix_cons, List.cons_prefix_cons, hbyte,
            ih hpattern]
  | @beyond c skipped bytes text hc hne hskipped =>
      rw [← List.singleton_append,
        Sequence.prefix_append_iff_of_not_mem (List.cons_ne_nil c [])
          (notMem_of_not_isAscii hascii hc),
        Sequence.prefix_append_iff_of_not_mem hne (notMem_encode_of_le hascii hskipped),
        encode_eq_nil_iff]

/-- An ASCII pattern occurs in a text that keeps the ASCII bytes exactly when its bytes occur in the
byte string. -/
theorem KeepsAscii.infix_iff (hne : pattern ≠ []) {bytes : Bytes} {text : List Char}
    (h : KeepsAscii bytes text) :
  pattern <:+: text ↔ encode pattern <:+: bytes
  := by
  induction h with
  | nil => rw [List.infix_nil, List.infix_nil, encode_eq_nil_iff]
  | ascii hc h ih =>
      -- The pattern begins at this byte, or it occurs after it.
      rw [List.infix_cons_iff, List.infix_cons_iff, ih, (KeepsAscii.ascii hc h).prefix_iff hascii]
  | beyond hc _ hskipped _ ih =>
      rw [← List.singleton_append,
        Sequence.infix_append_iff_of_not_mem hne (notMem_of_not_isAscii hascii hc),
        Sequence.infix_append_iff_of_not_mem (mt encode_eq_nil_iff.mp hne)
          (notMem_encode_of_le hascii hskipped), ih]

end Patterns

/-- An ASCII pattern occurs in the text of a byte string exactly when its bytes occur in the byte
string, well formed or not. -/
theorem infix_lossy_iff {pattern : List Char} (hne : pattern ≠ [])
    (hascii : ∀ c ∈ pattern, IsAscii c) (bytes : Bytes) :
  pattern <:+: lossy bytes ↔ encode pattern <:+: bytes
  := (keepsAscii_lossy bytes).infix_iff hascii hne

/-! ### ASCII characters in order -/

/-- The ASCII characters of a text that keeps the ASCII bytes are these bytes, in order. -/
theorem KeepsAscii.encode_filter {bytes : Bytes} {text : List Char} (h : KeepsAscii bytes text) :
  encode (text.filter (IsAscii ·)) = bytes.filter (· < 0x80)
  := by
  induction h with
  | nil => rfl
  | @ascii c bytes text hc _ ih =>
      have hlt : UInt8.ofNat c.toNat < 0x80 := by
        rw [UInt8.lt_iff_toNat_lt, toNat_ofNat_of_isAscii hc]
        apply hc
      rw [List.filter_cons_of_pos (by rwa [decide_eq_true_eq]), encode_cons_of_isAscii hc, ih,
        List.filter_cons_of_pos (by rwa [decide_eq_true_eq])]
  | @beyond c skipped bytes text hc _ hskipped _ ih =>
      have hnil : skipped.filter (· < 0x80) = [] := by
        rw [List.filter_eq_nil_iff]
        intro b hb
        rw [decide_eq_true_eq, UInt8.lt_iff_toNat_lt]
        apply Nat.not_lt.mpr (hskipped b hb)
      rw [List.filter_cons_of_neg (by rwa [decide_eq_true_eq]), ih, List.filter_append, hnil,
        List.nil_append]

theorem encode_filter_lossy (bytes : Bytes) :
  encode ((lossy bytes).filter (IsAscii ·)) = bytes.filter (· < 0x80)
  := (keepsAscii_lossy bytes).encode_filter

end Proctor.Utf8
