import Proctor.Proofs.Sequence
import Proctor.Proofs.Text.Encoding

/-!
# Characters and ill-formed pieces

What a byte string consists of, said without a reader. From left to right, the encoding of a
character is cut off wherever there is one. Where there is none, a maximal subpart is cut off: as
many bytes as the encoding of some character begins with, and one byte if there is no such
character. A byte string can be cut in one way only, and `scan` finds it. The byte strings that
consist of characters alone are well formed, and they are the encodings of texts.

A reader that stands within a sequence has read the beginning of the encodings of exactly those
characters that it can still denote, so that the bytes it accepts next are those with which the
encoding of a character goes on.
-/

namespace Proctor.Utf8

open String (utf8EncodeChar)

/-! ### Beginnings of encodings -/

/-- Some bytes begin the encoding of a character. -/
def Begins (bytes : Bytes) : Prop :=
  ∃ c, bytes <+: utf8EncodeChar c

theorem begins_utf8EncodeChar (c : Char) :
  Begins (utf8EncodeChar c)
  := ⟨c, List.prefix_rfl⟩

theorem Begins.mono {bytes longer : Bytes} (h : Begins longer) (hstarts : bytes <+: longer) :
  Begins bytes
  := by
  obtain ⟨c, hc⟩ := h
  exact ⟨c, hstarts.trans hc⟩

/-- The first byte of an encoding is no continuation byte, and all others are. -/
theorem Begins.of_cons {b : UInt8} {more : Bytes} (h : Begins (b :: more)) :
  ¬ IsContinuation b ∧ ∀ b' ∈ more, IsContinuation b'
  := by
  obtain ⟨c, hc⟩ := h
  by_cases hascii : IsAscii c
  · rw [utf8EncodeChar_of_isAscii hascii, List.cons_prefix_cons, List.prefix_nil] at hc
    obtain ⟨rfl, rfl⟩ := hc
    rw [IsContinuation, toNat_ofNat_of_isAscii hascii]
    exact ⟨fun h => Nat.not_lt.mpr h.1 hascii, List.forall_mem_nil _⟩
  · obtain ⟨b', more', hencode, hfirst, hmore⟩ := exists_utf8EncodeChar_eq hascii
    rw [hencode, List.cons_prefix_cons] at hc
    obtain ⟨rfl, hc⟩ := hc
    constructor
    · intro h
      exact Nat.not_lt.mpr h.2 hfirst
    · intro b' hb'
      apply hmore b' (hc.subset hb')

/-- No encoding of a character begins that of another one. -/
theorem utf8EncodeChar_prefixFree {c c' : Char} (h : utf8EncodeChar c <+: utf8EncodeChar c') :
  c = c'
  := by
  obtain ⟨rest, hrest⟩ := h
  have hscan := scan_utf8EncodeChar_append c rest
  have hscan' := scan_utf8EncodeChar_append c' []
  rw [List.append_nil, ← hrest, hscan] at hscan'
  exact Option.some.inj (List.cons.inj hscan').1

/-- No encoding goes on after a character is complete. -/
theorem Begins.eq_utf8EncodeChar {bytes : Bytes} (h : Begins bytes) {c : Char}
    (hc : utf8EncodeChar c <+: bytes) :
  bytes = utf8EncodeChar c
  := by
  obtain ⟨c', hc'⟩ := h
  obtain rfl := utf8EncodeChar_prefixFree (hc.trans hc')
  apply hc'.eq_of_length_le hc.length_le

/-- If no encoding goes on from one byte string to the next, then what begins an encoding at the
start of the first one ends within it. -/
theorem Begins.ends_within {bytes first second : Bytes} (h : Begins bytes)
    (hstarts : bytes <+: first ++ second) (hstop : ∀ b ∈ second.head?, ¬ Begins (first ++ [b])) :
  bytes <+: first
  := by
  obtain hshort | ⟨more, rfl⟩ := List.prefix_or_prefix_of_prefix hstarts (List.prefix_append _ _)
  · apply hshort
  · rw [List.prefix_append_right_inj] at hstarts
    cases more with
    | nil => simp
    | cons b more =>
        obtain ⟨rest, rfl⟩ := hstarts
        cases hstop b rfl (h.mono ((List.prefix_append_right_inj first).mpr ⟨more, rfl⟩))

/-! ### Cutting -/

/-- A byte string `piece ++ rest` begins with no character, and `piece` is its maximal subpart: the
longest part that begins the encoding of a character, or else a single byte. -/
structure IsSubpart (piece rest : Bytes) : Prop where
  ne_nil : piece ≠ []
  no_character : ∀ c, ¬ utf8EncodeChar c <+: piece ++ rest
  begins_or_single : Begins piece ∨ piece.length = 1
  longest : ∀ other, Begins other → other <+: piece ++ rest → other.length ≤ piece.length

/-- A byte string is cut into characters and ill-formed pieces, which are maximal subparts. -/
inductive Cuts : Bytes → List (Option Char) → Prop
  | nil : Cuts [] []
  | character (c : Char) {rest : Bytes} {pieces : List (Option Char)} :
      Cuts rest pieces → Cuts (utf8EncodeChar c ++ rest) (some c :: pieces)
  | illFormed {piece rest : Bytes} {pieces : List (Option Char)} :
      IsSubpart piece rest → Cuts rest pieces → Cuts (piece ++ rest) (none :: pieces)

/-- A byte that begins no encoding is a maximal subpart whatever follows it. -/
theorem isSubpart_singleton {b : UInt8} (h : ¬ Begins [b]) (rest : Bytes) :
  IsSubpart [b] rest
  := by
  have hnil : ∀ other, Begins other → other <+: [b] ++ rest → other = [] := by
    intro other hother hstarts
    cases other with
    | nil => rfl
    | cons b' other =>
        obtain rfl := (List.cons_prefix_cons.mp hstarts).1
        cases h (hother.mono ⟨other, rfl⟩)
  refine ⟨List.cons_ne_nil _ _, ?_, Or.inr rfl, ?_⟩
  · intro c hc
    apply String.utf8EncodeChar_ne_nil (hnil _ (begins_utf8EncodeChar c) hc)
  · intro other hother hstarts
    rw [hnil other hother hstarts]
    apply Nat.zero_le

theorem IsSubpart.length_le {piece piece' rest rest' : Bytes} (h : IsSubpart piece rest)
    (h' : IsSubpart piece' rest') (hbytes : piece' ++ rest' = piece ++ rest) :
  piece'.length ≤ piece.length
  := by
  obtain hbegins | hsingle := h'.begins_or_single
  · apply h.longest piece' hbegins
    rw [← hbytes]
    apply List.prefix_append
  · rw [hsingle]
    apply List.length_pos_iff.mpr h.ne_nil

/-- A byte string has one maximal subpart at most. -/
theorem IsSubpart.eq_and_eq {piece piece' rest rest' : Bytes} (h : IsSubpart piece rest)
    (h' : IsSubpart piece' rest') (hbytes : piece ++ rest = piece' ++ rest') :
  piece = piece' ∧ rest = rest'
  := by
  have hle := h'.length_le h hbytes
  have hge := h.length_le h' hbytes.symm
  apply List.append_inj hbytes (Nat.le_antisymm hle hge)

/-- A byte string can be cut in one way only. -/
theorem Cuts.eq {bytes : Bytes} {pieces pieces' : List (Option Char)} (h : Cuts bytes pieces)
    (h' : Cuts bytes pieces') :
  pieces = pieces'
  := by
  induction h generalizing pieces' with
  | nil =>
      generalize hbytes : ([] : Bytes) = bytes at h'
      cases h' with
      | nil => rfl
      | character c => cases String.utf8EncodeChar_ne_nil (List.append_eq_nil_iff.mp hbytes.symm).1
      | illFormed h => cases h.ne_nil (List.append_eq_nil_iff.mp hbytes.symm).1
  | @character c rest pieces h ih =>
      generalize hbytes : utf8EncodeChar c ++ rest = bytes at h'
      cases h' with
      | nil => cases String.utf8EncodeChar_ne_nil (List.append_eq_nil_iff.mp hbytes).1
      | character c' h' =>
          have hcode : ∀ c c', utf8EncodeChar c <+: utf8EncodeChar c' → c = c' :=
            fun _ _ => utf8EncodeChar_prefixFree
          obtain ⟨rfl, rfl⟩ := (Sequence.append_eq_append_iff_of_prefixFree hcode).mp hbytes
          rw [ih h']
      | illFormed h' => cases h'.no_character c ⟨rest, hbytes⟩
  | @illFormed piece rest pieces hpiece h ih =>
      generalize hbytes : piece ++ rest = bytes at h'
      cases h' with
      | nil => cases hpiece.ne_nil (List.append_eq_nil_iff.mp hbytes).1
      | character c => cases hpiece.no_character c ⟨_, hbytes.symm⟩
      | illFormed hpiece' h' =>
          obtain ⟨rfl, rfl⟩ := hpiece.eq_and_eq hpiece' hbytes
          rw [ih h']

/-! ### What a reader has read -/

namespace State

/-- What a sound state can denote is a scalar value. -/
theorem Sound.isValidChar {code missing n : Nat} {low high : UInt8}
    (h : (within code (missing + 1) low high).Sound)
    (hn : (within code (missing + 1) low high).Denotes n) :
  n.isValidChar
  := by
  obtain ⟨-, -, -, -, hscalar⟩ := h
  obtain ⟨hlow, hhigh⟩ := hn
  have hpos : 0 < 64 ^ missing := Nat.pow_pos (by decide)
  rw [Nat.add_sub_cancel] at hlow hhigh
  have hleast : least code (missing + 1) low ≤ n := (Nat.le_div_iff_mul_le hpos).mp hlow
  have hbound : n < bound code (missing + 1) high :=
    (Nat.div_lt_iff_lt_mul hpos).mp (Nat.lt_succ_of_le hhigh)
  simp only [Nat.isValidChar]
  omega

/-- A reader stands within a sequence after `piece`: the characters that it can denote are those
whose encoding begins with the piece, and what is missing of such an encoding are the bytes for the
last digits of the character. -/
structure Reached (piece : Bytes) (code missing : Nat) (low high : UInt8) : Prop where
  ne_nil : piece ≠ []
  sound : (within code (missing + 1) low high).Sound
  bounds : DigitBounds low high
  denotes : ∀ c, piece <+: utf8EncodeChar c →
    (within code (missing + 1) low high).Denotes c.toNat
  encoding : ∀ c, (within code (missing + 1) low high).Denotes c.toNat →
    utf8EncodeChar c = piece ++ digitBytes (missing + 1) c.toNat

/-- A byte that begins the encoding of a character beyond ASCII opens a sequence that can denote the
character. -/
theorem first_of_begins {b : UInt8} {c : Char} (h : [b] <+: utf8EncodeChar c) (hc : ¬ IsAscii c) :
  ∃ code missing low high, first b = ([], .within code (missing + 1) low high)
    ∧ (within code (missing + 1) low high).Denotes c.toNat
  := by
  have hvalid : c.toNat.isValidChar := c.valid
  obtain ⟨b', code, missing, low, high, hfirst, hn⟩ := exists_first hvalid (Nat.not_lt.mp hc)
  have hopened := openedBy_first b'
  rw [hfirst] at hopened
  have hencode := hopened.2.2 c.toNat hn
  rw [Char.ofNat_toNat] at hencode
  rw [hencode] at h
  obtain rfl := (List.cons_prefix_cons.mp h).1
  use code, missing, low, high

/-- A byte of 0x80 or more begins no encoding of an ASCII character. -/
theorem not_isAscii_of_begins {b : UInt8} {c : Char} (hb : 0x80 ≤ b.toNat)
    (h : [b] <+: utf8EncodeChar c) :
  ¬ IsAscii c
  := by
  intro hc
  rw [utf8EncodeChar_of_isAscii hc] at h
  obtain rfl := (List.cons_prefix_cons.mp h).1
  rw [toNat_ofNat_of_isAscii hc] at hb
  apply Nat.not_lt.mpr hb hc

theorem reached_first {b : UInt8} {code missing : Nat} {low high : UInt8} (hb : 0x80 ≤ b.toNat)
    (h : first b = ([], .within code (missing + 1) low high)) :
  Reached [b] code missing low high
  := by
  have hsound := sound_first b
  have hopened := openedBy_first b
  rw [h] at hsound hopened
  obtain ⟨hbounds, -, hencode⟩ := hopened
  refine ⟨List.cons_ne_nil _ _, hsound, hbounds, ?_, ?_⟩
  · intro c hc
    obtain ⟨code', missing', low', high', hfirst, hn⟩ :=
      first_of_begins hc (not_isAscii_of_begins hb hc)
    rw [h] at hfirst
    cases hfirst
    apply hn
  · intro c hn
    have hbytes := hencode c.toNat hn
    rwa [Char.ofNat_toNat] at hbytes

section Reached

variable {piece rest : Bytes} {code missing : Nat} {low high b : UInt8}

/-- The encoding of a character goes on after the piece with the byte for its next digit. -/
theorem Reached.append_prefix_iff (h : Reached piece code missing low high) {c : Char} :
  piece ++ [b] <+: utf8EncodeChar c
    ↔ (within code (missing + 1) low high).Denotes c.toNat
      ∧ digitByte (c.toNat / 64 ^ missing) = b
  := by
  constructor
  · intro hc
    have hn := h.denotes c ((List.prefix_append _ _).trans hc)
    rw [h.encoding c hn, List.prefix_append_right_inj, digitBytes, List.cons_prefix_cons] at hc
    exact ⟨hn, hc.1.symm⟩
  · rintro ⟨hn, rfl⟩
    rw [h.encoding c hn, List.prefix_append_right_inj, digitBytes, List.cons_prefix_cons]
    exact ⟨rfl, List.nil_prefix⟩

/-- A number whose leading digits are what has been read and an accepted byte can be denoted. -/
theorem Reached.denotes_of_div (h : Reached piece code missing low high)
    (hb : low.toNat ≤ b.toNat ∧ b.toNat ≤ high.toNat) {n : Nat}
    (hn : n / 64 ^ missing = 64 * code + b.toNat % 64) :
  (within code (missing + 1) low high).Denotes n ∧ digitByte (n / 64 ^ missing) = b
  := by
  obtain ⟨hlow, hle, hhigh⟩ := h.bounds
  have hbyte : digitByte (n / 64 ^ missing) = b := digitByte_eq (by omega) (by omega) (by omega)
  rw [denotes_iff h.bounds, hbyte]
  exact ⟨⟨hb, hn.symm⟩, rfl⟩

/-- The bytes that are accepted next are those with which an encoding goes on. -/
theorem Reached.begins_append_iff (h : Reached piece code missing low high) :
  Begins (piece ++ [b]) ↔ low.toNat ≤ b.toNat ∧ b.toNat ≤ high.toNat
  := by
  constructor
  · rintro ⟨c, hc⟩
    obtain ⟨hn, rfl⟩ := h.append_prefix_iff.mp hc
    apply ((denotes_iff h.bounds).mp hn).1
  · intro hb
    have hpos : 0 < 64 ^ missing := Nat.pow_pos (by decide)
    obtain ⟨hn, hbyte⟩ := h.denotes_of_div hb (Nat.mul_div_cancel (64 * code + b.toNat % 64) hpos)
    have htoNat := toNat_ofNat_of_isValidChar (h.sound.isValidChar hn)
    use Char.ofNat ((64 * code + b.toNat % 64) * 64 ^ missing)
    rw [h.append_prefix_iff, htoNat]
    exact ⟨hn, hbyte⟩

/-- The last byte of a sequence completes the encoding of a character. -/
theorem Reached.utf8EncodeChar_eq (h : Reached piece code 0 low high)
    (hb : low.toNat ≤ b.toNat ∧ b.toNat ≤ high.toNat) :
  utf8EncodeChar (Char.ofNat (64 * code + b.toNat % 64)) = piece ++ [b]
  := by
  obtain ⟨hn, hbyte⟩ := h.denotes_of_div hb (Nat.div_one _)
  have htoNat := toNat_ofNat_of_isValidChar (h.sound.isValidChar hn)
  have hencode := h.encoding (Char.ofNat (64 * code + b.toNat % 64))
  rw [htoNat] at hencode
  rw [hencode hn, digitBytes, digitBytes, hbyte]

theorem Reached.next (h : Reached piece code (missing + 1) low high)
    (hb : low.toNat ≤ b.toNat ∧ b.toNat ≤ high.toNat) :
  Reached (piece ++ [b]) (64 * code + b.toNat % 64) missing 0x80 0xBF
  := by
  have hsound := h.sound.next b
  rw [next_more hb] at hsound
  refine ⟨List.append_ne_nil_of_left_ne_nil h.ne_nil _, hsound, digitBounds_all, ?_, ?_⟩
  · intro c hc
    obtain ⟨hn, rfl⟩ := h.append_prefix_iff.mp hc
    rw [denotes_iff_div]
    exact ((denotes_iff h.bounds).mp hn).2.symm
  · intro c hn
    rw [denotes_iff_div] at hn
    obtain ⟨hn, hbyte⟩ := h.denotes_of_div hb hn
    rw [h.encoding c hn, digitBytes, hbyte, List.append_assoc, List.singleton_append]

/-- A piece after which no accepted byte comes is a maximal subpart. -/
theorem Reached.isSubpart (h : Reached piece code missing low high)
    (hrest : ∀ b ∈ rest.head?, ¬ (low.toNat ≤ b.toNat ∧ b.toNat ≤ high.toNat)) :
  IsSubpart piece rest
  := by
  have hmore : Begins (piece ++ [low]) := h.begins_append_iff.mpr ⟨Nat.le_refl _, h.bounds.low_le⟩
  have hwithin : ∀ other, Begins other → other <+: piece ++ rest → other <+: piece := by
    intro other hother hstarts
    apply hother.ends_within hstarts
    intro b hb
    rw [h.begins_append_iff]
    apply hrest b hb
  refine ⟨h.ne_nil, ?_, Or.inl (hmore.mono (List.prefix_append _ _)), ?_⟩
  · -- A character within the piece would be complete, and nothing could go on after the piece.
    intro c hc
    have hpiece := hwithin _ (begins_utf8EncodeChar c) hc
    have hlength := hpiece.length_le
    rw [← hmore.eq_utf8EncodeChar (hpiece.trans (List.prefix_append _ _)), List.length_append,
      List.length_singleton] at hlength
    omega
  · intro other hother hstarts
    exact (hwithin other hother hstarts).length_le

end Reached

end State

/-! ### Cutting by reading -/

/-- Reading cuts a byte string, from the start and also within a sequence, together with the bytes
that the sequence began with. -/
structure CutByReading (bytes : Bytes) : Prop where
  start : Cuts bytes (scanAux .start bytes [])
  within : ∀ {piece : Bytes} {code missing : Nat} {low high : UInt8},
    State.Reached piece code missing low high →
      Cuts (piece ++ bytes) (scanAux (.within code (missing + 1) low high) bytes [])

section CutByReading

variable {bytes : Bytes} (h : CutByReading bytes) (b : UInt8)

include h

/-- From the start, a byte is a character or an ill-formed piece of its own, or it begins a
sequence. -/
theorem CutByReading.start_cons :
  Cuts (b :: bytes) (scanAux .start (b :: bytes) [])
  := by
  rw [scanAux_cons]
  by_cases hb : b.toNat < 0x80
  · rw [State.sound_start.next_of_lt hb, ← List.singleton_append, ← utf8EncodeChar_ofNat_of_lt hb]
    apply Cuts.character _ h.start
  · have hb := Nat.not_lt.mp hb
    rw [State.next]
    obtain hfirst | ⟨code, missing, low, high, hfirst⟩ := State.first_of_le hb
    · have hnone : ¬ Begins [b] := by
        rintro ⟨c, hc⟩
        obtain ⟨_, _, _, _, hfirst', -⟩ :=
          State.first_of_begins hc (State.not_isAscii_of_begins hb hc)
        rw [hfirst] at hfirst'
        cases hfirst'
      rw [hfirst]
      exact Cuts.illFormed (isSubpart_singleton hnone bytes) h.start
    · have hsound := State.sound_first b
      rw [hfirst] at hsound
      obtain ⟨missing, rfl⟩ := Nat.exists_eq_add_of_le' hsound.1
      rw [hfirst]
      apply h.within (State.reached_first hb hfirst)

/-- Within a sequence, a byte completes a character, continues the sequence, or ends an ill-formed
piece. -/
theorem CutByReading.within_cons {piece : Bytes} {code missing : Nat} {low high : UInt8}
    (hpiece : State.Reached piece code missing low high) :
  Cuts (piece ++ b :: bytes) (scanAux (.within code (missing + 1) low high) (b :: bytes) [])
  := by
  by_cases hb : low.toNat ≤ b.toNat ∧ b.toNat ≤ high.toNat
  · rw [scanAux_cons, List.append_cons]
    cases missing with
    | zero =>
        rw [State.next_last hb, ← hpiece.utf8EncodeChar_eq hb]
        apply Cuts.character _ h.start
    | succ missing =>
        rw [State.next_more hb]
        apply h.within (hpiece.next hb)
  · -- The byte is read again as a first byte.
    have hstart := h.start_cons b
    rw [scanAux_cons] at hstart ⊢
    rw [State.next_stop hb]
    apply Cuts.illFormed _ hstart
    apply hpiece.isSubpart
    intro b' hb'
    cases hb'
    apply hb

end CutByReading

theorem cutByReading (bytes : Bytes) :
  CutByReading bytes
  := by
  induction bytes with
  | nil =>
      use Cuts.nil
      intro piece code missing low high hpiece
      rw [scanAux_nil]
      exact Cuts.illFormed (hpiece.isSubpart (by simp)) Cuts.nil
  | cons b bytes ih => exact ⟨ih.start_cons b, ih.within_cons b⟩

/-- The pieces that a byte string is cut into are those that a reader finds. -/
theorem cuts_iff {bytes : Bytes} {pieces : List (Option Char)} :
  Cuts bytes pieces ↔ pieces = scan bytes
  := by
  have hscan : Cuts bytes (scan bytes) := (cutByReading bytes).start
  constructor
  · intro h
    apply h.eq hscan
  · rintro rfl
    apply hscan

/-! ### Well-formed byte strings -/

theorem isValid_iff_none_notMem {bytes : Bytes} :
  isValid bytes = true ↔ none ∉ scan bytes
  := by
  rw [isValid, List.all_eq_true]
  constructor
  · intro h hnone
    cases h none hnone
  · intro h piece hpiece
    rw [Option.isSome_iff_ne_none]
    rintro rfl
    apply h hpiece

/-- A byte string that is cut into characters consists of their bytes. -/
theorem Cuts.encode_map {bytes : Bytes} {pieces : List (Option Char)} (h : Cuts bytes pieces)
    (hnone : none ∉ pieces) :
  encode (pieces.map (·.getD '\uFFFD')) = bytes
  := by
  induction h with
  | nil => rfl
  | character c _ ih =>
      rw [List.map_cons, encode, List.flatMap_cons, ← encode,
        ih (List.not_mem_of_not_mem_cons hnone)]
      rfl
  | illFormed => cases hnone List.mem_cons_self

/-- A well-formed byte string consists of the bytes of the text that is read from it. -/
theorem encode_lossy {bytes : Bytes} (h : isValid bytes) :
  encode (lossy bytes) = bytes
  := (cuts_iff.mpr rfl).encode_map (isValid_iff_none_notMem.mp h)

/-- The well-formed byte strings are the encodings of texts. -/
theorem isValid_iff_exists_encode {bytes : Bytes} :
  isValid bytes = true ↔ ∃ text, encode text = bytes
  := by
  constructor
  · intro h
    use lossy bytes, encode_lossy h
  · rintro ⟨text, rfl⟩
    apply isValid_encode

/-- A text is read from exactly the well-formed byte strings. -/
theorem decode?_eq (bytes : Bytes) :
  decode? bytes = if isValid bytes then some (lossy bytes) else none
  := by
  rw [decode?]
  split
  · next hvalid =>
    obtain ⟨text, rfl⟩ := isValid_iff_exists_encode.mp hvalid
    rw [scan_encode, lossy_encode, List.filterMap_map]
    simp
  · rfl

theorem isValid_append {first second : Bytes} (hfirst : isValid first) (hsecond : isValid second) :
  isValid (first ++ second)
  := by
  obtain ⟨text, rfl⟩ := isValid_iff_exists_encode.mp hfirst
  obtain ⟨more, rfl⟩ := isValid_iff_exists_encode.mp hsecond
  rw [← encode_append]
  apply isValid_encode

end Proctor.Utf8
