import Proctor.Proofs.Settings.Tokens

/-!
# Reading strings

The reader of strings goes from state to state, byte by byte. What a piece of a string does to it
is said by the state before and after the piece and by the bytes that are found on the way, and
pieces are put together one after the other. So contents that spell a text are read as the text,
and contents that spell none are refused. Where strings are skipped, all contents are accepted.
-/

namespace Proctor.Settings

open Json
open Cursor (before stringAux skipStringAux hexValue? hexNumber? StringState StringStep)

/-! ### Digits to the base 16 -/

theorem toNat_toLower (c : Char) :
  c.toLower.toNat = if 0x41 ≤ c.toNat ∧ c.toNat ≤ 0x5A then c.toNat + 0x20 else c.toNat
  := by
  split_ifs with hcapital
  · have hval : (c.val + ('a'.val - 'A'.val)).toNat = c.val.toNat + 0x20 := by
      have hsize : c.val.toNat ≤ 0x5A := hcapital.2
      have hshift : ('a'.val - 'A'.val).toNat = 0x20 := by decide
      rw [UInt32.toNat_add, hshift]
      omega
    exact (congrArg Char.toNat (dif_pos hcapital)).trans hval
  · exact congrArg Char.toNat (dif_neg hcapital)

theorem toNat_digitChar {d : Nat} (h : d < 0x10) :
  d.digitChar.toNat = if d < 10 then 0x30 + d else 0x57 + d
  := by
  interval_cases d <;> rfl

/-- A digit to the base 16 is read, whether it is a small or a capital letter. -/
theorem hexValue?_ofNat {c : Char} {d : Nat} (hd : d < 0x10) (h : c.toLower = d.digitChar) :
  Utf8.IsAscii c ∧ hexValue? (UInt8.ofNat c.toNat) = some d
  := by
  have hnumber := congrArg Char.toNat h
  rw [toNat_toLower, toNat_digitChar hd] at hnumber
  have hrange : c.toNat = 0x30 + d ∧ d < 10 ∨ c.toNat = 0x37 + d ∧ 10 ≤ d
      ∨ c.toNat = 0x57 + d ∧ 10 ≤ d := by
    split_ifs at hnumber <;> omega
  have hascii : Utf8.IsAscii c := by
    rw [Utf8.IsAscii]
    omega
  use hascii
  simp only [hexValue?, UInt8.le_iff_toNat_le, Utf8.toNat_ofNat_of_isAscii hascii,
    Bool.and_eq_true, decide_eq_true_eq, UInt8.reduceToNat]
  rcases hrange with ⟨hc, hsize⟩ | ⟨hc, hsize⟩ | ⟨hc, hsize⟩
  · rw [if_pos (by omega), Option.some.injEq]
    omega
  · rw [if_neg (by omega), if_pos (by omega), Option.some.injEq]
    omega
  · rw [if_neg (by omega), if_neg (by omega), if_pos (by omega), Option.some.injEq]
    omega

/-- An escape with four digits, and the number that is read from them. -/
theorem encode_escape {digits : List Char} {n : Nat} (h : Denotes digits n) :
  ∃ a b c d, hexNumber? [a, b, c, d] = some n
    ∧ ∀ rest, Utf8.encode ('\\' :: 'u' :: digits ++ rest)
      = 0x5C :: 0x75 :: a :: b :: c :: d :: Utf8.encode rest
  := by
  obtain ⟨hn, hdigits⟩ := h
  have hlength := congrArg List.length hdigits
  rw [List.length_map] at hlength
  match digits, hlength with
  | [a, b, c, d], _ =>
      simp only [hexDigits, List.map_cons, List.map_nil, List.cons.injEq, and_true] at hdigits
      obtain ⟨ha, hb, hc, hd⟩ := hdigits
      obtain ⟨haAscii, ha⟩ := hexValue?_ofNat (Nat.mod_lt _ (by decide)) ha
      obtain ⟨hbAscii, hb⟩ := hexValue?_ofNat (Nat.mod_lt _ (by decide)) hb
      obtain ⟨hcAscii, hc⟩ := hexValue?_ofNat (Nat.mod_lt _ (by decide)) hc
      obtain ⟨hdAscii, hd⟩ := hexValue?_ofNat (Nat.mod_lt _ (by decide)) hd
      refine ⟨UInt8.ofNat a.toNat, UInt8.ofNat b.toNat, UInt8.ofNat c.toNat, UInt8.ofNat d.toNat,
        ?_, ?_⟩
      · simp only [hexNumber?, List.foldl_cons, List.foldl_nil, ha, hb, hc, hd, Option.pure_def,
          Option.bind_eq_bind, Option.bind_some, Option.some.injEq]
        omega
      · intro rest
        rw [Utf8.encode_append, Utf8.encode_of_isAscii]
        · rfl
        · simp only [List.forall_mem_cons]
          exact ⟨by decide, by decide, haAscii, hbAscii, hcAscii, hdAscii, List.forall_mem_nil _⟩

/-! ### Pieces of strings -/

/-- A piece of a string leads the reader from a state to another one and adds bytes. -/
def Reads (state : StringState) (piece : List Char) (bytes : Bytes) (next : StringState) : Prop :=
  ∀ rest offset found, ∃ after, stringAux state (Utf8.encode (piece ++ rest)) offset found
    = stringAux next (Utf8.encode rest) after (bytes.reverse ++ found)

/-- The reader refuses a string that ends with the given contents. -/
def Refused (state : StringState) (contents : List Char) : Prop :=
  ∀ rest offset found, ∃ mistake,
    stringAux state (Utf8.encode (contents ++ '"' :: rest)) offset found = .error mistake

/-- What is read after a step within a string. -/
def follow (step : StringStep) (rest : Bytes) (offset : Nat) (found : Bytes) :
    Except Mistake (Bytes × Cursor) :=
  match step with
  | .close => .ok (found.reverse, ⟨rest, offset⟩)
  | .more bytes state => stringAux state rest offset (bytes.reverse ++ found)
  | .wrong cause => .error ⟨cause, offset⟩

section Pieces

variable {state middle next : StringState} {piece more : List Char} {bytes moreBytes : Bytes}

theorem Reads.append (h : Reads state piece bytes middle)
    (hmore : Reads middle more moreBytes next) :
  Reads state (piece ++ more) (bytes ++ moreBytes) next
  := by
  intro rest offset found
  obtain ⟨between, hpiece⟩ := h (more ++ rest) offset found
  obtain ⟨after, hmore⟩ := hmore rest between (bytes.reverse ++ found)
  use after
  rw [List.append_assoc, hpiece, hmore, List.reverse_append, List.append_assoc]

theorem Reads.refused (h : Reads state piece bytes next) (hmore : Refused next more) :
  Refused state (piece ++ more)
  := by
  intro rest offset found
  obtain ⟨between, hpiece⟩ := h (more ++ '"' :: rest) offset found
  rw [List.append_assoc, hpiece]
  apply hmore

end Pieces

/-! ### Plain characters -/

/-- A byte that stands for itself in a string. -/
def IsPlainByte (b : UInt8) : Prop :=
  b ≠ 0x22 ∧ b ≠ 0x5C ∧ ¬ b < 0x20

/-- A character that may stand for itself consists of bytes that do. -/
theorem isPlainByte_of_isPlain {c : Char} (h : IsPlain c) :
  ∀ b ∈ String.utf8EncodeChar c, IsPlainByte b
  := by
  intro b hb
  simp only [IsPlainByte, ne_eq, ← UInt8.toNat_inj, UInt8.lt_iff_toNat_lt, UInt8.reduceToNat]
  by_cases hc : Utf8.IsAscii c
  · obtain ⟨hcontrol, hquote, hbackslash⟩ := h
    rw [Utf8.utf8EncodeChar_of_isAscii hc, List.mem_singleton] at hb
    rw [hb, Utf8.toNat_ofNat_of_isAscii hc]
    refine ⟨?_, ?_, Nat.not_lt.mpr hcontrol⟩
    · intro heq
      apply hquote (Char.toNat_inj.mp heq)
    · intro heq
      apply hbackslash (Char.toNat_inj.mp heq)
  · have := Utf8.le_toNat_of_mem_utf8EncodeChar hc hb
    omega

theorem stringAux_plain {bytes : Bytes} (h : ∀ b ∈ bytes, IsPlainByte b) (rest : Bytes)
    (offset : Nat) (found : Bytes) :
  stringAux .plain (bytes ++ rest) offset found
    = stringAux .plain rest (offset + bytes.length) (bytes.reverse ++ found)
  := by
  induction bytes generalizing offset found with
  | nil => rfl
  | cons b bytes ih =>
      obtain ⟨⟨hquote, hbackslash, hcontrol⟩, hbytes⟩ := List.forall_mem_cons.mp h
      rw [List.cons_append, stringAux, StringState.next, if_neg hquote, if_neg hbackslash,
        if_neg hcontrol]
      simp only [ih hbytes]
      simp [Nat.add_assoc, Nat.add_comm 1]

theorem skipStringAux_plain {bytes : Bytes} (h : ∀ b ∈ bytes, IsPlainByte b) (rest : Bytes)
    (offset : Nat) :
  skipStringAux .plain (bytes ++ rest) offset = skipStringAux .plain rest (offset + bytes.length)
  := by
  induction bytes generalizing offset with
  | nil => rfl
  | cons b bytes ih =>
      obtain ⟨⟨hquote, hbackslash, hcontrol⟩, hbytes⟩ := List.forall_mem_cons.mp h
      rw [List.cons_append, skipStringAux, if_neg hquote, if_neg hbackslash, if_neg hcontrol,
        ih hbytes, List.length_cons, Nat.add_right_comm, Nat.add_assoc]
      · intro h
        cases h
      · intro digits h
        cases h

theorem reads_plain {c : Char} (h : IsPlain c) :
  Reads .plain [c] (String.utf8EncodeChar c) .plain
  := by
  intro rest offset found
  use offset + (String.utf8EncodeChar c).length
  apply stringAux_plain (isPlainByte_of_isPlain h)

/-- No plain character follows the first half of a pair. -/
theorem refused_plain {c : Char} (h : IsPlain c) (contents : List Char) (lead : Nat) :
  Refused (.pairBackslash lead) (c :: contents)
  := by
  intro rest offset found
  obtain ⟨b, bytes, hbytes⟩ := List.exists_cons_of_ne_nil (String.utf8EncodeChar_ne_nil (c := c))
  have hb := isPlainByte_of_isPlain h b (hbytes ▸ List.mem_cons_self)
  use ⟨.endOfEscape, offset + 1⟩
  change stringAux _ (String.utf8EncodeChar c ++ Utf8.encode (contents ++ _)) _ _ = _
  rw [hbytes, List.cons_append, stringAux, StringState.next, if_neg hb.2.1]

/-! ### Escapes -/

/-- A letter after a backslash, and the byte that it stands for. -/
theorem escape?_of_mem {letter c : Char} (h : (letter, c) ∈ shortForms) :
  ∃ b byte, Cursor.escape? b = some byte ∧ b ≠ 0x75 ∧ String.utf8EncodeChar c = [byte]
    ∧ ∀ rest, Utf8.encode ('\\' :: letter :: rest) = 0x5C :: b :: Utf8.encode rest
  := by
  simp only [shortForms, List.mem_cons, Prod.mk.injEq, List.not_mem_nil, or_false] at h
  rcases h with ⟨rfl, rfl⟩ | ⟨rfl, rfl⟩ | ⟨rfl, rfl⟩ | ⟨rfl, rfl⟩ | ⟨rfl, rfl⟩ | ⟨rfl, rfl⟩
    | ⟨rfl, rfl⟩ | ⟨rfl, rfl⟩ <;> exact ⟨_, _, rfl, by decide, rfl, fun rest => rfl⟩

section Short

variable {letter c : Char} (h : (letter, c) ∈ shortForms)

include h

theorem reads_short :
  Reads .plain ['\\', letter] (String.utf8EncodeChar c) .plain
  := by
  obtain ⟨b, byte, hbyte, hb, hc, hread⟩ := escape?_of_mem h
  have hstep : StringState.next .escaped b = .more [byte] .plain := by
    rw [StringState.next, if_neg hb, hbyte]
  intro rest offset found
  use offset + 2
  rw [List.cons_append, List.singleton_append, hread, hc]
  change follow (StringState.next .escaped b) (Utf8.encode rest) (offset + 2) found = _
  rw [hstep, follow]

/-- No escape with a letter follows the first half of a pair. -/
theorem refused_short (contents : List Char) (lead : Nat) :
  Refused (.pairBackslash lead) ('\\' :: letter :: contents)
  := by
  obtain ⟨b, -, -, hb, -, hread⟩ := escape?_of_mem h
  have hstep : StringState.next (.pairLetter lead) b = .wrong .endOfEscape := by
    rw [StringState.next, if_neg hb]
  intro rest offset found
  use ⟨.endOfEscape, offset + 2⟩
  rw [List.cons_append, List.cons_append, hread]
  change follow (StringState.next (.pairLetter lead) b) _ (offset + 2) found = _
  rw [hstep, follow]

theorem skipStringAux_short (rest : List Char) (offset : Nat) :
  skipStringAux .plain (Utf8.encode ('\\' :: letter :: rest)) offset
    = skipStringAux .plain (Utf8.encode rest) (offset + 2)
  := by
  obtain ⟨b, byte, hbyte, hb, -, hread⟩ := escape?_of_mem h
  rw [hread]
  change skipStringAux .escaped (b :: Utf8.encode rest) (offset + 1) = _
  rw [skipStringAux, if_neg hb, hbyte, if_pos Option.isSome_some]

end Short

theorem numberStep_eq {number : Bytes} {n : Nat} (h : hexNumber? number = some n) :
  Cursor.numberStep number
    = if 0xDC00 ≤ n ∧ n ≤ 0xDFFF then .wrong .loneSurrogate
      else if 0xD800 ≤ n ∧ n ≤ 0xDBFF then .more [] (.pairBackslash n)
      else .more (String.utf8EncodeChar (Char.ofNat n)) .plain
  := by
  simp only [Cursor.numberStep, h, Bool.and_eq_true, decide_eq_true_eq]

theorem pairStep_eq {number : Bytes} {n : Nat} (h : hexNumber? number = some n) (lead : Nat) :
  Cursor.pairStep lead number
    = if 0xDC00 ≤ n ∧ n ≤ 0xDFFF then .more (String.utf8EncodeChar
        (Char.ofNat ((lead - 0xD800) * 0x400 + (n - 0xDC00) + 0x10000))) .plain
      else .wrong .loneSurrogate
  := by
  simp only [Cursor.pairStep, h, Bool.and_eq_true, decide_eq_true_eq]

section Numbered

variable {digits : List Char} {n : Nat} (h : Denotes digits n)

include h

/-- What is read after an escape with digits is what the digits do. -/
theorem stringAux_escape :
  ∃ number, hexNumber? number = some n ∧
    (∀ rest offset found,
      stringAux .plain (Utf8.encode ('\\' :: 'u' :: digits ++ rest)) offset found
        = follow (Cursor.numberStep number) (Utf8.encode rest) (offset + 6) found) ∧
    (∀ lead rest offset found,
      stringAux (.pairBackslash lead) (Utf8.encode ('\\' :: 'u' :: digits ++ rest)) offset found
        = follow (Cursor.pairStep lead number) (Utf8.encode rest) (offset + 6) found) ∧
    (∀ rest offset, skipStringAux .plain (Utf8.encode ('\\' :: 'u' :: digits ++ rest)) offset
      = skipStringAux .plain (Utf8.encode rest) (offset + 6))
  := by
  obtain ⟨a, b, c, d, hnumber, hread⟩ := encode_escape h
  refine ⟨[a, b, c, d], hnumber, ?_, ?_, ?_⟩
  · intro rest offset found
    rw [hread]
    rfl
  · intro lead rest offset found
    rw [hread]
    rfl
  · intro rest offset
    rw [hread]
    have hsome : (hexNumber? ([a, b, c] ++ [d])).isSome := Option.isSome_of_eq_some hnumber
    exact if_pos hsome

theorem reads_numbered (hscalar : n < 0xD800 ∨ 0xDFFF < n) :
  Reads .plain ('\\' :: 'u' :: digits) (String.utf8EncodeChar (Char.ofNat n)) .plain
  := by
  obtain ⟨number, hnumber, hread, -⟩ := stringAux_escape h
  intro rest offset found
  use offset + 6
  rw [hread, numberStep_eq hnumber, if_neg (by omega), if_neg (by omega), follow]

theorem reads_lead (hlead : 0xD800 ≤ n ∧ n ≤ 0xDBFF) :
  Reads .plain ('\\' :: 'u' :: digits) [] (.pairBackslash n)
  := by
  obtain ⟨number, hnumber, hread, -⟩ := stringAux_escape h
  intro rest offset found
  use offset + 6
  rw [hread, numberStep_eq hnumber, if_neg (by omega), if_pos hlead, follow]

theorem reads_trail (htrail : 0xDC00 ≤ n ∧ n ≤ 0xDFFF) (lead : Nat) :
  Reads (.pairBackslash lead) ('\\' :: 'u' :: digits)
    (String.utf8EncodeChar (Char.ofNat ((lead - 0xD800) * 0x400 + (n - 0xDC00) + 0x10000))) .plain
  := by
  obtain ⟨number, hnumber, -, hread, -⟩ := stringAux_escape h
  intro rest offset found
  use offset + 6
  rw [hread, pairStep_eq hnumber, if_pos htrail, follow]

/-- The second half of a pair does not come first. -/
theorem refused_trail (htrail : 0xDC00 ≤ n ∧ n ≤ 0xDFFF) (contents : List Char) :
  Refused .plain ('\\' :: 'u' :: digits ++ contents)
  := by
  obtain ⟨number, hnumber, hread, -⟩ := stringAux_escape h
  intro rest offset found
  use ⟨.loneSurrogate, offset + 6⟩
  rw [List.append_assoc, hread, numberStep_eq hnumber, if_pos htrail, follow]

/-- Nothing but the second half of a pair follows the first one. -/
theorem refused_of_not_trail (htrail : ¬ (0xDC00 ≤ n ∧ n ≤ 0xDFFF)) (lead : Nat)
    (contents : List Char) :
  Refused (.pairBackslash lead) ('\\' :: 'u' :: digits ++ contents)
  := by
  obtain ⟨number, hnumber, -, hread, -⟩ := stringAux_escape h
  intro rest offset found
  use ⟨.loneSurrogate, offset + 6⟩
  rw [List.append_assoc, hread, pairStep_eq hnumber, if_neg htrail, follow]

end Numbered

/-! ### Contents -/

theorem reads_spelling {c : Char} {spelling : List Char} (h : Spelling c spelling) :
  Reads .plain spelling (String.utf8EncodeChar c) .plain
  := by
  have hvalid : c.toNat < 0xD800 ∨ 0xDFFF < c.toNat ∧ c.toNat < 0x110000 := c.valid
  cases h with
  | plain h => apply reads_plain h
  | short h => apply reads_short h
  | numbered h =>
      have hread := reads_numbered h (by omega)
      rwa [Char.ofNat_toNat] at hread
  | pair hsize hlead htrail =>
      have hcode : (leadSurrogate c - 0xD800) * 0x400 + (trailSurrogate c - 0xDC00) + 0x10000
          = c.toNat := by
        rw [leadSurrogate, trailSurrogate]
        omega
      have hread := (reads_lead hlead (by rw [leadSurrogate]; omega)).append
        (reads_trail htrail (by rw [trailSurrogate]; omega) _)
      rwa [hcode, Char.ofNat_toNat] at hread

/-- Contents that spell a text are read as the text. -/
theorem reads_spells {text contents : List Char} (h : Spells text contents) :
  Reads .plain contents (Utf8.encode text) .plain
  := by
  induction h with
  | nil =>
      intro rest offset found
      exact ⟨offset, rfl⟩
  | cons h _ ih => apply (reads_spelling h).append ih

/-- After the first half of a pair, contents go on with the second half and then spell a text. -/
def SpellsTrail (contents : List Char) : Prop :=
  ∃ digits n text more, contents = '\\' :: 'u' :: digits ++ more ∧ Denotes digits n
    ∧ (0xDC00 ≤ n ∧ n ≤ 0xDFFF) ∧ Spells text more

theorem spells_pair {digits contents : List Char} {n : Nat} (h : Denotes digits n)
    (hlead : 0xD800 ≤ n ∧ n ≤ 0xDBFF) (hcontents : SpellsTrail contents) :
  ∃ text, Spells text ('\\' :: 'u' :: digits ++ contents)
  := by
  obtain ⟨trail, m, text, more, rfl, htrail, hm, hmore⟩ := hcontents
  set code := (n - 0xD800) * 0x400 + (m - 0xDC00) + 0x10000 with hcode
  have hc : (Char.ofNat code).toNat = code := by
    apply Utf8.toNat_ofNat_of_isValidChar
    rw [Nat.isValidChar]
    omega
  use Char.ofNat code :: text
  have hspelling : Spelling (Char.ofNat code) ('\\' :: 'u' :: digits ++ '\\' :: 'u' :: trail) := by
    apply Spelling.pair
    · omega
    · rwa [leadSurrogate, hc, show 0xD800 + (code - 0x10000) / 0x400 = n by omega]
    · rwa [trailSurrogate, hc, show 0xDC00 + (code - 0x10000) % 0x400 = m by omega]
  have hspells := Spells.cons hspelling hmore
  rwa [List.append_assoc] at hspells

theorem spells_or_refused {contents : List Char} (h : IsContents contents) :
  ((∃ text, Spells text contents) ∨ Refused .plain contents)
    ∧ (SpellsTrail contents ∨ ∀ lead, Refused (.pairBackslash lead) contents)
  := by
  induction h with
  | nil =>
      refine ⟨.inl ⟨[], .nil⟩, .inr ?_⟩
      intro lead rest offset found
      exact ⟨_, rfl⟩
  | @plain c contents h _ ih =>
      constructor
      · rcases ih.1 with ⟨text, htext⟩ | hrefused
        · exact .inl ⟨c :: text, .cons (.plain h) htext⟩
        · exact .inr ((reads_plain h).refused hrefused)
      · exact .inr (refused_plain h contents)
  | @short letter c contents h _ ih =>
      constructor
      · rcases ih.1 with ⟨text, htext⟩ | hrefused
        · exact .inl ⟨c :: text, .cons (.short h) htext⟩
        · exact .inr ((reads_short h).refused hrefused)
      · exact .inr (refused_short h contents)
  | @numbered n digits contents h _ ih =>
      by_cases htrail : 0xDC00 ≤ n ∧ n ≤ 0xDFFF
      · refine ⟨.inr (refused_trail h htrail contents), ?_⟩
        rcases ih.1 with ⟨text, htext⟩ | hrefused
        · exact .inl ⟨digits, n, text, contents, rfl, h, htrail, htext⟩
        · exact .inr fun lead => (reads_trail h htrail lead).refused hrefused
      · refine ⟨?_, .inr fun lead => refused_of_not_trail h htrail lead contents⟩
        by_cases hlead : 0xD800 ≤ n ∧ n ≤ 0xDBFF
        · rcases ih.2 with hspells | hrefused
          · exact .inl (spells_pair h hlead hspells)
          · exact .inr ((reads_lead h hlead).refused (hrefused n))
        · have hc : (Char.ofNat n).toNat = n := by
            have := h.1
            apply Utf8.toNat_ofNat_of_isValidChar
            rw [Nat.isValidChar]
            omega
          rcases ih.1 with ⟨text, htext⟩ | hrefused
          · exact .inl ⟨Char.ofNat n :: text, .cons (.numbered (hc.symm ▸ h)) htext⟩
          · exact .inr ((reads_numbered h (by omega)).refused hrefused)

/-! ### Whole strings -/

/-- A string is read as the text that it spells. -/
theorem string_before {text contents : List Char} (h : Spells text contents) (rest : List Char)
    (offset : Nat) :
  ∃ after, (before (contents ++ '"' :: rest) offset).string
    = .ok (Utf8.encode text, before rest after)
  := by
  obtain ⟨last, hlast⟩ := reads_spells h ('"' :: rest) offset []
  use last + 1
  rw [Cursor.string, before, hlast, List.append_nil]
  change Except.ok ((Utf8.encode text).reverse.reverse, before rest (last + 1)) = _
  rw [List.reverse_reverse]

/-- A string that spells no text is refused. -/
theorem string_before_error {contents : List Char} (h : IsContents contents)
    (hspells : ∀ text, ¬ Spells text contents) (rest : List Char) (offset : Nat) :
  ∃ mistake, (before (contents ++ '"' :: rest) offset).string = .error mistake
  := by
  rcases (spells_or_refused h).1 with ⟨text, htext⟩ | hrefused
  · cases hspells text htext
  · apply hrefused

/-- All contents are accepted where a string is skipped. -/
theorem skipString_before {contents : List Char} (h : IsContents contents) (rest : List Char)
    (offset : Nat) :
  ∃ after, (before (contents ++ '"' :: rest) offset).skipString = .ok (before rest after)
  := by
  change ∃ after, skipStringAux .plain (Utf8.encode (contents ++ '"' :: rest)) offset = _
  induction h generalizing offset with
  | nil => exact ⟨offset + 1, rfl⟩
  | @plain c contents h _ ih =>
      obtain ⟨after, hafter⟩ := ih (offset + (String.utf8EncodeChar c).length)
      use after
      rw [← hafter]
      apply skipStringAux_plain (isPlainByte_of_isPlain h)
  | short h _ ih =>
      obtain ⟨after, hafter⟩ := ih (offset + 2)
      use after
      rw [← hafter]
      apply skipStringAux_short h
  | numbered h _ ih =>
      obtain ⟨number, -, -, -, hskip⟩ := stringAux_escape h
      obtain ⟨after, hafter⟩ := ih (offset + 6)
      use after
      rw [← hafter, List.append_assoc]
      apply hskip

end Proctor.Settings

namespace Proctor.Json

/-- The digits of a number denote it. -/
theorem denotes_hexDigits {n : Nat} (h : n < 0x10000) :
  Denotes (hexDigits n) n
  := by
  have hdigit : ∀ d < 0x10, d.digitChar.toLower = d.digitChar := by
    decide
  refine ⟨h, ?_⟩
  simp only [hexDigits, List.map_cons, List.map_nil, hdigit _ (Nat.mod_lt _ (by decide : 0 < 0x10))]

theorem spelling_spell (c : Char) :
  Spelling c (spell c)
  := by
  rw [spell]
  split_ifs with hshort hplain
  · rcases hshort with rfl | rfl
    · exact .short (by decide)
    · exact .short (by decide)
  · exact .plain hplain
  · have hcontrol : c.toNat < 0x20 := by
      apply Nat.lt_of_not_le
      intro hsize
      rw [not_or] at hshort
      exact hplain ⟨hsize, hshort⟩
    exact .numbered (denotes_hexDigits (by omega))

theorem Spelling.isContents {c : Char} {spelling rest : List Char} (h : Spelling c spelling)
    (hrest : IsContents rest) :
  IsContents (spelling ++ rest)
  := by
  cases h with
  | plain h => exact .plain h hrest
  | short h => exact .short h hrest
  | numbered h => exact .numbered h hrest
  | pair _ hlead htrail =>
      rw [List.append_assoc]
      exact .numbered hlead (.numbered htrail hrest)

theorem Spells.isContents {text contents : List Char} (h : Spells text contents) :
  IsContents contents
  := by
  induction h with
  | nil => exact .nil
  | cons h _ ih => apply h.isContents ih

theorem Quotes.isValue {text value : List Char} (h : Quotes text value) :
  IsValue value
  := by
  obtain ⟨contents, hspells, rfl⟩ := h
  exact .string hspells.isContents

theorem spells_flatMap (text : List Char) :
  Spells text (text.flatMap spell)
  := by
  induction text with
  | nil => exact .nil
  | cons c text ih => exact .cons (spelling_spell c) ih

/-- Every text is spelled by its encoding. -/
theorem quotes_encoding (text : List Char) :
  Quotes text (encoding text)
  := ⟨text.flatMap spell, spells_flatMap text, rfl⟩

end Proctor.Json
