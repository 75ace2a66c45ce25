import Proctor.Settings.Fault

/-!
# Reading along a settings file

A cursor holds the bytes that are still to be read and the number of those already read. Here are
the leaves of the reader: blanks, literals, digits and strings. A fault is noticed either here,
after the bytes already read, or ahead, at the byte that is looked at next.
-/

namespace Proctor.Settings

/-- A place in a text. -/
structure Cursor where
  rest : Bytes
  offset : Nat
  deriving DecidableEq, Repr

namespace Cursor

/-- A fault after the bytes already read. -/
def here {α : Type} (cursor : Cursor) (cause : Cause) : Except Mistake α :=
  .error ⟨cause, cursor.offset⟩

/-- A fault at the byte that comes next, or at the end. -/
def ahead {α : Type} (cursor : Cursor) (cause : Cause) : Except Mistake α :=
  .error ⟨cause, cursor.offset + min 1 cursor.rest.length⟩

/-- Whether a byte is one of the blanks that may stand between tokens. -/
def isBlank (b : UInt8) : Bool :=
  b == 0x20 || b == 0x0A || b == 0x09 || b == 0x0D

/-- The place after the bytes that satisfy a condition. -/
def skipWhile (p : UInt8 → Bool) (cursor : Cursor) : Cursor :=
  ⟨cursor.rest.dropWhile p, cursor.offset + (cursor.rest.takeWhile p).length⟩

/-- The place after blanks. -/
def skipBlanks (cursor : Cursor) : Cursor :=
  cursor.skipWhile isBlank

/-- The place after the rest of a literal whose first byte has been read. -/
def literal : (expected : Bytes) → (rest : Bytes) → (offset : Nat) → Except Mistake Cursor
  | [], rest, offset => .ok ⟨rest, offset⟩
  | _ :: _, [], offset => .error ⟨.endInValue, offset⟩
  | e :: expected, b :: rest, offset =>
    if b = e then literal expected rest (offset + 1)
    else .error ⟨.expectedLiteral, offset + 1⟩

/-! ### Strings -/

/-- The value of a hexadecimal digit. -/
def hexValue? (b : UInt8) : Option Nat :=
  if 0x30 ≤ b && b ≤ 0x39 then some (b.toNat - 0x30)
  else if 0x41 ≤ b && b ≤ 0x46 then some (b.toNat - 0x41 + 10)
  else if 0x61 ≤ b && b ≤ 0x66 then some (b.toNat - 0x61 + 10)
  else none

/-- The number that hexadecimal digits denote. -/
def hexNumber? (digits : Bytes) : Option Nat :=
  digits.foldl (fun n b => do return 16 * (← n) + (← hexValue? b)) (some 0)

/-- The byte that a backslash followed by a letter stands for. -/
def escape? (b : UInt8) : Option UInt8 :=
  match b with
  | 0x22 => some 0x22
  | 0x5C => some 0x5C
  | 0x2F => some 0x2F
  | 0x62 => some 0x08
  | 0x66 => some 0x0C
  | 0x6E => some 0x0A
  | 0x72 => some 0x0D
  | 0x74 => some 0x09
  | _ => none

/-- Where the reader of a string stands: among plain characters, after a backslash, among the four
hexadecimal digits of a number, or, after a leading surrogate, before the backslash and the letter
of the trailing one, or among its digits. -/
inductive StringState where
  | plain
  | escaped
  | number (digits : Bytes)
  | pairBackslash (lead : Nat)
  | pairLetter (lead : Nat)
  | pairNumber (lead : Nat) (digits : Bytes)
  deriving DecidableEq, Repr

/-- What one byte of a string does: it ends the string, adds bytes to it, or is wrong. -/
inductive StringStep where
  | close
  | more (bytes : Bytes) (state : StringState)
  | wrong (cause : Cause)
  deriving DecidableEq, Repr

/-- What four hexadecimal digits that do not follow a leading surrogate do. -/
def numberStep (digits : Bytes) : StringStep :=
  match hexNumber? digits with
  | none => .wrong .invalidEscape
  | some n =>
    if 0xDC00 ≤ n && n ≤ 0xDFFF then .wrong .loneSurrogate
    else if 0xD800 ≤ n && n ≤ 0xDBFF then .more [] (.pairBackslash n)
    else .more (String.utf8EncodeChar (Char.ofNat n)) .plain

/-- What four hexadecimal digits that follow a leading surrogate do. -/
def pairStep (lead : Nat) (digits : Bytes) : StringStep :=
  match hexNumber? digits with
  | none => .wrong .invalidEscape
  | some n =>
    if 0xDC00 ≤ n && n ≤ 0xDFFF then
      let code := (lead - 0xD800) * 0x400 + (n - 0xDC00) + 0x10000
      .more (String.utf8EncodeChar (Char.ofNat code)) .plain
    else .wrong .loneSurrogate

/-- What one byte of a string does. -/
def StringState.next : StringState → UInt8 → StringStep
  | .plain, b =>
    if b = 0x22 then .close
    else if b = 0x5C then .more [] .escaped
    else if b < 0x20 then .wrong .controlCharacter
    else .more [b] .plain
  | .escaped, b =>
    if b = 0x75 then .more [] (.number [])
    else
      match escape? b with
      | some byte => .more [byte] .plain
      | none => .wrong .invalidEscape
  | .number digits, b =>
    if digits.length < 3 then .more [] (.number (digits ++ [b])) else numberStep (digits ++ [b])
  | .pairBackslash lead, b =>
    if b = 0x5C then .more [] (.pairLetter lead) else .wrong .endOfEscape
  | .pairLetter lead, b =>
    if b = 0x75 then .more [] (.pairNumber lead []) else .wrong .endOfEscape
  | .pairNumber lead digits, b =>
    if digits.length < 3 then .more [] (.pairNumber lead (digits ++ [b]))
    else pairStep lead (digits ++ [b])

/-- The bytes of a string whose opening quote has been read, and the place after its closing quote.
The bytes already found are in reverse order. -/
def stringAux : StringState → (rest : Bytes) → (offset : Nat) → (found : Bytes) →
    Except Mistake (Bytes × Cursor)
  | _, [], offset, _ => .error ⟨.endInString, offset⟩
  | state, b :: rest, offset, found =>
    match state.next b with
    | .close => .ok (found.reverse, ⟨rest, offset + 1⟩)
    | .more bytes state => stringAux state rest (offset + 1) (bytes.reverse ++ found)
    | .wrong cause => .error ⟨cause, offset + 1⟩

/-- The bytes of a string whose opening quote has been read, and the place after its closing
quote. -/
def string (cursor : Cursor) : Except Mistake (Bytes × Cursor) :=
  stringAux .plain cursor.rest cursor.offset []

/-! ### Strings that nobody needs -/

/-- The place after a string whose opening quote has been read and whose contents are not needed.
Surrogates need not be paired in it. -/
def skipStringAux : StringState → (rest : Bytes) → (offset : Nat) → Except Mistake Cursor
  | _, [], offset => .error ⟨.endInString, offset⟩
  | .escaped, b :: rest, offset =>
    if b = 0x75 then skipStringAux (.number []) rest (offset + 1)
    else if (escape? b).isSome then skipStringAux .plain rest (offset + 1)
    else .error ⟨.invalidEscape, offset + 1⟩
  | .number digits, b :: rest, offset =>
    if digits.length < 3 then skipStringAux (.number (digits ++ [b])) rest (offset + 1)
    else if (hexNumber? (digits ++ [b])).isSome then skipStringAux .plain rest (offset + 1)
    else .error ⟨.invalidEscape, offset + 1⟩
  | _, b :: rest, offset =>
    if b = 0x22 then .ok ⟨rest, offset + 1⟩
    else if b = 0x5C then skipStringAux .escaped rest (offset + 1)
    else if b < 0x20 then .error ⟨.controlCharacter, offset⟩
    else skipStringAux .plain rest (offset + 1)

/-- The place after a string whose opening quote has been read and whose contents are not
needed. -/
def skipString (cursor : Cursor) : Except Mistake Cursor :=
  skipStringAux .plain cursor.rest cursor.offset

/-! ### Reading never goes back -/

theorem skipWhile_length_le (p : UInt8 → Bool) (cursor : Cursor) :
  (cursor.skipWhile p).rest.length ≤ cursor.rest.length
  := (List.dropWhile_sublist p).length_le

theorem skipBlanks_length_le (cursor : Cursor) :
  cursor.skipBlanks.rest.length ≤ cursor.rest.length
  := skipWhile_length_le _ _

theorem literal_length_le {expected rest : Bytes} {offset : Nat} {cursor : Cursor}
    (h : literal expected rest offset = .ok cursor) :
  cursor.rest.length ≤ rest.length
  := by
  fun_induction literal expected rest offset with
  | case1 => cases h; simp
  | case2 => simp at h
  | case3 _ _ _ _ ih => exact Nat.le_succ_of_le (ih h)
  | case4 => simp at h

theorem stringAux_length_le {state : StringState} {rest found bytes : Bytes} {offset : Nat}
    {cursor : Cursor} (h : stringAux state rest offset found = .ok (bytes, cursor)) :
  cursor.rest.length ≤ rest.length
  := by
  fun_induction stringAux state rest offset found with
  | case1 => simp at h
  | case2 => cases h; simp
  | case3 _ _ _ _ _ _ _ _ ih => exact Nat.le_succ_of_le (ih h)
  | case4 => simp at h

theorem string_length_le {cursor next : Cursor} {bytes : Bytes}
    (h : cursor.string = .ok (bytes, next)) :
  next.rest.length ≤ cursor.rest.length
  := stringAux_length_le h

theorem skipStringAux_length_le {state : StringState} {rest : Bytes} {offset : Nat}
    {cursor : Cursor} (h : skipStringAux state rest offset = .ok cursor) :
  cursor.rest.length ≤ rest.length
  := by
  fun_induction skipStringAux state rest offset with
  | case1 | case4 | case7 | case10 => simp at h
  | case2 _ _ ih => exact Nat.le_succ_of_le (ih h)
  | case3 _ _ _ _ _ ih => exact Nat.le_succ_of_le (ih h)
  | case5 _ _ _ _ _ ih => exact Nat.le_succ_of_le (ih h)
  | case6 _ _ _ _ _ _ ih => exact Nat.le_succ_of_le (ih h)
  | case8 => cases h; simp
  | case9 _ _ _ _ _ _ ih => exact Nat.le_succ_of_le (ih h)
  | case11 _ _ _ _ _ _ _ _ _ ih => exact Nat.le_succ_of_le (ih h)

theorem skipString_length_le {cursor next : Cursor} (h : cursor.skipString = .ok next) :
  next.rest.length ≤ cursor.rest.length
  := skipStringAux_length_le h

end Cursor

end Proctor.Settings
