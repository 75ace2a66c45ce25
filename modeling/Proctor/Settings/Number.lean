import Proctor.Settings.Cursor

/-!
# Numbers in settings files

A number is read digit by digit. Its digits are collected into a significand as long as it fits 64
bits; digits beyond that only move the point. A number with neither a fraction nor an exponent is
a whole number if it fits 64 bits, and every other number becomes a binary floating-point number:
the significand is rounded to one, and multiplied with or divided by a rounded power of ten.
-/

namespace Proctor.Settings

open Decimal

/-- The significand that digits extend another one to, and how many of the digits fit into 64
bits. -/
def absorb : (significand count : Nat) → (digits : Bytes) → Nat × Nat
  | significand, count, [] => (significand, count)
  | significand, count, digit :: digits =>
    let next := 10 * significand + Bytes.digitValue digit
    if next < Nat.pow 2 64 then absorb next (count + 1) digits else (significand, count)

/-- The greatest power of ten in the format. -/
def greatestPower : Nat := 308

/-- A number of at most 64 bits divided by a power of ten. A power beyond the format is divided away
in portions; after two of them nothing is left of the number. -/
def divideByPower : (portions : Nat) → Binary64 → (exponent : Nat) → Option Binary64
  | 0, _, _ => some Binary64.zero
  | portions + 1, number, exponent =>
    if exponent ≤ greatestPower then do number.div (← Binary64.powerOfTen exponent)
    else do
      let smaller ← number.div (← Binary64.powerOfTen greatestPower)
      divideByPower portions smaller (exponent - greatestPower)

/-- A number of at most 64 bits times a power of ten; `none` if that is too large. -/
def scaleByPower (number : Binary64) (exponent : Int) : Option Binary64 :=
  if exponent < 0 then divideByPower 3 number exponent.natAbs
  else if exponent.toNat ≤ greatestPower then do
    number.mul (← Binary64.powerOfTen exponent.toNat)
  else if number.mantissa = 0 then some number
  else none

/-- The number for a sign, a significand and a power of ten, at the place where it ends. -/
def ofParts (isNegative : Bool) (significand : Nat) (exponent : Int) (cursor : Cursor) :
    Except Mistake (Number × Cursor) :=
  match (do scaleByPower (← Binary64.ofNat significand) exponent) with
  | some value => .ok (.float isNegative value, cursor)
  | none => cursor.here .numberOutOfRange

/-- The greatest exponent that may be written. -/
def exponentLimit : Nat := 2147483647

/-- A sum of an exponent with a written one, which stays within 32 bits. -/
def saturate (exponent : Int) : Int :=
  max (-2147483648) (min 2147483647 exponent)

/-- The exponent that digits denote, and the place after them. A digit that makes it exceed the
limit ends the reading; the flag says whether that was so. -/
def exponentAux : (exponent : Nat) → (rest : Bytes) → (offset : Nat) → Nat × Bool × Cursor
  | exponent, [], offset => (exponent, false, ⟨[], offset⟩)
  | exponent, digit :: rest, offset =>
    if Bytes.isDigit digit then
      let next := 10 * exponent + Bytes.digitValue digit
      if next ≤ exponentLimit then exponentAux next rest (offset + 1)
      else (exponent, true, ⟨rest, offset + 1⟩)
    else (exponent, false, ⟨digit :: rest, offset⟩)

/-- Read past a sign, and tell whether it is a minus. -/
def sign (cursor : Cursor) : Bool × Cursor :=
  match cursor.rest with
  | 0x2B :: rest => (false, ⟨rest, cursor.offset + 1⟩)
  | 0x2D :: rest => (true, ⟨rest, cursor.offset + 1⟩)
  | _ => (false, cursor)

/-- The number whose exponent begins after the letter just read. -/
def withExponent (isNegative : Bool) (significand : Nat) (power : Int) (cursor : Cursor) :
    Except Mistake (Number × Cursor) :=
  let (isSmall, cursor) := sign cursor
  match cursor.rest with
  | [] => cursor.here .endInValue
  | digit :: rest =>
    let next : Cursor := ⟨rest, cursor.offset + 1⟩
    if Bytes.isDigit digit then
      match exponentAux (Bytes.digitValue digit) next.rest next.offset with
      | (exponent, false, cursor) =>
        let exponent : Int := if isSmall then -exponent else exponent
        ofParts isNegative significand (saturate (power + exponent)) cursor
      | (_, true, cursor) =>
        if significand ≠ 0 && !isSmall then cursor.here .numberOutOfRange
        else .ok (.float isNegative Binary64.zero, cursor.skipWhile Bytes.isDigit)
    else next.here .invalidNumber

/-- The number that goes on, after its digits, with an exponent or not at all. -/
def afterDigits (isNegative : Bool) (significand : Nat) (power : Int) (cursor : Cursor) :
    Except Mistake (Number × Cursor) :=
  match cursor.rest with
  | b :: rest =>
    if b = 0x65 || b = 0x45 then
      withExponent isNegative significand power ⟨rest, cursor.offset + 1⟩
    else ofParts isNegative significand power cursor
  | [] => ofParts isNegative significand power cursor

/-- The number whose fraction begins after the point just read. -/
def withFraction (isNegative : Bool) (significand : Nat) (power : Int) (cursor : Cursor) :
    Except Mistake (Number × Cursor) :=
  let digits := cursor.rest.takeWhile Bytes.isDigit
  if digits.isEmpty then
    cursor.ahead (if cursor.rest.isEmpty then .endInValue else .invalidNumber)
  else
    let (significand, count) := absorb significand 0 digits
    afterDigits isNegative significand (power - count) (cursor.skipWhile Bytes.isDigit)

/-- A whole number. Minus zero and numbers beyond 64 bits are floating-point numbers. -/
def whole (isNegative : Bool) (significand : Nat) (cursor : Cursor) :
    Except Mistake (Number × Cursor) :=
  if !isNegative then .ok (.natural significand, cursor)
  else if 0 < significand && significand ≤ Nat.pow 2 63 then .ok (.negative significand, cursor)
  else ofParts true significand 0 cursor

/-- The number whose digits before the point begin at a cursor. -/
def unsigned (isNegative : Bool) (cursor : Cursor) : Except Mistake (Number × Cursor) :=
  match cursor.rest with
  | [] => cursor.here .endInValue
  | first :: rest =>
    let next : Cursor := ⟨rest, cursor.offset + 1⟩
    if !Bytes.isDigit first then next.here .invalidNumber
    else if first = 0x30 && (rest.head?.any Bytes.isDigit) then next.ahead .invalidNumber
    else
      let digits := if first = 0x30 then [first] else cursor.rest.takeWhile Bytes.isDigit
      let (significand, count) := absorb 0 0 digits
      let power : Int := digits.length - count
      let after : Cursor := ⟨cursor.rest.drop digits.length, cursor.offset + digits.length⟩
      match after.rest with
      | 0x2E :: rest => withFraction isNegative significand power ⟨rest, after.offset + 1⟩
      | _ =>
        if count = digits.length && !after.rest.head?.any (fun b => b = 0x65 || b = 0x45) then
          whole isNegative significand after
        else afterDigits isNegative significand power after

/-- A number, and the place after it. -/
def number (cursor : Cursor) : Except Mistake (Number × Cursor) :=
  match cursor.rest with
  | 0x2D :: rest => unsigned true ⟨rest, cursor.offset + 1⟩
  | _ => unsigned false cursor

/-! ### Numbers that nobody needs -/

/-- The place after an exponent whose letter has been read. -/
def skipExponent (cursor : Cursor) : Except Mistake Cursor :=
  let (_, cursor) := sign cursor
  match cursor.rest with
  | [] => cursor.here .invalidNumber
  | digit :: rest =>
    let next : Cursor := ⟨rest, cursor.offset + 1⟩
    if Bytes.isDigit digit then .ok (next.skipWhile Bytes.isDigit) else next.here .invalidNumber

/-- The place after an exponent, if there is one. -/
def skipOptionalExponent (cursor : Cursor) : Except Mistake Cursor :=
  match cursor.rest with
  | b :: rest =>
    if b = 0x65 || b = 0x45 then skipExponent ⟨rest, cursor.offset + 1⟩ else .ok cursor
  | [] => .ok cursor

/-- The place after a number without its sign, whose size does not matter. -/
def skipUnsigned (cursor : Cursor) : Except Mistake Cursor :=
  match cursor.rest with
  | [] => cursor.here .invalidNumber
  | first :: rest =>
    let next : Cursor := ⟨rest, cursor.offset + 1⟩
    if !Bytes.isDigit first then next.here .invalidNumber
    else if first = 0x30 && (rest.head?.any Bytes.isDigit) then next.ahead .invalidNumber
    else
      let after := if first = 0x30 then next else next.skipWhile Bytes.isDigit
      match after.rest with
      | 0x2E :: rest =>
        let fraction : Cursor := ⟨rest, after.offset + 1⟩
        if rest.head?.any Bytes.isDigit then
          skipOptionalExponent (fraction.skipWhile Bytes.isDigit)
        else fraction.ahead .invalidNumber
      | _ => skipOptionalExponent after

/-- The place after a number whose value does not matter. -/
def skipNumber (cursor : Cursor) : Except Mistake Cursor :=
  match cursor.rest with
  | 0x2D :: rest => skipUnsigned ⟨rest, cursor.offset + 1⟩
  | _ => skipUnsigned cursor

/-! ### Reading never goes back -/

theorem sign_length_le (cursor : Cursor) :
  (sign cursor).2.rest.length ≤ cursor.rest.length
  := by
  unfold sign
  split <;> simp_all

theorem skipExponent_length_le {cursor next : Cursor} (h : skipExponent cursor = .ok next) :
  next.rest.length ≤ cursor.rest.length
  := by
  have hsign := sign_length_le cursor
  simp only [skipExponent] at h
  split at h
  · simp [Cursor.here] at h
  · next digit rest hrest =>
    split at h
    · cases h
      have := Cursor.skipWhile_length_le Bytes.isDigit ⟨rest, (sign cursor).2.offset + 1⟩
      rw [hrest, List.length_cons] at hsign
      exact Nat.le_trans this (Nat.le_of_succ_le hsign)
    · simp [Cursor.here] at h

theorem skipOptionalExponent_length_le {cursor next : Cursor}
    (h : skipOptionalExponent cursor = .ok next) :
  next.rest.length ≤ cursor.rest.length
  := by
  unfold skipOptionalExponent at h
  split at h
  · next b rest hrest =>
    split at h
    · have := skipExponent_length_le h
      rw [hrest]
      exact Nat.le_succ_of_le this
    · cases h
      exact Nat.le_refl _
  · cases h
    exact Nat.le_refl _

theorem skipUnsigned_length_lt {cursor next : Cursor} (h : skipUnsigned cursor = .ok next) :
  next.rest.length < cursor.rest.length
  := by
  unfold skipUnsigned at h
  split at h
  · simp [Cursor.here] at h
  · next first rest hrest =>
    simp only at h
    split at h
    · simp [Cursor.here] at h
    · split at h
      · simp [Cursor.ahead] at h
      · rw [hrest, List.length_cons]
        have hafter : (if first = 0x30 then (⟨rest, cursor.offset + 1⟩ : Cursor)
            else (⟨rest, cursor.offset + 1⟩ : Cursor).skipWhile Bytes.isDigit).rest.length
              ≤ rest.length := by
          split
          · exact Nat.le_refl _
          · exact Cursor.skipWhile_length_le _ _
        split at h
        · next fraction hfraction =>
          split at h
          · have h₁ := skipOptionalExponent_length_le h
            have h₂ := Cursor.skipWhile_length_le Bytes.isDigit ⟨fraction, (if first = 0x30 then
              (⟨rest, cursor.offset + 1⟩ : Cursor)
              else (⟨rest, cursor.offset + 1⟩ : Cursor).skipWhile Bytes.isDigit).offset + 1⟩
            rw [hfraction, List.length_cons] at hafter
            exact Nat.lt_succ_of_le (Nat.le_trans h₁ (Nat.le_trans h₂ (Nat.le_of_succ_le hafter)))
          · simp [Cursor.ahead] at h
        · have h₁ := skipOptionalExponent_length_le h
          exact Nat.lt_succ_of_le (Nat.le_trans h₁ hafter)

theorem skipNumber_length_lt {cursor next : Cursor} (h : skipNumber cursor = .ok next) :
  next.rest.length < cursor.rest.length
  := by
  unfold skipNumber at h
  split at h
  · next rest hrest =>
    rw [hrest]
    exact Nat.lt_succ_of_lt (skipUnsigned_length_lt h)
  · exact skipUnsigned_length_lt h

end Proctor.Settings
