import Proctor.Sequence

/-!
# Bytes

Byte strings are what files, paths, arguments and the output of a verifier hold. Nothing is
assumed of them: in particular they need not be text in any encoding.
-/

namespace Proctor

/-- A byte string. -/
abbrev Bytes := List UInt8

namespace Bytes

/-- The bytes of a text in UTF-8. -/
def ofString (s : String) : Bytes :=
  s.toList.flatMap String.utf8EncodeChar

/-- Whether a byte is one of the digits `0` to `9`. -/
def isDigit (b : UInt8) : Bool :=
  0x30 ≤ b && b ≤ 0x39

theorem isDigit_iff {b : UInt8} :
  isDigit b ↔ 0x30 ≤ b.toNat ∧ b.toNat ≤ 0x39
  := by
  simp only [isDigit, Bool.and_eq_true, decide_eq_true_eq, UInt8.le_iff_toNat_le]
  rfl

/-- The value of a byte that is a digit. -/
def digitValue (b : UInt8) : Nat :=
  b.toNat - 0x30

/-- The natural number that a string of digits denotes. -/
def natValue (digits : Bytes) : Nat :=
  digits.foldl (fun n b => 10 * n + digitValue b) 0

/-- The natural number that a string of digits denotes, or the bound if the number is greater. The
numbers on the way to it do not grow beyond the bound. -/
def boundedValue (bound : Nat) (digits : Bytes) : Nat :=
  digits.foldl (fun n b => min bound (10 * n + digitValue b)) 0

theorem boundedValue_eq_min (bound : Nat) (digits : Bytes) :
  boundedValue bound digits = min bound (natValue digits)
  := by
  suffices h : ∀ n, digits.foldl (fun n b => min bound (10 * n + digitValue b)) (min bound n) =
      min bound (digits.foldl (fun n b => 10 * n + digitValue b) n) by
    have h₀ := h 0
    rwa [Nat.min_zero] at h₀
  induction digits with
  | nil => intro n; rfl
  | cons b rest ih =>
    intro n
    rw [List.foldl_cons, List.foldl_cons, ← ih]
    congr 1
    omega

/-! ### Binary formats -/

/-- The number that some bytes stand for, the least significant byte first. -/
def number (bytes : Bytes) : Nat :=
  bytes.foldr (fun b n => b.toNat + 256 * n) 0

/-- The number in the `width` bytes from `offset` on. -/
def field (width offset : Nat) (bytes : Bytes) : Nat :=
  number ((bytes.drop offset).take width)

/-- The next `count` bytes and those after them, if there are so many. -/
def takeExact? (count : Nat) (bytes : Bytes) : Option (Bytes × Bytes) :=
  let taken := bytes.take count
  if taken.length = count then some (taken, bytes.drop count) else none

end Bytes

end Proctor
