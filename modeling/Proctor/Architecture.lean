import Proctor.Bytes
import Proctor.Text.Blank

/-!
# Architectures

The data model of a benchmark, given as the number of bits in a machine word. It is written as a
decimal number, with blank characters around it, a plus sign before it, and zeros at its beginning
all allowed.
-/

namespace Proctor

/-- The data model of a benchmark. -/
inductive Architecture where
  | bits32
  | bits64
  deriving DecidableEq, Repr

namespace Architecture

/-- The data model assumed when none is given. -/
def assumed : Architecture := bits32

/-- The number of bits in a machine word. -/
def bits : Architecture → Nat
  | bits32 => 32
  | bits64 => 64

/-- The flag that tells the verifier the data model. -/
def flag : Architecture → String
  | bits32 => "--32"
  | bits64 => "--64"

/-- The data model with that many bits in a machine word. -/
def ofBits? (n : Nat) : Option Architecture :=
  if n = 32 then some bits32 else if n = 64 then some bits64 else none

/-- Why a text does not name a data model. -/
inductive Fault where
  /-- It is a number, but there is no such data model. -/
  | unsupported (bits : Nat)
  /-- It is not a number of at most 32 bits. -/
  | invalid (text : String)
  deriving DecidableEq, Repr

/-- The text of a fault. -/
def Fault.message : Fault → String
  | unsupported bits => s!"Unsupported architecture: {bits} (expected 32 or 64)"
  | invalid text => s!"Invalid architecture: {text}"

/-- The first number of more than 32 bits. -/
def wordLimit : Nat := Nat.pow 2 32

/-- The number that a string of digits denotes, if it is not empty, has only digits and denotes a
number of at most 32 bits. -/
def digitsValue? (digits : List Char) : Option Nat :=
  if digits.isEmpty || !digits.all Char.isDigit then none
  else
    let bytes := digits.flatMap String.utf8EncodeChar
    (some (Bytes.boundedValue wordLimit bytes)).filter (· < wordLimit)

/-- A number of at most 32 bits, with or without a plus sign. -/
def word? (text : List Char) : Option Nat :=
  match text with
  | '+' :: digits => digitsValue? digits
  | digits => digitsValue? digits

/-- The data model for a number of bits. -/
def ofBits (n : Nat) : Except Fault Architecture :=
  match ofBits? n with
  | some architecture => .ok architecture
  | none => .error (.unsupported n)

/-- The data model that a text names. -/
def parse (text : String) : Except Fault Architecture :=
  match word? (Text.trim text.toList) with
  | some n => ofBits n
  | none => .error (.invalid text)

end Architecture

end Proctor
