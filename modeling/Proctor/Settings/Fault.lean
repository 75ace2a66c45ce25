import Proctor.Bytes
import Proctor.Decimal.Shortest
import Proctor.Text.Quoted

/-!
# Faults of settings files

What can be wrong with the text of a settings file, where the fault is noticed, and how both are
told. A place is told as a line and a column; columns count bytes.
-/

namespace Proctor.Settings

/-- A number that stands in a settings file: a whole number that fits 64 bits, or one in binary
floating point with its sign. -/
inductive Number where
  | natural (n : Nat)
  | negative (n : Nat)
  | float (isNegative : Bool) (value : Decimal.Binary64)
  deriving DecidableEq, Repr

/-- How floating-point numbers are written: the point stands among the digits for numbers from
`0.00001` up to sixteen places before it, and other numbers have an exponent with its sign. -/
def Number.layout : Decimal.Layout where
  leadingZeros := 5
  places := 16
  positiveSign := "+"

/-- A number as text. -/
def Number.text : Number → String
  | natural n => toString n
  | negative n => "-" ++ toString n
  | float isNegative value =>
    (if isNegative then "-" else "") ++
      if value.mantissa = 0 then "0.0" else value.shortest.render layout

/-- What was found where something else was expected. -/
inductive Found where
  | null
  | boolean (value : Bool)
  | number (value : Number)
  | string (text : List Char)
  | list
  | object
  deriving DecidableEq, Repr

/-- The description of what was found. -/
def Found.text : Found → String
  | null => "null"
  | boolean value => "boolean `" ++ toString value ++ "`"
  | number value =>
    match value with
    | .float .. => "floating point `" ++ value.text ++ "`"
    | _ => "integer `" ++ value.text ++ "`"
  | string text => "string " ++ Text.quoted text
  | list => "sequence"
  | object => "map"

/-- What is expected at the top of the file and as the value of the known member. -/
inductive Expected where
  | settings
  | path
  deriving DecidableEq, Repr

/-- The description of what is expected. -/
def Expected.text : Expected → String
  | settings => "struct WrapperSettings"
  | path => "path string"

/-- What is wrong with the text. -/
inductive Cause where
  | endInValue
  | endInList
  | endInObject
  | endInString
  | expectedColon
  | expectedListEnd
  | expectedObjectEnd
  | expectedLiteral
  | expectedValue
  | invalidEscape
  | invalidNumber
  | numberOutOfRange
  | controlCharacter
  | keyNotString
  | loneSurrogate
  | endOfEscape
  | trailingComma
  | trailingCharacters
  | duplicateMember
  | wrongType (found : Found) (expected : Expected)
  deriving DecidableEq, Repr

/-- The description of what is wrong. -/
def Cause.message : Cause → String
  | endInValue => "EOF while parsing a value"
  | endInList => "EOF while parsing a list"
  | endInObject => "EOF while parsing an object"
  | endInString => "EOF while parsing a string"
  | expectedColon => "expected `:`"
  | expectedListEnd => "expected `,` or `]`"
  | expectedObjectEnd => "expected `,` or `\x7d`"
  | expectedLiteral => "expected ident"
  | expectedValue => "expected value"
  | invalidEscape => "invalid escape"
  | invalidNumber => "invalid number"
  | numberOutOfRange => "number out of range"
  | controlCharacter => "control character (\\u0000-\\u001F) found while parsing a string"
  | keyNotString => "key must be a string"
  | loneSurrogate => "lone leading surrogate in hex escape"
  | endOfEscape => "unexpected end of hex escape"
  | trailingComma => "trailing comma"
  | trailingCharacters => "trailing characters"
  | duplicateMember => "duplicate field `verifier_path`"
  | wrongType found expected => "invalid type: " ++ found.text ++ ", expected " ++ expected.text

/-- Something wrong, noticed after a number of bytes. -/
structure Mistake where
  cause : Cause
  offset : Nat
  deriving DecidableEq, Repr

/-- Something wrong, with its line and column. -/
structure Fault where
  cause : Cause
  line : Nat
  column : Nat
  deriving DecidableEq, Repr

/-- The line and the column after `offset` bytes: one more than the newlines before, and the number
of bytes since the last of them. -/
def place (bytes : Bytes) (offset : Nat) : Nat × Nat :=
  let before := bytes.take offset
  (before.count 0x0A + 1, (before.reverse.takeWhile (· ≠ 0x0A)).length)

/-- A mistake with its place in the text. -/
def Mistake.locate (bytes : Bytes) (mistake : Mistake) : Fault :=
  let (line, column) := place bytes mistake.offset
  ⟨mistake.cause, line, column⟩

/-- The text of a fault. -/
def Fault.message (fault : Fault) : String :=
  fault.cause.message ++ " at line " ++ toString fault.line ++ " column " ++ toString fault.column

end Proctor.Settings
