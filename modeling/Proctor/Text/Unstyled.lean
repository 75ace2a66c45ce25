import Proctor.Text.Utf8

/-!
# Unstyled texts

A text without what a terminal would not show: the sequences that begin with an escape character,
and the controls that do not move to another place. Which characters belong to a sequence is
decided by a small machine that reads the text from left to right.

A movement within a sequence is carried out, and it suspends the sequence: what follows is shown,
up to the next control, and there the sequence goes on. A character beyond ASCII that is shown
abandons the suspended sequence.
-/

namespace Proctor.Text

/-- What a terminal has read of a sequence. -/
inductive ControlSequence where
  /-- An escape character. -/
  | escape
  /-- The beginning of a sequence that a character from `0` to `~` ends. -/
  | intermediate
  /-- The beginning of a sequence that a character from `@` to `~` ends. -/
  | parameters
  /-- The beginning of a sequence that the bell ends. -/
  | command
  /-- The beginning of a sequence for the device. -/
  | device
  /-- A sequence for the device with parameters. -/
  | deviceParameters
  /-- A sequence for the device with characters between its parameters and its text. -/
  | deviceIntermediate
  /-- A sequence with a text, which the string terminator ends. -/
  | string
  deriving DecidableEq, Repr

namespace ControlSequence

/-- Whether a character is between two others. -/
def isBetween (low high c : Char) : Bool :=
  low ≤ c && c ≤ high

/-- The byte that ends the text of a sequence, wherever it occurs. -/
def stringTerminator : UInt8 := 0x9C

/-- A sequence after one more character, or none if the character ends it. -/
def advance? (sequence : ControlSequence) (c : Char) : Option ControlSequence :=
  match sequence with
  | escape =>
    if isBetween ' ' '/' c then some intermediate
    else if c = '[' then some parameters
    else if c = ']' then some command
    else if c = 'P' then some device
    else if c = 'X' || c = '^' || c = '_' then some string
    else if isBetween '0' '~' c then none
    else some escape
  | intermediate => if isBetween '0' '~' c then none else some intermediate
  | parameters => if isBetween '@' '~' c then none else some parameters
  | command => if c = '\x07' then none else some command
  | device =>
    if isBetween ' ' '/' c then some deviceIntermediate
    else if isBetween '0' '?' c then some deviceParameters
    else if isBetween '@' '~' c then some string
    else some device
  | deviceParameters =>
    if isBetween ' ' '/' c then some deviceIntermediate
    else if isBetween '<' '~' c then some string
    else some deviceParameters
  | deviceIntermediate => if isBetween '0' '~' c then some string else some deviceIntermediate
  | string => if (String.utf8EncodeChar c).contains stringTerminator then none else some string

/-- Whether movements within a sequence are carried out. -/
def isInterruptible : ControlSequence → Bool
  | escape | intermediate | parameters => true
  | command | device | deviceParameters | deviceIntermediate | string => false

end ControlSequence

/-- Where a terminal stands in a text. -/
inductive Terminal where
  /-- Between sequences. -/
  | plain
  | within (sequence : ControlSequence)
  /-- Showing text, with a sequence to go on with later. -/
  | suspended (sequence : ControlSequence)
  deriving DecidableEq, Repr

namespace Terminal

/-- Whether a character is a control that moves to another place. -/
def isMovement (c : Char) : Bool :=
  c = '\t' || c = '\n' || c = '\x0c' || c = '\r'

/-- Whether a character is shown outside sequences. -/
def isShown (c : Char) : Bool :=
  isMovement c || (' ' ≤ c && c ≠ '\x7f')

/-- Whether a character ends every sequence. -/
def isCancellation (c : Char) : Bool :=
  c = '\x18' || c = '\x1a'

/-- Where a terminal stands after a character that is shown. -/
def afterShown (terminal : Terminal) (c : Char) : Terminal :=
  if c.toNat < 0x80 then terminal else plain

/-- Where a terminal stands after a character, and whether it has shown the character. -/
def step (terminal : Terminal) (c : Char) : Terminal × Bool :=
  if c = '\x1b' then (within .escape, false)
  else if isCancellation c then (plain, false)
  else
    match terminal with
    | plain => (plain, isShown c)
    | suspended sequence =>
      if isShown c then (terminal.afterShown c, true) else (within sequence, false)
    | within sequence =>
      if isMovement c && sequence.isInterruptible then (suspended sequence, true)
      else
        match sequence.advance? c with
        | some sequence => (within sequence, false)
        | none => (plain, false)

/-- What a terminal shows of a text. -/
def display (terminal : Terminal) : List Char → List Char
  | [] => []
  | c :: rest =>
    let (terminal, shown) := terminal.step c
    if shown then c :: terminal.display rest else terminal.display rest

end Terminal

/-- What a terminal shows of a text. -/
def unstyled (text : List Char) : List Char :=
  Terminal.plain.display text

end Proctor.Text
