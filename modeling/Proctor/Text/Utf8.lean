import Proctor.Bytes

/-!
# UTF-8

Text as bytes and bytes as text. A byte string is cut from left to right into scalar values and
ill-formed pieces, each piece being as long as some well-formed sequence begins; `scan` gives the
cuts, and the two ways to read a byte string are views of it. `decode?` refuses a string that has
an ill-formed piece, and `lossy` puts the replacement character U+FFFD for each one.
-/

namespace Proctor.Utf8

/-- The bytes of a text. -/
def encode (text : List Char) : Bytes :=
  text.flatMap String.utf8EncodeChar

/-- Where a reader stands between two bytes: at the start of a sequence, or within one, whose
bytes so far give `code`, of which `missing` bytes are to come, the next one being between `low`
and `high`. -/
inductive State where
  | start
  | within (code missing : Nat) (low high : UInt8)
  deriving DecidableEq, Repr

/-- What the first byte of a sequence gives. A byte that begins no well-formed sequence is an
ill-formed piece of its own. The bounds on the second byte exclude overlong forms, surrogates and
values above U+10FFFF. -/
def State.first (b : UInt8) : List (Option Char) × State :=
  if b < 0x80 then ([some (Char.ofNat b.toNat)], .start)
  else if b < 0xC2 then ([none], .start)
  else if b < 0xE0 then ([], .within (b.toNat % 32) 1 0x80 0xBF)
  else if b = 0xE0 then ([], .within 0 2 0xA0 0xBF)
  else if b = 0xED then ([], .within 13 2 0x80 0x9F)
  else if b < 0xF0 then ([], .within (b.toNat % 16) 2 0x80 0xBF)
  else if b = 0xF0 then ([], .within 0 3 0x90 0xBF)
  else if b < 0xF4 then ([], .within (b.toNat % 8) 3 0x80 0xBF)
  else if b = 0xF4 then ([], .within 4 3 0x80 0x8F)
  else ([none], .start)

/-- What one more byte gives: the pieces it completes, and the state after it. A byte that cannot
continue a sequence ends an ill-formed piece and is read again as a first byte. -/
def State.next : State → UInt8 → List (Option Char) × State
  | .start, b => first b
  | .within code missing low high, b =>
    if low ≤ b && b ≤ high then
      let code := 64 * code + b.toNat % 64
      if missing ≤ 1 then ([some (Char.ofNat code)], .start)
      else ([], .within code (missing - 1) 0x80 0xBF)
    else
      let (pieces, state) := first b
      (none :: pieces, state)

/-- The pieces still open at the end of the input. -/
def State.finish : State → List (Option Char)
  | .start => []
  | .within .. => [none]

/-- The pieces of a byte string read from a state, after the pieces `read`, which are in reverse
order. -/
def scanAux : State → Bytes → (read : List (Option Char)) → List (Option Char)
  | state, [], read => read.reverse ++ state.finish
  | state, b :: rest, read =>
    scanAux (state.next b).2 rest ((state.next b).1.reverse ++ read)

/-- The scalar values of a byte string in order, with `none` for each ill-formed piece. -/
def scan (bytes : Bytes) : List (Option Char) :=
  scanAux .start bytes []

/-- Whether a byte string is well-formed UTF-8. -/
def isValid (bytes : Bytes) : Bool :=
  (scan bytes).all Option.isSome

/-- The text of a byte string that is well-formed UTF-8. -/
def decode? (bytes : Bytes) : Option (List Char) :=
  if isValid bytes then some ((scan bytes).filterMap id) else none

/-- The text of any byte string, with U+FFFD for each ill-formed piece. -/
def lossy (bytes : Bytes) : List Char :=
  (scan bytes).map (·.getD '\uFFFD')

/-- The text of any byte string, as a string. -/
def display (bytes : Bytes) : String :=
  String.ofList (lossy bytes)

/-! ### One byte at a time -/

theorem scanAux_eq (state : State) (bytes : Bytes) (read : List (Option Char)) :
  scanAux state bytes read = read.reverse ++ scanAux state bytes []
  := by
  induction bytes generalizing state read with
  | nil => simp [scanAux]
  | cons b rest ih =>
    rw [scanAux, scanAux, ih, ih _ ((state.next b).1.reverse ++ [])]
    simp

@[simp] theorem scanAux_nil (state : State) :
  scanAux state [] [] = state.finish
  := by simp [scanAux]

theorem scanAux_cons (state : State) (b : UInt8) (rest : Bytes) :
  scanAux state (b :: rest) [] = (state.next b).1 ++ scanAux (state.next b).2 rest []
  := by
  rw [scanAux, scanAux_eq]
  simp

@[simp] theorem scan_nil :
  scan [] = []
  := rfl

end Proctor.Utf8
