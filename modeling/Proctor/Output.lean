import Proctor.Text.Utf8

/-!
# Output of a verifier

What a verifier printed: first all of its standard output, then all of its standard error. Both
are joined as bytes and read as text afterwards, so that a character cut in two by the border
between them is whole again.
-/

namespace Proctor

/-- What a verifier printed. -/
structure Output where
  bytes : Bytes
  deriving DecidableEq, Repr

namespace Output

/-- The output that consists of two streams. -/
def ofStreams (stdout stderr : Bytes) : Output :=
  ⟨stdout ++ stderr⟩

/-- The output that is a given text. -/
def ofText (text : List Char) : Output :=
  ⟨Utf8.encode text⟩

/-- The output as text. -/
def text (output : Output) : List Char :=
  Utf8.lossy output.bytes

end Output

end Proctor
