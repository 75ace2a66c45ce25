import Proctor.Output
import Proctor.Proofs.Text.Joining
import Proctor.Proofs.Text.Transparency

/-!
# The text of an output

The text of an output has U+FFFD for each maximal subpart of its bytes that is ill formed. Such a
subpart has no ASCII byte, and neither has the encoding of a character beyond ASCII, so the ASCII
characters of the text are the ASCII bytes of the output, and a text of ASCII characters is found in
the one exactly if it is found in the other.

The text of two streams is the text of the one and then the text of the other, unless the border
between them divides a character.
-/

namespace Proctor

namespace Output

/-! ### ASCII characters -/

/-- The bytes of an output can be cut into characters and maximal subparts that are ill formed in
one way only, and its text has U+FFFD for the latter. Whatever the bytes are, a text of ASCII
characters occurs in it exactly if its bytes occur in the output, and the ASCII characters of the
text are the bytes of the output below 0x80, in order. -/
theorem ascii_text (output : Output) :
  (∃ pieces, (∀ others, Utf8.Cuts output.bytes others ↔ others = pieces)
      ∧ output.text = pieces.map (·.getD '\uFFFD'))
    ∧ (∀ pattern, pattern ≠ [] → (∀ c ∈ pattern, Utf8.IsAscii c) →
      (pattern <:+: output.text ↔ Utf8.encode pattern <:+: output.bytes))
    ∧ Utf8.encode (output.text.filter (Utf8.IsAscii ·)) = output.bytes.filter (· < 0x80)
  := by
  refine ⟨⟨Utf8.scan output.bytes, fun _ => Utf8.cuts_iff, rfl⟩, ?_, ?_⟩
  · intro pattern hne hascii
    apply Utf8.infix_lossy_iff hne hascii
  · apply Utf8.encode_filter_lossy

namespace Sample

/-- An output in which ASCII letters break off sequences of three and of four bytes, and the end
breaks off one of two bytes. -/
def brokenOff : Output where
  bytes := [0xE2, 0x82, 0x6F, 0x6B, 0xF0, 0x9F, 0x98, 0x6F, 0xC3]

end Sample

open Sample in
/-- What was begun is one character each time, and the letters that break it off are kept. -/
theorem ascii_text_brokenOff :
  brokenOff.text = "\uFFFDok\uFFFDo\uFFFD".toList
    ∧ ['o', 'k'] <:+: brokenOff.text
    ∧ Utf8.encode (brokenOff.text.filter (Utf8.IsAscii ·)) = [0x6F, 0x6B, 0x6F]
  := by
  obtain ⟨-, hpattern, hfilter⟩ := ascii_text brokenOff
  have hascii : ∀ c ∈ ['o', 'k'], Utf8.IsAscii c := by
    rw [List.forall_mem_cons, List.forall_mem_singleton]
    decide
  refine ⟨rfl, (hpattern _ (List.cons_ne_nil _ _) hascii).mpr ?_, hfilter⟩
  exact ⟨[0xE2, 0x82], [0xF0, 0x9F, 0x98, 0x6F, 0xC3], rfl⟩

/-! ### Two streams -/

/-- If the first of two streams is well formed, or the second is empty or begins with a byte that is
no continuation byte, then the text of both is the text of the first and then the text of the
second. -/
theorem text_ofStreams (stdout stderr : Bytes)
    (h : Utf8.isValid stdout ∨ ∀ b ∈ stderr.head?, ¬ Utf8.IsContinuation b) :
  (ofStreams stdout stderr).text = (ofStreams stdout []).text ++ (ofStreams [] stderr).text
  := by
  simp only [text, ofStreams, List.append_nil, List.nil_append]
  apply Utf8.lossy_append_iff.mpr
  obtain hvalid | hhead := h
  · apply Utf8.not_divides_of_isValid hvalid
  · apply Utf8.not_divides_of_head hhead

/-- A sequence of which one byte is missing at the end of the first stream is replaced as if nothing
followed it. -/
theorem text_ofStreams_unfinished :
  (∀ b ∈ List.head? [0xC3, 0xA9], ¬ Utf8.IsContinuation b)
    ∧ (ofStreams [0xF0, 0x9F, 0x98] [0xC3, 0xA9]).text = ['\uFFFD'] ++ ['é']
  := by
  have hhead : ∀ b ∈ List.head? [0xC3, 0xA9], ¬ Utf8.IsContinuation b := by
    intro b hb
    cases hb
    decide
  use hhead
  apply text_ofStreams _ _ (Or.inr hhead)

/-- A byte that completes the last character of the first stream is no character of its own. -/
example :
  (ofStreams [0xC3] [0xA9]).text = ['é']
    ∧ (ofStreams [0xC3] []).text ++ (ofStreams [] [0xA9]).text = ['\uFFFD', '\uFFFD']
  := by decide

end Output

end Proctor
