import Proctor.Proofs.Session.Laws
import Proctor.Proofs.Text.Encoding
import Proctor.Proofs.Text.Trimming

/-!
# The version of a verifier

The answer of a verifier to the question for its version begins with six characters that do not
count. What follows is the version, with blank characters around it. The version is determined by
the answer, however long or short the answer is, and it is what a query returns.
-/

namespace Proctor.Version

open Text (isBlank IsCore isCore_trim isCore_iff)

/-- The version in a text: what stands, between blank characters, after the first six characters of
the text, or after all of them if there are fewer. Without a version all blank characters count as
those before it. -/
structure IsVersion (text version : List Char) : Prop where
  exists_parts : ∃ banner before after, text = banner ++ before ++ version ++ after
    ∧ banner.length = min 6 text.length ∧ (∀ c ∈ before, isBlank c) ∧ (∀ c ∈ after, isBlank c)
    ∧ (version = [] → after = [])
  head : ∀ c ∈ version.head?, isBlank c = false
  last : ∀ c ∈ version.getLast?, isBlank c = false

/-- The version in a text is the core of what follows its first characters. -/
theorem IsVersion.isCore {text version : List Char} (h : IsVersion text version) :
  IsCore (text.drop bannerLength) version
  := by
  obtain ⟨⟨banner, before, after, htext, hbanner, hbefore, hafter, -⟩, hhead, hlast⟩ := h
  refine ⟨⟨before, after, ?_, hbefore, hafter⟩, hhead, hlast⟩
  have hrest : text.drop banner.length = before ++ version ++ after := by
    rw [htext, List.append_assoc, List.append_assoc, List.drop_left, List.append_assoc]
  rw [← hrest, hbanner, bannerLength]
  -- A text that is shorter than the banner is dropped as a whole.
  obtain hlong | hshort := Nat.le_total 6 text.length
  · rw [Nat.min_eq_left hlong]
  · rw [Nat.min_eq_right hshort, List.drop_length, List.drop_eq_nil_of_le hshort]

theorem isVersion_ofText (text : List Char) :
  IsVersion text (ofText text)
  := by
  obtain ⟨⟨before, after, hrest, hbefore, hafter⟩, hhead, hlast⟩ :=
    isCore_trim (text.drop bannerLength)
  have htext : text = text.take 6 ++ (before ++ ofText text ++ after) := by
    rw [ofText, ← hrest]
    exact (List.take_append_drop 6 text).symm
  refine ⟨?_, hhead, hlast⟩
  by_cases hempty : ofText text = []
  · rw [hempty, List.append_nil] at htext
    refine ⟨text.take 6, before ++ after, [], ?_, List.length_take, ?_, List.forall_mem_nil _, ?_⟩
    · rwa [hempty, List.append_nil, List.append_nil]
    · apply List.forall_mem_append.mpr ⟨hbefore, hafter⟩
    · intro _
      rfl
  · refine ⟨text.take 6, before, after, ?_, List.length_take, hbefore, hafter, ?_⟩
    · rwa [List.append_assoc, List.append_assoc, ← List.append_assoc before]
    · intro h
      contradiction

/-- A text has exactly one version. -/
theorem isVersion_iff {text version : List Char} :
  IsVersion text version ↔ version = ofText text
  := by
  constructor
  · intro h
    apply isCore_iff.mp h.isCore
  · rintro rfl
    apply isVersion_ofText

/-- A query returns the version in the output of its only launch. -/
theorem runIn_query {runner : Runner} {verifier : Path} {world : World} {output : Output}
    (h : (runner (command verifier) world.files).result = .ok (.completed output)) :
  (query runner verifier).runIn world
    = (.ok (some (ofText output.text)), world.launched runner (command verifier))
  := by
  rw [query, Session.runIn_bind, Session.runIn_launch, h]
  rfl

/-- A query to which the runner answers with the output of two streams, whatever their bytes are,
launches the verifier once, with the option that asks for the version. It returns the only version
that there is in the text of the output. In particular, where the output is a banner of six
characters, a text without blank characters at its ends, and blank characters, it returns that
text. -/
theorem query_completed {runner : Runner} {verifier : Path} {world : World} {stdout stderr : Bytes}
    (hrun : (runner ⟨verifier, [Bytes.ofString "--version"]⟩ world.files).result
      = .ok (.completed (Output.ofStreams stdout stderr))) :
  ∃ version after, (query runner verifier).runIn world = (.ok (some version), after)
    ∧ after.commands = world.commands ++ [⟨verifier, [Bytes.ofString "--version"]⟩]
    ∧ IsVersion (Utf8.lossy (stdout ++ stderr)) version
    ∧ (∀ other, IsVersion (Utf8.lossy (stdout ++ stderr)) other → other = version)
    ∧ ∀ text blanks, (∀ c ∈ text.head?, isBlank c = false) →
      (∀ c ∈ text.getLast?, isBlank c = false) → (∀ c ∈ blanks, isBlank c) →
      stdout ++ stderr = Utf8.encode ("ESBMC ".toList ++ text ++ blanks) → version = text
  := by
  refine ⟨_, _, runIn_query hrun, World.commands_launched .., isVersion_ofText _, ?_, ?_⟩
  · intro other hother
    apply isVersion_iff.mp hother
  · intro text blanks hhead hlast hblanks hbytes
    symm
    rw [Output.text, Output.ofStreams, hbytes, Utf8.lossy_encode]
    apply isCore_iff.mp
    refine ⟨⟨[], blanks, ?_, List.forall_mem_nil _, hblanks⟩, hhead, hlast⟩
    rfl

namespace Sample

/-- A runner whose output begins with a letter that the border between the streams divides, and ends
with a wide blank and a line feed after the version. -/
def dividingRunner : Runner := fun _ files =>
  { result := .ok (.completed
      (.ofStreams [0xC3] (0xA9 :: Bytes.ofString "SBMC  7.6 β\u3000\n"))),
    files }

/-- A world without files. -/
def bareWorld : World where
  files := .empty []

end Sample

open Sample in
/-- The divided letter counts as one of the six characters. -/
theorem query_completed_dividing :
  ∃ after, (query dividingRunner []).runIn bareWorld = (.ok (some "7.6 β".toList), after)
    ∧ after.commands = [⟨[], [Bytes.ofString "--version"]⟩]
  := by
  have hrun : (dividingRunner ⟨[], [Bytes.ofString "--version"]⟩ bareWorld.files).result
      = .ok (.completed (.ofStreams [0xC3] (0xA9 :: Bytes.ofString "SBMC  7.6 β\u3000\n"))) := rfl
  obtain ⟨version, after, hquery, hcommands, -, hunique, -⟩ := query_completed hrun
  have hversion : "7.6 β".toList = version := by
    apply hunique
    rw [isVersion_iff]
    decide
  use after
  rw [hversion]
  exact ⟨hquery, hcommands⟩

end Proctor.Version
