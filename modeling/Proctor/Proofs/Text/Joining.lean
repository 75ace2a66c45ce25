import Proctor.Proofs.Text.Pieces

/-!
# Joining byte strings

Two byte strings that are joined consist of the pieces of the first and then of those of the second,
unless the border between them divides a character: then bytes at the end of the first begin an
encoding that goes on in the second, whether it is complete there or not. Such bytes count as one
piece together and as several pieces apart, so that the condition is exact.

Nothing is divided after bytes that are well formed, nor before a byte that does not continue an
encoding.
-/

namespace Proctor.Utf8

open String (utf8EncodeChar)

/-- What goes on in an encoding are continuation bytes. -/
theorem Begins.isContinuation {piece more : Bytes} (h : Begins (piece ++ more))
    (hpiece : piece ≠ []) :
  ∀ b ∈ more, IsContinuation b
  := by
  obtain ⟨b, piece, rfl⟩ := List.exists_cons_of_ne_nil hpiece
  intro b' hb'
  apply h.of_cons.2 b' (List.mem_append_right piece hb')

/-! ### Borders that divide nothing -/

/-- The border between two byte strings divides a character: bytes at the end of the first begin an
encoding that goes on with the first byte of the second. -/
def Divides (first second : Bytes) : Prop :=
  ∃ piece b, piece ≠ [] ∧ piece <:+ first ∧ b ∈ second.head? ∧ Begins (piece ++ [b])

theorem Divides.append_left {first second : Bytes} (h : Divides first second) (before : Bytes) :
  Divides (before ++ first) second
  := by
  obtain ⟨piece, b, hpiece, hfirst, hb⟩ := h
  exact ⟨piece, b, hpiece, hfirst.trans (List.suffix_append before first), hb⟩

/-- Before a byte that is no continuation byte, and at the end, nothing is divided. -/
theorem not_divides_of_head {first second : Bytes}
    (h : ∀ b ∈ second.head?, ¬ IsContinuation b) :
  ¬ Divides first second
  := by
  rintro ⟨piece, b, hpiece, -, hb, hbegins⟩
  apply h b hb (hbegins.isContinuation hpiece b List.mem_cons_self)

theorem IsSubpart.append {piece rest second : Bytes} (h : IsSubpart piece rest)
    (hborder : ¬ Divides (piece ++ rest) second) :
  IsSubpart piece (rest ++ second)
  := by
  have hwithin : ∀ other, Begins other → other <+: piece ++ (rest ++ second) →
      other <+: piece ++ rest := by
    intro other hother hstarts
    rw [← List.append_assoc] at hstarts
    apply hother.ends_within hstarts
    intro b hb hbegins
    apply hborder ⟨piece ++ rest, b, List.append_ne_nil_of_left_ne_nil h.ne_nil rest,
      List.suffix_rfl, hb, hbegins⟩
  refine ⟨h.ne_nil, ?_, h.begins_or_single, ?_⟩
  · intro c hc
    apply h.no_character c (hwithin _ (begins_utf8EncodeChar c) hc)
  · intro other hother hstarts
    apply h.longest other hother (hwithin other hother hstarts)

/-- Byte strings between which no character is divided are cut as they are cut apart. -/
theorem Cuts.append {first second : Bytes} {pieces pieces' : List (Option Char)}
    (h : Cuts first pieces) (h' : Cuts second pieces') (hborder : ¬ Divides first second) :
  Cuts (first ++ second) (pieces ++ pieces')
  := by
  induction h with
  | nil => apply h'
  | character c _ ih =>
      rw [List.append_assoc]
      apply Cuts.character c (ih (mt (Divides.append_left · _) hborder))
  | illFormed hpiece _ ih =>
      rw [List.append_assoc]
      apply Cuts.illFormed (hpiece.append hborder) (ih (mt (Divides.append_left · _) hborder))

theorem scan_append {first second : Bytes} (h : ¬ Divides first second) :
  scan (first ++ second) = scan first ++ scan second
  := by
  symm
  apply cuts_iff.mp
  apply Cuts.append (cuts_iff.mpr rfl) (cuts_iff.mpr rfl) h

/-- After well-formed bytes the reader starts anew. -/
theorem scan_append_of_isValid {first : Bytes} (h : isValid first) (second : Bytes) :
  scan (first ++ second) = scan first ++ scan second
  := by
  obtain ⟨text, rfl⟩ := isValid_iff_exists_encode.mp h
  rw [scan_encode]
  induction text with
  | nil => rfl
  | cons c text ih =>
      rw [encode, List.flatMap_cons, List.append_assoc, scan_utf8EncodeChar_append, ← encode,
        ih (isValid_encode text)]
      rfl

/-! ### Borders that divide a character -/

theorem scan_eq_nil_iff {bytes : Bytes} :
  scan bytes = [] ↔ bytes = []
  := by
  constructor
  · intro h
    have hcuts := cuts_iff.mpr h.symm
    cases hcuts
    rfl
  · rintro rfl
    rfl

/-- Continuation bytes after which nothing is continued are ill formed one by one. -/
theorem length_scan_append {more : Bytes} (h : ∀ b ∈ more, IsContinuation b) (rest : Bytes) :
  (scan (more ++ rest)).length = more.length + (scan rest).length
  := by
  induction more with
  | nil => rw [List.nil_append, List.length_nil, Nat.zero_add]
  | cons b more ih =>
      obtain ⟨hb, hmore⟩ := List.forall_mem_cons.mp h
      have hnone : ¬ Begins [b] := fun hbegins => hbegins.of_cons.1 hb
      have hscan : none :: scan (more ++ rest) = scan (b :: (more ++ rest)) :=
        cuts_iff.mp (Cuts.illFormed (isSubpart_singleton hnone _) (cuts_iff.mpr rfl))
      rw [List.cons_append, ← hscan, List.length_cons, ih hmore, List.length_cons]
      omega

/-- Where a piece takes in bytes from beyond the border, fewer pieces are left there. -/
theorem length_scan_lt {piece taken rest second : Bytes} {b : UInt8} (hpiece : piece ≠ [])
    (htaken : Begins taken) (hmore : piece ++ [b] <+: taken)
    (hbytes : taken ++ rest = piece ++ second) :
  (scan rest).length < (scan second).length
  := by
  obtain ⟨more, rfl⟩ := hmore
  rw [List.append_assoc] at htaken
  rw [List.append_assoc, List.append_assoc, List.append_cancel_left_eq, ← List.append_assoc]
    at hbytes
  rw [← hbytes, length_scan_append (htaken.isContinuation hpiece), List.length_append,
    List.length_singleton]
  omega

/-- A divided character makes one piece of what are several pieces apart. -/
theorem length_scan_divided {piece second : Bytes} {b : UInt8} (hpiece : piece ≠ [])
    (hb : b ∈ second.head?) (hbegins : Begins (piece ++ [b])) :
  (scan (piece ++ second)).length < (scan second).length + 1
  := by
  have hstarts : piece ++ [b] <+: piece ++ second := by
    obtain ⟨rest, rfl⟩ := List.head?_eq_some_iff.mp hb
    rw [List.prefix_append_right_inj]
    exact ⟨rest, rfl⟩
  have hcuts : Cuts (piece ++ second) (scan (piece ++ second)) := cuts_iff.mpr rfl
  generalize hbytes : piece ++ second = bytes at hcuts hstarts
  generalize scan bytes = pieces at hcuts
  cases hcuts with
  | nil => cases hpiece (List.append_eq_nil_iff.mp hbytes).1
  | @character c rest pieces h =>
      obtain rfl := cuts_iff.mp h
      have hmore : piece ++ [b] <+: utf8EncodeChar c := by
        obtain hshort | hlong :=
          List.prefix_or_prefix_of_prefix hstarts (List.prefix_append _ rest)
        · apply hshort
        · simp [hbegins.eq_utf8EncodeChar hlong]
      exact Nat.succ_lt_succ (length_scan_lt hpiece (begins_utf8EncodeChar c) hmore hbytes.symm)
  | @illFormed taken rest pieces htaken h =>
      obtain rfl := cuts_iff.mp h
      have hlength := htaken.longest _ hbegins hstarts
      have hmore : piece ++ [b] <+: taken :=
        List.prefix_of_prefix_length_le hstarts (List.prefix_append _ rest) hlength
      have htaken : Begins taken := by
        apply htaken.begins_or_single.resolve_right
        have hpos := List.length_pos_iff.mpr hpiece
        rw [List.length_append, List.length_singleton] at hlength
        omega
      exact Nat.succ_lt_succ (length_scan_lt hpiece htaken hmore hbytes.symm)

/-- The text of two byte strings that are joined is the text of the first and then the text of the
second, exactly if the border between them divides no character. -/
theorem lossy_append_iff {first second : Bytes} :
  lossy (first ++ second) = lossy first ++ lossy second ↔ ¬ Divides first second
  := by
  constructor
  · rintro h ⟨piece, b, hpiece, ⟨before, rfl⟩, hb, hbegins⟩
    -- The first byte of an encoding divides nothing from what stands before it.
    have hbefore (more : Bytes) : scan (before ++ (piece ++ more)) =
        scan before ++ scan (piece ++ more) := by
      apply scan_append
      apply not_divides_of_head
      obtain ⟨b', piece, rfl⟩ := List.exists_cons_of_ne_nil hpiece
      intro b'' hb''
      cases hb''
      apply hbegins.of_cons.1
    have hjoined := hbefore second
    have hapart := hbefore []
    rw [List.append_nil] at hapart
    have hpos := List.length_pos_iff.mpr (mt scan_eq_nil_iff.mp hpiece)
    have hless := length_scan_divided hpiece hb hbegins
    have hlength := congrArg List.length h
    rw [lossy, lossy, lossy, List.append_assoc, hjoined, hapart] at hlength
    simp only [List.length_append, List.length_map] at hlength
    omega
  · intro h
    rw [lossy, scan_append h, List.map_append]
    rfl

/-- After well-formed bytes nothing is divided. -/
theorem not_divides_of_isValid {first second : Bytes} (h : isValid first) :
  ¬ Divides first second
  := by
  rw [← lossy_append_iff, lossy, scan_append_of_isValid h, List.map_append]
  rfl

end Proctor.Utf8
