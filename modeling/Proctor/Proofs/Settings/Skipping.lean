import Proctor.Proofs.Settings.Strings

/-!
# Skipping values

A value of any depth is skipped up to its last character. The reader keeps the brackets that are
open in a list, so that a text is skipped in the same way within any brackets: what is proved of
each part of a value is where the reader goes on after it, whatever is open around it.
-/

namespace Proctor.Settings

open Json
open Cursor (before isBlank)

/-! ### Blanks -/

theorem Cursor.skipBlanks_eq_self {cursor : Cursor}
    (h : ∀ b ∈ cursor.rest.head?, isBlank b = false) :
  cursor.skipBlanks = cursor
  := by
  obtain ⟨rest, offset⟩ := cursor
  cases rest with
  | nil => rfl
  | cons b rest => simp [skipBlanks, skipWhile, h b rfl]

theorem Cursor.skipBlanks_skipBlanks (cursor : Cursor) :
  cursor.skipBlanks.skipBlanks = cursor.skipBlanks
  := skipBlanks_eq_self fun _ => Sequence.eq_false_of_mem_head?_dropWhile

/-- A character of ASCII that is not a blank. -/
def IsVisible (c : Char) : Prop :=
  0x20 < c.toNat ∧ c.toNat < 0x80

instance : DecidablePred IsVisible :=
  fun c => inferInstanceAs (Decidable (0x20 < c.toNat ∧ c.toNat < 0x80))

theorem IsVisible.isBlank_eq_false {c : Char} (h : IsVisible c) :
  isBlank (UInt8.ofNat c.toNat) = false
  := by
  have hbyte := Utf8.toNat_ofNat_of_isAscii (c := c) h.2
  have hsize := h.1
  simp only [isBlank, Bool.or_eq_false_iff, beq_eq_false_iff_ne, ne_eq, ← UInt8.toNat_inj, hbyte,
    UInt8.reduceToNat]
  omega

theorem IsVisible.rest_before {c : Char} (h : IsVisible c) (rest : List Char) (offset : Nat) :
  before (c :: rest) offset = ⟨UInt8.ofNat c.toNat :: Utf8.encode rest, offset⟩
  := congrArg (Cursor.mk · offset) (Utf8.encode_cons_of_isAscii h.2 rest)

theorem IsVisible.ofNat_ne {c d : Char} (hc : IsVisible c) (hd : IsVisible d) (hne : c ≠ d) :
  UInt8.ofNat c.toNat ≠ UInt8.ofNat d.toNat
  := by
  rw [ne_eq, ← UInt8.toNat_inj, Utf8.toNat_ofNat_of_isAscii hc.2, Utf8.toNat_ofNat_of_isAscii hd.2,
    Char.toNat_inj]
  apply hne

theorem IsVisible.skipBlanks_before {c : Char} (h : IsVisible c) (blanks : Blanks)
    (rest : List Char) (offset : Nat) :
  ∃ after, (before (blanks.text ++ c :: rest) offset).skipBlanks = before (c :: rest) after
  := by
  apply Cursor.skipBlanks_before
  intro c' hc'
  obtain rfl := Option.mem_some_iff.mp hc'
  exact ⟨h.2, h.isBlank_eq_false⟩

theorem IsVisible.skipBlanks_self {c : Char} (h : IsVisible c) (rest : List Char) (offset : Nat) :
  (before (c :: rest) offset).skipBlanks = before (c :: rest) offset
  := by
  apply Cursor.skipBlanks_eq_self
  rw [h.rest_before]
  intro b hb
  obtain rfl := Option.mem_some_iff.mp hb
  apply h.isBlank_eq_false

/-! ### How values begin -/

/-- A character with which a value or a key may begin. -/
def Begins (c : Char) : Prop :=
  IsVisible c ∧ c ≠ ']' ∧ c ≠ '}'

instance : DecidablePred Begins :=
  fun c => inferInstanceAs (Decidable (IsVisible c ∧ c ≠ ']' ∧ c ≠ '}'))

theorem begins_of_isDigit {c : Char} (h : Text.IsDigit c) :
  Begins c
  := by
  obtain ⟨hlow, hhigh⟩ := Text.isDigit_iff_toNat.mp h
  refine ⟨⟨by omega, by omega⟩, ?_, ?_⟩
  · rintro rfl
    exact absurd h (by decide)
  · rintro rfl
    exact absurd h (by decide)

theorem exists_cons_of_isNumber {text : List Char} (h : IsNumber text) :
  ∃ c rest, text = c :: rest ∧ (c = '-' ∨ Text.IsDigit c)
  := by
  obtain ⟨hminus, ⟨hne, hdigits⟩, -⟩ := h
  obtain ⟨c, digits, rfl⟩ := List.exists_cons_of_ne_nil hne
  simp only [List.mem_cons, List.not_mem_nil, or_false] at hminus
  rcases hminus with rfl | rfl
  · exact ⟨c, _, rfl, .inr (hdigits c List.mem_cons_self)⟩
  · exact ⟨'-', _, rfl, .inl rfl⟩

/-- Only strings begin with a quote. -/
theorem string_or_begins_of_isValue {text : List Char} (h : IsValue text) :
  (∃ contents, IsContents contents ∧ text = quote contents)
    ∨ ∃ c rest, text = c :: rest ∧ Begins c ∧ c ≠ '"'
  := by
  cases h with
  | literal h =>
      right
      simp only [List.mem_cons, List.not_mem_nil, or_false] at h
      rcases h with rfl | rfl | rfl
      · exact ⟨'n', _, rfl, by decide⟩
      · exact ⟨'t', _, rfl, by decide⟩
      · exact ⟨'f', _, rfl, by decide⟩
  | number h =>
      right
      obtain ⟨c, rest, rfl, rfl | hdigit⟩ := exists_cons_of_isNumber h
      · exact ⟨'-', rest, rfl, by decide⟩
      · refine ⟨c, rest, rfl, begins_of_isDigit hdigit, ?_⟩
        rintro rfl
        exact absurd hdigit (by decide)
  | @string contents h => exact .inl ⟨contents, h, rfl⟩
  | empty bracket => exact .inr ⟨bracket.opens, _, rfl, by cases bracket <;> decide⟩
  | @filled bracket => exact .inr ⟨bracket.opens, _, rfl, by cases bracket <;> decide⟩

theorem exists_cons_of_isValue {text : List Char} (h : IsValue text) :
  ∃ c rest, text = c :: rest ∧ Begins c
  := by
  rcases string_or_begins_of_isValue h with ⟨contents, -, rfl⟩ | ⟨c, rest, rfl, hc, -⟩
  · exact ⟨'"', contents ++ ['"'], rfl, by decide⟩
  · exact ⟨c, rest, rfl, hc⟩

theorem exists_append_of_isItem {bracket : Settings.Bracket} {text : List Char}
    (h : Is (.item bracket) text) :
  ∃ (blanks : Blanks) (c : Char) (rest : List Char), text = blanks.text ++ c :: rest ∧ Begins c
  := by
  cases h with
  | element before after h =>
      obtain ⟨c, rest, rfl, hc⟩ := exists_cons_of_isValue h
      exact ⟨before, c, rest ++ after.text, by simp, hc⟩
  | member before => exact ⟨before, '"', _, by simp [quote]; rfl, by decide⟩

theorem exists_append_of_isItems {bracket : Settings.Bracket} {text : List Char}
    (h : Is (.items bracket) text) :
  ∃ (blanks : Blanks) (c : Char) (rest : List Char), text = blanks.text ++ c :: rest ∧ Begins c
  := by
  cases h with
  | last h => apply exists_append_of_isItem h
  | @more _ _ others h hothers =>
      obtain ⟨blanks, c, rest, rfl, hc⟩ := exists_append_of_isItem h
      exact ⟨blanks, c, rest ++ ',' :: others, by simp, hc⟩

/-! ### How values end -/

/-- A text that begins with a comma or with the end of a bracket. -/
def Ends (rest : List Char) : Prop :=
  ∃ c ∈ [',', ']', '}'], ∃ more, rest = c :: more

theorem ends_closes (bracket : Bracket) (rest : List Char) :
  Ends (bracket.closes :: rest)
  := ⟨bracket.closes, by cases bracket <;> decide, rest, rfl⟩

/-- Blanks and then a comma or the end of a bracket end a value. -/
theorem Ends.delimited {rest : List Char} (h : Ends rest) (blanks : Blanks) :
  Delimited (blanks.text ++ rest)
  := by
  obtain ⟨text, hblank⟩ := blanks
  cases text with
  | nil =>
      obtain ⟨c, hc, more, rfl⟩ := h
      exact ⟨c, List.mem_append_right [' ', '\t', '\n', '\r'] hc, more, rfl⟩
  | cons c text =>
      have hc := hblank c List.mem_cons_self
      exact ⟨c, List.mem_append_left [',', ']', '}'] hc, text ++ rest, rfl⟩

/-! ### Rounds -/

namespace Skipping

variable (enclosing : List Bracket) (bracket : Bracket) (cursor : Cursor)

theorem finish_of_round {state : Skipping} {next : Except Mistake Skipping}
    (h : state.round = next.map some) :
  state.finish = next.bind finish
  := by
  rw [finish]
  cases next with
  | error mistake =>
      split
      · next heq =>
        rw [h] at heq
        cases heq
        rfl
      · next heq =>
        rw [h] at heq
        cases heq
      · next heq =>
        rw [h] at heq
        cases heq
  | ok next =>
      split
      · next heq =>
        rw [h] at heq
        cases heq
      · next heq =>
        rw [h] at heq
        cases heq
      · next heq =>
        rw [h] at heq
        cases heq
        rfl

theorem finish_value :
  (value enclosing cursor).finish = (begun enclosing cursor).bind finish
  := finish_of_round rfl

theorem finish_after_cons :
  (after (bracket :: enclosing) cursor).finish = (followed bracket enclosing cursor).bind finish
  := finish_of_round rfl

theorem finish_after_nil :
  (after [] cursor).finish = .ok cursor
  := by
  rw [finish]
  rfl

/-- The place after everything that is still open, from the beginning of an item on. -/
def enter : Except Mistake Cursor :=
  ((bracket.skipToValue cursor).map (.value (bracket :: enclosing))).bind finish

theorem finish_value_skipBlanks :
  (value enclosing cursor.skipBlanks).finish = (value enclosing cursor).finish
  := by
  rw [finish_value, finish_value, begun, begun, cursor.skipBlanks_skipBlanks]

theorem finish_after_skipBlanks :
  (after (bracket :: enclosing) cursor.skipBlanks).finish
    = (after (bracket :: enclosing) cursor).finish
  := by
  rw [finish_after_cons, finish_after_cons, followed, followed, cursor.skipBlanks_skipBlanks]

theorem enter_skipBlanks :
  enter enclosing bracket cursor.skipBlanks = enter enclosing bracket cursor
  := by
  cases bracket with
  | list => apply finish_value_skipBlanks
  | object =>
      rw [enter, enter, Bracket.skipToValue, Bracket.skipToValue, skipKey, skipKey,
        cursor.skipBlanks_skipBlanks]

end Skipping

/-! ### Keys -/

theorem colon_before (blanks : Blanks) (rest : List Char) (offset : Nat) :
  ∃ after, colon (before (blanks.text ++ ':' :: rest) offset) = .ok (before rest after)
  := by
  have hcolon : IsVisible ':' := by decide
  obtain ⟨place, hplace⟩ := hcolon.skipBlanks_before blanks rest offset
  use place + 1
  rw [colon, hplace]
  rfl

theorem skipKey_of_skipString {cursor after : Cursor} {rest : Bytes} {start : Nat}
    (hstart : cursor.skipBlanks = ⟨0x22 :: rest, start⟩)
    (hkey : Cursor.skipString ⟨rest, start + 1⟩ = .ok after) :
  skipKey cursor = colon after
  := by
  rw [skipKey, hstart]
  simp only [hkey]

theorem skipKey_before {key : List Char} (hkey : IsContents key) (beforeKey afterKey : Blanks)
    (rest : List Char) (offset : Nat) :
  ∃ after, skipKey (before (beforeKey.text ++ (quote key ++ (afterKey.text ++ ':' :: rest))) offset)
    = .ok (before rest after)
  := by
  have hquote : IsVisible '"' := by decide
  have htext : quote key ++ (afterKey.text ++ ':' :: rest)
      = '"' :: (key ++ '"' :: (afterKey.text ++ ':' :: rest)) := by
    simp [quote]
  obtain ⟨start, hstart⟩ := hquote.skipBlanks_before beforeKey
    (key ++ '"' :: (afterKey.text ++ ':' :: rest)) offset
  obtain ⟨place, hplace⟩ := skipString_before hkey (afterKey.text ++ ':' :: rest) (start + 1)
  obtain ⟨after, hafter⟩ := colon_before afterKey rest place
  use after
  rw [htext, skipKey_of_skipString hstart hplace, hafter]

/-! ### Scalars -/

theorem skipScalar_number {text rest : List Char} (h : IsNumber text) (offset : Nat) :
  skipScalar (before (text ++ rest) offset) = skipNumber (before (text ++ rest) offset)
  := by
  obtain ⟨c, more, rfl, rfl | hdigit⟩ := exists_cons_of_isNumber h
  · rfl
  · have hc := (begins_of_isDigit hdigit).1
    have hbyte := hdigit.isDigit_ofNat
    have hne : ∀ b, Bytes.isDigit b = false → UInt8.ofNat c.toNat ≠ b := by
      rintro b hb rfl
      rw [hbyte] at hb
      cases hb
    rw [List.cons_append, hc.rest_before, skipScalar]
    simp only [hbyte, if_neg (hne 0x6E (by decide)), if_neg (hne 0x74 (by decide)),
      if_neg (hne 0x66 (by decide)), if_neg (hne 0x22 (by decide)), Bool.or_true, if_true]

namespace Skipping

variable (enclosing : List Bracket)

theorem begun_scalar {c : Char} (hc : IsVisible c) (hlist : c ≠ '[') (hobject : c ≠ '{')
    (rest : List Char) (offset : Nat) :
  begun enclosing (before (c :: rest) offset)
    = (skipScalar (before (c :: rest) offset)).map (.after enclosing)
  := by
  rw [begun, hc.skipBlanks_self]
  split
  · next heq =>
    rw [hc.rest_before, List.cons.injEq] at heq
    cases hc.ofNat_ne (by decide) hlist heq.1
  · next heq =>
    rw [hc.rest_before, List.cons.injEq] at heq
    cases hc.ofNat_ne (by decide) hobject heq.1
  · rfl

theorem begun_opens (bracket : Bracket) (rest : List Char) (offset : Nat) :
  begun enclosing (before (bracket.opens :: rest) offset)
    = opened enclosing bracket (before rest (offset + 1))
  := by
  cases bracket <;> rfl

theorem opened_closes (bracket : Bracket) (blanks : Blanks) (rest : List Char) (offset : Nat) :
  ∃ place, opened enclosing bracket (before (blanks.text ++ bracket.closes :: rest) offset)
    = .ok (.after enclosing (before rest place))
  := by
  have hcloses : IsVisible bracket.closes := by
    cases bracket <;> decide
  obtain ⟨start, hstart⟩ := hcloses.skipBlanks_before blanks rest offset
  use start + 1
  rw [opened, hstart]
  cases bracket <;> rfl

theorem opened_begins (bracket : Bracket) (blanks : Blanks) {c : Char} (hc : Begins c)
    (rest : List Char) (offset : Nat) :
  (opened enclosing bracket (before (blanks.text ++ c :: rest) offset)).bind finish
    = enter enclosing bracket (before (blanks.text ++ c :: rest) offset)
  := by
  obtain ⟨hvisible, hclosing⟩ := hc
  obtain ⟨start, hstart⟩ := hvisible.skipBlanks_before blanks rest offset
  have hne : UInt8.ofNat c.toNat ≠ bracket.closing := by
    cases bracket with
    | list => apply hvisible.ofNat_ne (by decide) hclosing.1
    | object => apply hvisible.ofNat_ne (by decide) hclosing.2
  rw [← enter_skipBlanks, opened, hstart, hvisible.rest_before]
  simp only [if_neg hne]
  rfl

theorem finish_after_closes (bracket : Bracket) (rest : List Char) (offset : Nat) :
  (after (bracket :: enclosing) (before (bracket.closes :: rest) offset)).finish
    = (after enclosing (before rest (offset + 1))).finish
  := by
  rw [finish_after_cons]
  cases bracket <;> rfl

theorem finish_after_comma (bracket : Bracket) (rest : List Char) (offset : Nat) :
  (after (bracket :: enclosing) (before (',' :: rest) offset)).finish
    = enter enclosing bracket (before rest (offset + 1))
  := by
  rw [finish_after_cons]
  cases bracket <;> rfl

/-! ### Values -/

theorem finish_after_blanks {rest : List Char} (h : Ends rest) (bracket : Bracket) (blanks : Blanks)
    (offset : Nat) :
  ∃ place, (after (bracket :: enclosing) (before (blanks.text ++ rest) offset)).finish
    = (after (bracket :: enclosing) (before rest place)).finish
  := by
  obtain ⟨c, hc, more, rfl⟩ := h
  have hvisible : IsVisible c := by
    simp only [List.mem_cons, List.not_mem_nil, or_false] at hc
    rcases hc with rfl | rfl | rfl <;> decide
  obtain ⟨place, hplace⟩ := hvisible.skipBlanks_before blanks more offset
  use place
  rw [← finish_after_skipBlanks, hplace]

/-- Where the reader goes on after a part of a value, whatever is open around it. -/
def Passes : Part → List Char → Prop
  | .value, text => ∀ enclosing rest offset, Delimited rest →
      ∃ place, (value enclosing (before (text ++ rest) offset)).finish
        = (after enclosing (before rest place)).finish
  | .item bracket, text => ∀ enclosing rest offset, Ends rest →
      ∃ place, enter enclosing bracket (before (text ++ rest) offset)
        = (after (bracket :: enclosing) (before rest place)).finish
  | .items bracket, text => ∀ enclosing rest offset,
      ∃ place, enter enclosing bracket (before (text ++ bracket.closes :: rest) offset)
        = (after enclosing (before rest place)).finish

theorem passes_scalar {c : Char} {text : List Char} (hc : IsVisible c) (hlist : c ≠ '[')
    (hobject : c ≠ '{')
    (h : ∀ rest offset, Delimited rest →
      ∃ place, skipScalar (before (c :: text ++ rest) offset) = .ok (before rest place)) :
  Passes .value (c :: text)
  := by
  intro enclosing rest offset hrest
  obtain ⟨place, hplace⟩ := h rest offset hrest
  use place
  rw [finish_value, List.cons_append, begun_scalar enclosing hc hlist hobject, ← List.cons_append,
    hplace]
  rfl

theorem passes_number {text : List Char} (h : IsNumber text) :
  Passes .value text
  := by
  have hskip : ∀ rest offset, Delimited rest →
      ∃ place, skipScalar (before (text ++ rest) offset) = .ok (before rest place) := by
    intro rest offset hrest
    rw [skipScalar_number h]
    apply skipNumber_before h hrest
  obtain ⟨c, text, rfl, rfl | hdigit⟩ := exists_cons_of_isNumber h
  · apply passes_scalar (by decide) (by decide) (by decide) hskip
  · apply passes_scalar (begins_of_isDigit hdigit).1 _ _ hskip
    · rintro rfl
      exact absurd hdigit (by decide)
    · rintro rfl
      exact absurd hdigit (by decide)

theorem passes_string {contents : List Char} (h : IsContents contents) :
  Passes .value (quote contents)
  := by
  rw [quote, List.cons_append]
  apply passes_scalar (by decide) (by decide) (by decide)
  intro rest offset _
  rw [List.cons_append, List.append_assoc]
  apply skipString_before h rest (offset + 1)

theorem passes_filled {bracket : Bracket} {text : List Char} (h : Is (.items bracket) text)
    (ih : Passes (.items bracket) text) :
  Passes .value (bracket.opens :: text ++ [bracket.closes])
  := by
  intro enclosing rest offset hrest
  obtain ⟨place, hplace⟩ := ih enclosing rest (offset + 1)
  use place
  rw [List.append_assoc, List.cons_append, List.singleton_append, finish_value, begun_opens,
    ← hplace]
  obtain ⟨blanks, c, more, rfl, hc⟩ := exists_append_of_isItems h
  rw [List.append_assoc, List.cons_append]
  apply opened_begins enclosing bracket blanks hc

/-- Blanks before a value are skipped with it. -/
theorem Passes.of_blanks {text : List Char} (hpasses : Passes .value text) (h : IsValue text)
    (blanks : Blanks) {rest : List Char} (hrest : Delimited rest) (offset : Nat) :
  ∃ place, (value enclosing (before (blanks.text ++ (text ++ rest)) offset)).finish
    = (after enclosing (before rest place)).finish
  := by
  obtain ⟨c, more, rfl, hc⟩ := exists_cons_of_isValue h
  obtain ⟨start, hstart⟩ := hc.1.skipBlanks_before blanks (more ++ rest) offset
  obtain ⟨place, hplace⟩ := hpasses enclosing rest start hrest
  use place
  rw [← finish_value_skipBlanks, List.cons_append, hstart, ← List.cons_append, hplace]

/-- Blanks before and after a value are skipped with it in a bracket. -/
theorem Passes.between_blanks {text : List Char} (hpasses : Passes .value text) (h : IsValue text)
    (bracket : Bracket) (blanks after : Blanks) {rest : List Char} (hrest : Ends rest)
    (offset : Nat) :
  ∃ place, (value (bracket :: enclosing)
      (before (blanks.text ++ (text ++ (after.text ++ rest))) offset)).finish
    = (Skipping.after (bracket :: enclosing) (before rest place)).finish
  := by
  obtain ⟨last, hlast⟩ := hpasses.of_blanks (bracket :: enclosing) h blanks (hrest.delimited after)
    offset
  obtain ⟨place, hplace⟩ := finish_after_blanks enclosing hrest bracket after last
  use place
  rw [hlast, hplace]

theorem passes_element (blanks after : Blanks) {text : List Char} (h : IsValue text)
    (ih : Passes .value text) :
  Passes (.item .list) (blanks.text ++ text ++ after.text)
  := by
  intro enclosing rest offset hrest
  rw [List.append_assoc, List.append_assoc]
  apply ih.between_blanks enclosing h .list blanks after hrest

theorem passes_member (beforeKey afterKey beforeValue after : Blanks) {key text : List Char}
    (hkey : IsContents key) (h : IsValue text) (ih : Passes .value text) :
  Passes (.item .object) (beforeKey.text ++ quote key ++ afterKey.text ++ ':' :: beforeValue.text
    ++ text ++ after.text)
  := by
  intro enclosing rest offset hrest
  obtain ⟨start, hstart⟩ := skipKey_before hkey beforeKey afterKey
    (beforeValue.text ++ (text ++ (after.text ++ rest))) offset
  obtain ⟨place, hplace⟩ := ih.between_blanks enclosing h .object beforeValue after hrest start
  use place
  simp only [List.append_assoc, List.cons_append]
  rw [← hplace, enter, Bracket.skipToValue, hstart]
  rfl

/-- The reader passes over all values, by induction on their texts. -/
theorem passes_of_is {part : Part} {text : List Char} (h : Is part text) :
  Passes part text
  := by
  induction h with
  | literal h =>
      simp only [List.mem_cons, List.not_mem_nil, or_false] at h
      rcases h with rfl | rfl | rfl <;>
        exact passes_scalar (by decide) (by decide) (by decide) fun rest offset _ => ⟨_, rfl⟩
  | number h => apply passes_number h
  | string h => apply passes_string h
  | empty bracket blanks =>
      intro enclosing rest offset hrest
      obtain ⟨place, hplace⟩ := opened_closes enclosing bracket blanks rest (offset + 1)
      use place
      rw [List.append_assoc, List.cons_append, List.singleton_append, finish_value, begun_opens,
        hplace]
      rfl
  | filled h ih => apply passes_filled h ih
  | element blanks after h ih => apply passes_element blanks after h ih
  | member beforeKey afterKey beforeValue after hkey h ih =>
      apply passes_member beforeKey afterKey beforeValue after hkey h ih
  | @last bracket _ _ ih =>
      intro enclosing rest offset
      obtain ⟨place, hplace⟩ := ih enclosing (bracket.closes :: rest) offset
        (ends_closes bracket rest)
      use place + 1
      rw [hplace, finish_after_closes]
  | @more bracket _ others _ _ ih ihothers =>
      intro enclosing rest offset
      obtain ⟨comma, hcomma⟩ := ih enclosing (',' :: others ++ bracket.closes :: rest) offset
        ⟨',', List.mem_cons_self, _, rfl⟩
      obtain ⟨place, hplace⟩ := ihothers enclosing rest (comma + 1)
      use place
      rw [List.append_assoc, hcomma, ← hplace]
      apply finish_after_comma

end Skipping

/-- A value is skipped with the blanks before it. -/
theorem skipValue_before {text rest : List Char} (h : IsValue text) (hrest : Delimited rest)
    (blanks : Blanks) (offset : Nat) :
  ∃ place, skipValue (before (blanks.text ++ (text ++ rest)) offset) = .ok (before rest place)
  := by
  obtain ⟨place, hplace⟩ := (Skipping.passes_of_is h).of_blanks [] h blanks hrest offset
  use place
  rw [skipValue, hplace, Skipping.finish_after_nil]

end Proctor.Settings
