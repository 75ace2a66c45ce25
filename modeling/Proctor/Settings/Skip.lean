import Proctor.Settings.Number

/-!
# Values that nobody needs

The value of an unknown member is read to its end and forgotten. Lists and objects may be nested to
any depth: the brackets that are still open are kept in a list, and each round of the reader reads
at least one byte.
-/

namespace Proctor.Settings

/-- A bracket that is still open. -/
inductive Bracket where
  | list
  | object
  deriving DecidableEq, Repr

/-- The byte that closes a bracket. -/
def Bracket.closing : Bracket → UInt8
  | list => 0x5D
  | object => 0x7D

/-- The fault when the text ends within a bracket. -/
def Bracket.ended : Bracket → Cause
  | list => .endInList
  | object => .endInObject

/-- The fault when neither a comma nor the closing bracket follows an element. -/
def Bracket.unfinished : Bracket → Cause
  | list => .expectedListEnd
  | object => .expectedObjectEnd

/-- The place after the colon that follows a key. -/
def colon (cursor : Cursor) : Except Mistake Cursor :=
  let cursor := cursor.skipBlanks
  match cursor.rest with
  | 0x3A :: rest => .ok ⟨rest, cursor.offset + 1⟩
  | [] => cursor.ahead .endInObject
  | _ => cursor.ahead .expectedColon

/-- The place after a key that is not needed, and its colon. -/
def skipKey (cursor : Cursor) : Except Mistake Cursor :=
  let cursor := cursor.skipBlanks
  match cursor.rest with
  | 0x22 :: rest =>
    match Cursor.skipString ⟨rest, cursor.offset + 1⟩ with
    | .ok cursor => colon cursor
    | .error mistake => .error mistake
  | [] => cursor.ahead .endInObject
  | _ => cursor.ahead .keyNotString

/-- The place where the next value of a bracket begins: in an object, after its key. -/
def Bracket.skipToValue : Bracket → Cursor → Except Mistake Cursor
  | list, cursor => .ok cursor
  | object, cursor => skipKey cursor

/-- The place after a value that is neither a list nor an object and is not needed. -/
def skipScalar (cursor : Cursor) : Except Mistake Cursor :=
  match cursor.rest with
  | [] => cursor.ahead .endInValue
  | b :: rest =>
    let next : Cursor := ⟨rest, cursor.offset + 1⟩
    if b = 0x6E then Cursor.literal [0x75, 0x6C, 0x6C] next.rest next.offset
    else if b = 0x74 then Cursor.literal [0x72, 0x75, 0x65] next.rest next.offset
    else if b = 0x66 then Cursor.literal [0x61, 0x6C, 0x73, 0x65] next.rest next.offset
    else if b = 0x22 then next.skipString
    else if b = 0x2D || Bytes.isDigit b then skipNumber cursor
    else cursor.ahead .expectedValue

/-! ### Reading never goes back -/

theorem colon_length_le {cursor next : Cursor} (h : colon cursor = .ok next) :
  next.rest.length ≤ cursor.rest.length
  := by
  have hblanks := cursor.skipBlanks_length_le
  simp only [colon] at h
  split at h
  · next rest hrest =>
    cases h
    rw [hrest] at hblanks
    exact Nat.le_of_succ_le hblanks
  · simp [Cursor.ahead] at h
  · simp [Cursor.ahead] at h

theorem skipKey_length_le {cursor next : Cursor} (h : skipKey cursor = .ok next) :
  next.rest.length ≤ cursor.rest.length
  := by
  have hblanks := cursor.skipBlanks_length_le
  simp only [skipKey] at h
  split at h
  · next rest hrest =>
    rw [hrest] at hblanks
    split at h
    · next after hstring =>
      have := Cursor.skipString_length_le hstring
      exact Nat.le_trans (colon_length_le h) (Nat.le_trans this (Nat.le_of_succ_le hblanks))
    · simp at h
  · simp [Cursor.ahead] at h
  · simp [Cursor.ahead] at h

theorem skipToValue_length_le {bracket : Bracket} {cursor next : Cursor}
    (h : bracket.skipToValue cursor = .ok next) :
  next.rest.length ≤ cursor.rest.length
  := by
  cases bracket with
  | list => cases h; exact Nat.le_refl _
  | object => exact skipKey_length_le h

theorem skipScalar_length_lt {cursor next : Cursor} (h : skipScalar cursor = .ok next) :
  next.rest.length < cursor.rest.length
  := by
  unfold skipScalar at h
  split at h
  · simp [Cursor.ahead] at h
  · next b rest hrest =>
    simp only at h
    split at h
    · rw [hrest]; exact Nat.lt_succ_of_le (Cursor.literal_length_le h)
    split at h
    · rw [hrest]; exact Nat.lt_succ_of_le (Cursor.literal_length_le h)
    split at h
    · rw [hrest]; exact Nat.lt_succ_of_le (Cursor.literal_length_le h)
    split at h
    · rw [hrest]; exact Nat.lt_succ_of_le (Cursor.skipString_length_le h)
    split at h
    · exact skipNumber_length_lt h
    · simp [Cursor.ahead] at h

/-! ### Nested values -/

/-- Where the reader stands within the brackets that are still open, the innermost first: before a
value or after one. -/
inductive Skipping where
  | value (enclosing : List Bracket) (cursor : Cursor)
  | after (enclosing : List Bracket) (cursor : Cursor)
  deriving DecidableEq, Repr

namespace Skipping

/-- The place of the reader. -/
def cursor : Skipping → Cursor
  | value _ cursor => cursor
  | after _ cursor => cursor

/-- Where the reader stands after a bracket that has just been opened: at its first value, or after
it if it is empty. -/
def opened (enclosing : List Bracket) (bracket : Bracket) (cursor : Cursor) :
    Except Mistake Skipping :=
  let start := cursor.skipBlanks
  match start.rest with
  | [] => start.ahead bracket.ended
  | b :: rest =>
    if b = bracket.closing then .ok (.after enclosing ⟨rest, start.offset + 1⟩)
    else (bracket.skipToValue start).map (.value (bracket :: enclosing))

/-- Where the reader stands after the beginning of a value: in it, if it is a list or an object,
and else after it. -/
def begun (enclosing : List Bracket) (cursor : Cursor) : Except Mistake Skipping :=
  let start := cursor.skipBlanks
  match start.rest with
  | 0x5B :: rest => opened enclosing .list ⟨rest, start.offset + 1⟩
  | 0x7B :: rest => opened enclosing .object ⟨rest, start.offset + 1⟩
  | _ => (skipScalar start).map (.after enclosing)

/-- Where the reader stands after what follows a value in a bracket: at the next value, or after
the bracket. -/
def followed (bracket : Bracket) (outer : List Bracket) (cursor : Cursor) :
    Except Mistake Skipping :=
  let start := cursor.skipBlanks
  match start.rest with
  | [] => start.ahead bracket.ended
  | b :: rest =>
    let next : Cursor := ⟨rest, start.offset + 1⟩
    if b = bracket.closing then .ok (.after outer next)
    else if b = 0x2C then (bracket.skipToValue next).map (.value (bracket :: outer))
    else start.ahead bracket.unfinished

/-- One round of the reader; `none` when no bracket is open after a value. -/
def round : Skipping → Except Mistake (Option Skipping)
  | .value enclosing cursor => (begun enclosing cursor).map some
  | .after [] _ => .ok none
  | .after (bracket :: outer) cursor => (followed bracket outer cursor).map some

theorem opened_length_le {enclosing : List Bracket} {bracket : Bracket} {cursor : Cursor}
    {next : Skipping} (h : opened enclosing bracket cursor = .ok next) :
  next.cursor.rest.length ≤ cursor.rest.length
  := by
  have hblanks := cursor.skipBlanks_length_le
  simp only [opened] at h
  split at h
  · simp [Cursor.ahead] at h
  · next b rest hrest =>
    split at h
    · cases h
      rw [hrest] at hblanks
      exact Nat.le_of_succ_le hblanks
    · cases hvalue : bracket.skipToValue cursor.skipBlanks with
      | error mistake => simp [hvalue, Except.map] at h
      | ok place =>
        simp only [hvalue, Except.map, Except.ok.injEq] at h
        subst h
        exact Nat.le_trans (skipToValue_length_le hvalue) hblanks

theorem begun_length_lt {enclosing : List Bracket} {cursor : Cursor} {next : Skipping}
    (h : begun enclosing cursor = .ok next) :
  next.cursor.rest.length < cursor.rest.length
  := by
  have hblanks := cursor.skipBlanks_length_le
  simp only [begun] at h
  split at h
  · next rest hrest =>
    rw [hrest] at hblanks
    exact Nat.lt_of_le_of_lt (opened_length_le h) hblanks
  · next rest hrest =>
    rw [hrest] at hblanks
    exact Nat.lt_of_le_of_lt (opened_length_le h) hblanks
  · cases hscalar : skipScalar cursor.skipBlanks with
    | error mistake => simp [hscalar, Except.map] at h
    | ok place =>
      simp only [hscalar, Except.map, Except.ok.injEq] at h
      subst h
      exact Nat.lt_of_lt_of_le (skipScalar_length_lt hscalar) hblanks

theorem followed_length_lt {bracket : Bracket} {outer : List Bracket} {cursor : Cursor}
    {next : Skipping} (h : followed bracket outer cursor = .ok next) :
  next.cursor.rest.length < cursor.rest.length
  := by
  have hblanks := cursor.skipBlanks_length_le
  simp only [followed] at h
  split at h
  · simp [Cursor.ahead] at h
  · next b rest hrest =>
    rw [hrest] at hblanks
    split at h
    · cases h
      exact hblanks
    · split at h
      · cases hvalue : bracket.skipToValue ⟨rest, cursor.skipBlanks.offset + 1⟩ with
        | error mistake => simp [hvalue, Except.map] at h
        | ok place =>
          simp only [hvalue, Except.map, Except.ok.injEq] at h
          subst h
          exact Nat.lt_of_le_of_lt (skipToValue_length_le hvalue) hblanks
      · simp [Cursor.ahead] at h

theorem round_length_lt {state next : Skipping} (h : state.round = .ok (some next)) :
  next.cursor.rest.length < state.cursor.rest.length
  := by
  match state with
  | .value enclosing cursor =>
    cases hbegun : begun enclosing cursor with
    | error mistake => simp [round, hbegun, Except.map] at h
    | ok place =>
      simp only [round, hbegun, Except.map, Except.ok.injEq, Option.some.injEq] at h
      exact h ▸ begun_length_lt hbegun
  | .after [] cursor => simp [round] at h
  | .after (bracket :: outer) cursor =>
    cases hfollowed : followed bracket outer cursor with
    | error mistake => simp [round, hfollowed, Except.map] at h
    | ok place =>
      simp only [round, hfollowed, Except.map, Except.ok.injEq, Option.some.injEq] at h
      exact h ▸ followed_length_lt hfollowed

/-- The place after everything that is still open. -/
def finish (state : Skipping) : Except Mistake Cursor :=
  match _h : state.round with
  | .error mistake => .error mistake
  | .ok none => .ok state.cursor
  | .ok (some next) => finish next
termination_by state.cursor.rest.length
decreasing_by exact round_length_lt _h

theorem finish_length_le {state : Skipping} {cursor : Cursor} (h : state.finish = .ok cursor) :
  cursor.rest.length ≤ state.cursor.rest.length
  := by
  fun_induction finish state with
  | case1 => simp at h
  | case2 => cases h; exact Nat.le_refl _
  | case3 state next hround ih => exact Nat.le_trans (ih h) (Nat.le_of_lt (round_length_lt hround))

end Skipping

/-- The place after a value that is not needed. -/
def skipValue (cursor : Cursor) : Except Mistake Cursor :=
  (Skipping.value [] cursor).finish

theorem skipValue_length_le {cursor next : Cursor} (h : skipValue cursor = .ok next) :
  next.rest.length ≤ cursor.rest.length
  := Skipping.finish_length_le h

end Proctor.Settings
