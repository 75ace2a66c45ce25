import Proctor.Settings.Skip
import Proctor.Path

/-!
# Settings

The settings say where the verifier is. They are read from a JSON text: either an object, of which
the member `verifier_path` counts and all others are ignored, or a list with at most that one
value. Every fault of the text is found in the order of reading.
-/

namespace Proctor

/-- Where the verifier is. -/
structure Settings where
  verifier : Path := Bytes.ofString "./esbmc"
  deriving DecidableEq, Repr

namespace Settings

/-- The name of the member that gives the place of the verifier. -/
def memberName : Bytes :=
  Bytes.ofString "verifier_path"

/-- What a value of the wrong kind is, and the place at which it is refused: its end, or its
beginning if it is a list or an object. -/
def misplaced (cursor : Cursor) : Except Mistake (Found × Cursor) :=
  match cursor.rest with
  | [] => cursor.ahead .endInValue
  | b :: rest =>
    let next : Cursor := ⟨rest, cursor.offset + 1⟩
    if b = 0x6E then do
      return (.null, ← Cursor.literal [0x75, 0x6C, 0x6C] next.rest next.offset)
    else if b = 0x74 then do
      return (.boolean true, ← Cursor.literal [0x72, 0x75, 0x65] next.rest next.offset)
    else if b = 0x66 then do
      return (.boolean false, ← Cursor.literal [0x61, 0x6C, 0x73, 0x65] next.rest next.offset)
    else if b = 0x22 then do
      let (bytes, cursor) ← next.string
      return (.string (Utf8.lossy bytes), cursor)
    else if b = 0x2D || Bytes.isDigit b then do
      let (value, cursor) ← number cursor
      return (.number value, cursor)
    else if b = 0x5B then return (.list, cursor)
    else if b = 0x7B then return (.object, cursor)
    else cursor.ahead .expectedValue

/-- The mistake of a value that is not of the expected kind. -/
def rejection (expected : Expected) (cursor : Cursor) : Mistake :=
  match misplaced cursor with
  | .error mistake => mistake
  | .ok (found, cursor) => ⟨.wrongType found expected, cursor.offset⟩

/-- A path, and the place after it. -/
def path (cursor : Cursor) : Except Mistake (Path × Cursor) :=
  let cursor := cursor.skipBlanks
  match cursor.rest with
  | 0x22 :: rest => Cursor.string ⟨rest, cursor.offset + 1⟩
  | [] => cursor.ahead .endInValue
  | _ => .error (rejection .path cursor)

/-- The settings in a list whose bracket has been read, and the place after the list. -/
def ofList (cursor : Cursor) : Except Mistake (Option Path × Cursor) :=
  let cursor := cursor.skipBlanks
  match cursor.rest with
  | [] => cursor.ahead .endInList
  | 0x5D :: rest => .ok (none, ⟨rest, cursor.offset + 1⟩)
  | _ => do
    let (value, cursor) ← path cursor
    let cursor := cursor.skipBlanks
    match cursor.rest with
    | [] => cursor.ahead .endInList
    | 0x5D :: rest => .ok (some value, ⟨rest, cursor.offset + 1⟩)
    | 0x2C :: rest =>
      let cursor := Cursor.skipBlanks ⟨rest, cursor.offset + 1⟩
      match cursor.rest with
      | 0x5D :: _ => cursor.ahead .trailingComma
      | _ => cursor.ahead .trailingCharacters
    | _ => cursor.ahead .trailingCharacters

/-- How an object goes on: with the key of a member, whose quote has been read, or not at all. -/
inductive Continuation where
  | key (cursor : Cursor)
  | closed (cursor : Cursor)

/-- The place after what is read to see how an object goes on. -/
def Continuation.cursor : Continuation → Cursor
  | key cursor => cursor
  | closed cursor => cursor

/-- The key that has to follow the comma between two members. -/
def keyAfterComma (cursor : Cursor) : Except Mistake Continuation :=
  let cursor := cursor.skipBlanks
  match cursor.rest with
  | 0x22 :: rest => .ok (.key ⟨rest, cursor.offset + 1⟩)
  | 0x7D :: _ => cursor.ahead .trailingComma
  | [] => cursor.ahead .endInValue
  | _ => cursor.ahead .keyNotString

/-- How an object goes on, after its bracket or after a member. -/
def continuation (isFirst : Bool) (cursor : Cursor) : Except Mistake Continuation :=
  let cursor := cursor.skipBlanks
  match cursor.rest with
  | [] => cursor.ahead .endInObject
  | b :: rest =>
    let next : Cursor := ⟨rest, cursor.offset + 1⟩
    if b = 0x7D then .ok (.closed next)
    else if isFirst then if b = 0x22 then .ok (.key next) else cursor.ahead .keyNotString
    else if b = 0x2C then keyAfterComma next
    else cursor.ahead .expectedObjectEnd

/-- The place at which a member is refused that an object has already: after the blanks behind its
key, and after the bracket that closes the object if it comes next. -/
def afterClosing (cursor : Cursor) : Cursor :=
  let cursor := cursor.skipBlanks
  match cursor.rest with
  | 0x7D :: rest => ⟨rest, cursor.offset + 1⟩
  | _ => cursor

/-- A member whose quote has been read: the path found so far or in this member, and the place
after it. -/
def member (found : Option Path) (cursor : Cursor) : Except Mistake (Option Path × Cursor) :=
  match cursor.string with
  | .error mistake => .error mistake
  | .ok (key, cursor) =>
    if key = memberName then
      if found.isSome then (afterClosing cursor).here .duplicateMember
      else
        match colon cursor with
        | .error mistake => .error mistake
        | .ok cursor =>
          match path cursor with
          | .error mistake => .error mistake
          | .ok (value, cursor) => .ok (some value, cursor)
    else
      match colon cursor with
      | .error mistake => .error mistake
      | .ok cursor =>
        match skipValue cursor with
        | .error mistake => .error mistake
        | .ok cursor => .ok (found, cursor)

/-! ### Reading never goes back -/

theorem path_length_le {cursor next : Cursor} {value : Path}
    (h : path cursor = .ok (value, next)) :
  next.rest.length ≤ cursor.rest.length
  := by
  have hblanks := cursor.skipBlanks_length_le
  simp only [path] at h
  split at h
  · next rest hrest =>
    rw [hrest] at hblanks
    exact Nat.le_trans (Cursor.string_length_le h) (Nat.le_of_succ_le hblanks)
  · simp [Cursor.ahead] at h
  · simp at h

theorem keyAfterComma_length_le {cursor : Cursor} {next : Continuation}
    (h : keyAfterComma cursor = .ok next) :
  next.cursor.rest.length ≤ cursor.rest.length
  := by
  have hblanks := cursor.skipBlanks_length_le
  simp only [keyAfterComma] at h
  split at h
  · next rest hrest =>
    cases h
    rw [hrest] at hblanks
    exact Nat.le_of_succ_le hblanks
  all_goals simp [Cursor.ahead] at h

theorem continuation_length_lt {isFirst : Bool} {cursor : Cursor} {next : Continuation}
    (h : continuation isFirst cursor = .ok next) :
  next.cursor.rest.length < cursor.rest.length
  := by
  have hblanks := cursor.skipBlanks_length_le
  simp only [continuation] at h
  split at h
  · simp [Cursor.ahead] at h
  · next b rest hrest =>
    rw [hrest] at hblanks
    split at h
    · cases h
      exact hblanks
    · split at h
      · split at h
        · cases h
          exact hblanks
        · simp [Cursor.ahead] at h
      · split at h
        · exact Nat.lt_of_le_of_lt (keyAfterComma_length_le h) hblanks
        · simp [Cursor.ahead] at h

theorem member_length_le {found value : Option Path} {cursor next : Cursor}
    (h : member found cursor = .ok (value, next)) :
  next.rest.length ≤ cursor.rest.length
  := by
  unfold member at h
  split at h
  · simp at h
  · next key afterKey hkey =>
    have hkey := Cursor.string_length_le hkey
    split at h
    · split at h
      · simp [Cursor.here] at h
      · split at h
        · simp at h
        · next afterColon hcolon =>
          have hcolon := colon_length_le hcolon
          split at h
          · simp at h
          · next hpath =>
            cases h
            exact Nat.le_trans (path_length_le hpath) (Nat.le_trans hcolon hkey)
    · split at h
      · simp at h
      · next afterColon hcolon =>
        have hcolon := colon_length_le hcolon
        split at h
        · simp at h
        · next hskip =>
          cases h
          exact Nat.le_trans (skipValue_length_le hskip) (Nat.le_trans hcolon hkey)

/-! ### Whole files -/

/-- The settings in an object whose bracket or last member has been read, and the place after the
object. -/
def ofObject (found : Option Path) (isFirst : Bool) (cursor : Cursor) :
    Except Mistake (Option Path × Cursor) :=
  match _hnext : continuation isFirst cursor with
  | .error mistake => .error mistake
  | .ok (.closed next) => .ok (found, next)
  | .ok (.key next) =>
    match _hmember : member found next with
    | .error mistake => .error mistake
    | .ok (found, after) => ofObject found false after
termination_by cursor.rest.length
decreasing_by
  exact Nat.lt_of_le_of_lt (member_length_le _hmember) (continuation_length_lt _hnext)

/-- The settings at the beginning of a text, and the place after them. -/
def ofStart (cursor : Cursor) : Except Mistake (Option Path × Cursor) :=
  let cursor := cursor.skipBlanks
  match cursor.rest with
  | [] => cursor.ahead .endInValue
  | 0x5B :: rest => ofList ⟨rest, cursor.offset + 1⟩
  | 0x7B :: rest => ofObject none true ⟨rest, cursor.offset + 1⟩
  | _ => .error (rejection .settings cursor)

/-- The settings that a text gives. Only blanks may follow them. -/
def read (bytes : Bytes) : Except Mistake Settings := do
  let (found, cursor) ← ofStart ⟨bytes, 0⟩
  let cursor := cursor.skipBlanks
  if cursor.rest.isEmpty then
    return match found with
      | some verifier => ⟨verifier⟩
      | none => {}
  else cursor.ahead .trailingCharacters

/-- The settings that a text gives, or what is wrong with it and where. -/
def parse (bytes : Bytes) : Except Fault Settings :=
  (read bytes).mapError (·.locate bytes)

end Settings

end Proctor
