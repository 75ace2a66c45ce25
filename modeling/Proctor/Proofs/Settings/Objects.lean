import Proctor.Configuration
import Proctor.Proofs.Settings.Skipping
import Proctor.Proofs.Text.Pieces

/-!
# Settings files with an object

A settings file that holds an object is read member by member. Members with other names are passed
over whatever their values are, the member `verifier_path` gives the place of the verifier, and it
may stand anywhere, but only once, and only with a string.
-/

namespace Proctor.Json

/-- The text of a member after the quote that opens its key. -/
def Member.body (member : Member) : List Char :=
  member.spelling ++ '"' :: (member.afterKey.text ++ ':' :: (member.beforeValue.text
    ++ (member.value ++ member.afterValue.text)))

theorem Member.text_eq (member : Member) :
  member.text = member.beforeKey.text ++ '"' :: member.body
  := by
  simp [text, body, quote]

/-- The text of members with a comma before each of them, or before all but the first. -/
def separated : (isFirst : Bool) → List Member → List Char
  | _, [] => []
  | isFirst, member :: members =>
      (if isFirst then [] else [',']) ++ (member.text ++ separated false members)

theorem separated_false (members : List Member) :
  separated false members = members.flatMap fun member => ',' :: member.text
  := by
  induction members with
  | nil => rfl
  | cons member members ih =>
      rw [separated, ih]
      rfl

theorem separated_true (members : List Member) :
  separated true members = [','].intercalate (members.map Member.text)
  := by
  cases members with
  | nil => rfl
  | cons member members =>
      rw [separated, separated_false, List.map_cons, Sequence.intercalate_cons, List.flatMap_map]
      rfl

end Proctor.Json

namespace Proctor.Settings

open Json
open Cursor (before)

/-- The name of the member that counts, as a text. -/
def knownName : List Char :=
  "verifier_path".toList

/-! ### Paths -/

theorem path_of_quotes {text value : List Char} (h : Quotes text value) (blanks : Blanks)
    (rest : List Char) (offset : Nat) :
  ∃ place, path (before (blanks.text ++ (value ++ rest)) offset)
    = .ok (Utf8.encode text, before rest place)
  := by
  obtain ⟨contents, hspells, rfl⟩ := h
  have hquote : IsVisible '"' := by decide
  have htext : quote contents ++ rest = '"' :: (contents ++ '"' :: rest) := by
    simp [quote]
  obtain ⟨start, hstart⟩ := hquote.skipBlanks_before blanks (contents ++ '"' :: rest) offset
  obtain ⟨place, hplace⟩ := string_before hspells rest (start + 1)
  use place
  rw [htext, path, hstart, ← hplace]
  rfl

theorem path_error {value : List Char} (h : IsValue value) (hvalue : ∀ text, ¬ Quotes text value)
    (blanks : Blanks) (rest : List Char) (offset : Nat) :
  ∃ mistake, path (before (blanks.text ++ (value ++ rest)) offset) = .error mistake
  := by
  rcases string_or_begins_of_isValue h with ⟨contents, hcontents, rfl⟩ | ⟨c, more, rfl, hc, hne⟩
  · have hquote : IsVisible '"' := by decide
    have htext : quote contents ++ rest = '"' :: (contents ++ '"' :: rest) := by
      simp [quote]
    obtain ⟨start, hstart⟩ := hquote.skipBlanks_before blanks (contents ++ '"' :: rest) offset
    obtain ⟨mistake, hmistake⟩ := string_before_error hcontents
      (fun text hspells => hvalue text ⟨contents, hspells, rfl⟩) rest (start + 1)
    use mistake
    rw [htext, path, hstart, ← hmistake]
    rfl
  · obtain ⟨start, hstart⟩ := hc.1.skipBlanks_before blanks (more ++ rest) offset
    rw [List.cons_append, path, hstart]
    split
    · next heq =>
      rw [hc.1.rest_before, List.cons.injEq] at heq
      cases hc.1.ofNat_ne (by decide) hne heq.1
    · exact ⟨_, rfl⟩
    · exact ⟨_, rfl⟩

/-! ### One member -/

section Member

variable (member : Member)

theorem string_body (rest : List Char) (offset : Nat) :
  ∃ place, (before (member.body ++ rest) offset).string
    = .ok (Utf8.encode member.name, before (member.afterKey.text ++ ':' :: (member.beforeValue.text
      ++ (member.value ++ (member.afterValue.text ++ rest)))) place)
  := by
  simp only [Member.body, List.append_assoc, List.cons_append]
  apply string_before member.spells

theorem encode_name_eq_iff :
  Utf8.encode member.name = memberName ↔ member.name = knownName
  := Utf8.encode_injective.eq_iff

variable (found : Option Path) {rest : List Char} (offset : Nat)

/-- A member with another name is passed over. -/
theorem member_other (hname : member.name ≠ knownName) (hrest : Ends rest) :
  ∃ place, Settings.member found (before (member.body ++ rest) offset)
    = .ok (found, before (member.afterValue.text ++ rest) place)
  := by
  obtain ⟨key, hkey⟩ := string_body member rest offset
  obtain ⟨value, hvalue⟩ := colon_before member.afterKey
    (member.beforeValue.text ++ (member.value ++ (member.afterValue.text ++ rest))) key
  obtain ⟨place, hplace⟩ := skipValue_before member.isValue (hrest.delimited member.afterValue)
    member.beforeValue value
  use place
  rw [Settings.member, hkey]
  simp only [encode_name_eq_iff, if_neg hname, hvalue, hplace]

/-- The first member with the known name gives the text that its value spells. -/
theorem member_known (hname : member.name = knownName) {text : List Char}
    (htext : Quotes text member.value) :
  ∃ place, Settings.member none (before (member.body ++ rest) offset)
    = .ok (some (Utf8.encode text), before (member.afterValue.text ++ rest) place)
  := by
  obtain ⟨key, hkey⟩ := string_body member rest offset
  obtain ⟨value, hvalue⟩ := colon_before member.afterKey
    (member.beforeValue.text ++ (member.value ++ (member.afterValue.text ++ rest))) key
  obtain ⟨place, hplace⟩ := path_of_quotes htext member.beforeValue (member.afterValue.text ++ rest)
    value
  use place
  rw [Settings.member, hkey]
  simp only [encode_name_eq_iff, if_pos hname, hvalue, hplace]
  rfl

/-- A member with the known name is refused if it is not the first one or not a string. -/
theorem member_error (hname : member.name = knownName)
    (h : found.isSome ∨ ∀ text, ¬ Quotes text member.value) :
  ∃ mistake, Settings.member found (before (member.body ++ rest) offset) = .error mistake
  := by
  obtain ⟨key, hkey⟩ := string_body member rest offset
  rw [Settings.member, hkey]
  simp only [encode_name_eq_iff, if_pos hname]
  by_cases hfound : found.isSome
  · rw [if_pos hfound]
    exact ⟨_, rfl⟩
  · obtain ⟨value, hvalue⟩ := colon_before member.afterKey
      (member.beforeValue.text ++ (member.value ++ (member.afterValue.text ++ rest))) key
    obtain ⟨mistake, hmistake⟩ := path_error member.isValue (h.resolve_left hfound)
      member.beforeValue (member.afterValue.text ++ rest) value
    use mistake
    simp only [if_neg hfound, hvalue, hmistake]

end Member

/-! ### All members -/

theorem continuation_member (isFirst : Bool) (blanks : Blanks) (member : Member) (rest : List Char)
    (offset : Nat) :
  ∃ place, continuation isFirst (before (blanks.text
      ++ ((if isFirst then [] else [',']) ++ (member.text ++ rest))) offset)
    = .ok (.key (before (member.body ++ rest) place))
  := by
  have hquote : IsVisible '"' := by decide
  have hcomma : IsVisible ',' := by decide
  simp only [member.text_eq, List.append_assoc, List.cons_append]
  cases isFirst with
  | true =>
      obtain ⟨place, hplace⟩ := hquote.skipBlanks_before (blanks.append member.beforeKey)
        (member.body ++ rest) offset
      rw [Blanks.append, List.append_assoc] at hplace
      use place + 1
      rw [if_pos rfl, List.nil_append, continuation, hplace]
      rfl
  | false =>
      obtain ⟨comma, hcomma⟩ := hcomma.skipBlanks_before blanks
        (member.beforeKey.text ++ '"' :: (member.body ++ rest)) offset
      obtain ⟨place, hplace⟩ := hquote.skipBlanks_before member.beforeKey (member.body ++ rest)
        (comma + 1)
      use place + 1
      rw [if_neg Bool.false_ne_true, List.singleton_append, continuation, hcomma]
      change keyAfterComma (before _ (comma + 1)) = _
      rw [keyAfterComma, hplace]
      rfl

theorem continuation_closed (isFirst : Bool) (blanks : Blanks) (rest : List Char) (offset : Nat) :
  ∃ place, continuation isFirst (before (blanks.text ++ '}' :: rest) offset)
    = .ok (.closed (before rest place))
  := by
  have hcloses : IsVisible '}' := by decide
  obtain ⟨place, hplace⟩ := hcloses.skipBlanks_before blanks rest offset
  use place + 1
  rw [continuation, hplace]
  rfl

theorem ends_separated (members : List Member) (rest : List Char) :
  Ends (separated false members ++ '}' :: rest)
  := by
  cases members with
  | nil => exact ⟨'}', by decide, rest, rfl⟩
  | cons member members => exact ⟨',', by decide, _, rfl⟩

theorem ofObject_closed {found : Option Path} {isFirst : Bool} {cursor next : Cursor}
    (h : continuation isFirst cursor = .ok (.closed next)) :
  ofObject found isFirst cursor = .ok (found, next)
  := by
  rw [ofObject]
  split
  · next heq =>
    rw [h] at heq
    cases heq
  · next heq =>
    rw [h] at heq
    cases heq
    rfl
  · next heq =>
    rw [h] at heq
    cases heq

theorem ofObject_key {found : Option Path} {isFirst : Bool} {cursor next : Cursor}
    (h : continuation isFirst cursor = .ok (.key next)) :
  ofObject found isFirst cursor
    = (member found next).bind fun read => ofObject read.1 false read.2
  := by
  rw [ofObject]
  split
  · next heq =>
    rw [h] at heq
    cases heq
  · next heq =>
    rw [h] at heq
    cases heq
  · next heq =>
    rw [h] at heq
    cases heq
    split
    · next hmember =>
      rw [hmember]
      rfl
    · next hmember =>
      rw [hmember]
      rfl

/-- The settings in the members of an object, as they are read after blanks. -/
def ofMembers (found : Option Path) (isFirst : Bool) (blanks : Blanks) (members : List Member)
    (rest : List Char) (offset : Nat) : Except Mistake (Option Path × Cursor) :=
  ofObject found isFirst
    (before (blanks.text ++ (separated isFirst members ++ '}' :: rest)) offset)

section Members

variable (found : Option Path) (isFirst : Bool) (blanks : Blanks) (rest : List Char) (offset : Nat)

theorem ofMembers_nil :
  ∃ place, ofMembers found isFirst blanks [] rest offset = .ok (found, before rest place)
  := by
  obtain ⟨place, hplace⟩ := continuation_closed isFirst blanks rest offset
  use place
  rw [ofMembers, separated, List.nil_append, ofObject_closed hplace]

theorem ofMembers_cons (member : Member) (members : List Member) :
  ∃ place, ofMembers found isFirst blanks (member :: members) rest offset
    = (Settings.member found
        (before (member.body ++ (separated false members ++ '}' :: rest)) place)).bind
      fun read => ofObject read.1 false read.2
  := by
  obtain ⟨place, hplace⟩ := continuation_member isFirst blanks member
    (separated false members ++ '}' :: rest) offset
  use place
  rw [ofMembers, separated, List.append_assoc, List.append_assoc, ofObject_key hplace]

variable {member : Member} (members : List Member)

theorem ofMembers_other (hname : member.name ≠ knownName) :
  ∃ place, ofMembers found isFirst blanks (member :: members) rest offset
    = ofMembers found false member.afterValue members rest place
  := by
  obtain ⟨start, hstart⟩ := ofMembers_cons found isFirst blanks rest offset member members
  obtain ⟨place, hplace⟩ := member_other member found start hname (ends_separated members rest)
  use place
  rw [hstart, hplace]
  rfl

theorem ofMembers_known (hname : member.name = knownName) {text : List Char}
    (htext : Quotes text member.value) :
  ∃ place, ofMembers none isFirst blanks (member :: members) rest offset
    = ofMembers (some (Utf8.encode text)) false member.afterValue members rest place
  := by
  obtain ⟨start, hstart⟩ := ofMembers_cons none isFirst blanks rest offset member members
  obtain ⟨place, hplace⟩ := member_known member start hname htext
  use place
  rw [hstart, hplace]
  rfl

theorem ofMembers_error (hname : member.name = knownName)
    (h : found.isSome ∨ ∀ text, ¬ Quotes text member.value) :
  ∃ mistake, ofMembers found isFirst blanks (member :: members) rest offset = .error mistake
  := by
  obtain ⟨start, hstart⟩ := ofMembers_cons found isFirst blanks rest offset member members
  obtain ⟨mistake, hmistake⟩ := member_error member found start hname h
  use mistake
  rw [hstart, hmistake]
  rfl

variable {members}

/-- Without a member of the known name nothing more is found. -/
theorem ofMembers_of_forall_ne (h : ∀ member ∈ members, member.name ≠ knownName) :
  ∃ place, ofMembers found isFirst blanks members rest offset = .ok (found, before rest place)
  := by
  induction members generalizing isFirst blanks offset with
  | nil => apply ofMembers_nil
  | cons member members ih =>
      obtain ⟨hname, hmembers⟩ := List.forall_mem_cons.mp h
      obtain ⟨start, hstart⟩ := ofMembers_other found isFirst blanks rest offset members hname
      rw [hstart]
      apply ih _ _ _ hmembers

/-- The text of the only member of the known name is found. -/
theorem ofMembers_of_filter_eq {known : Member}
    (h : members.filter (·.name = knownName) = [known]) {text : List Char}
    (htext : Quotes text known.value) :
  ∃ place, ofMembers none isFirst blanks members rest offset
    = .ok (some (Utf8.encode text), before rest place)
  := by
  induction members generalizing isFirst blanks offset with
  | nil => cases h
  | cons member members ih =>
      by_cases hname : member.name = knownName
      · rw [List.filter_cons_of_pos (by simpa using hname), List.cons.injEq] at h
        obtain ⟨rfl, hmembers⟩ := h
        obtain ⟨start, hstart⟩ := ofMembers_known isFirst blanks rest offset members hname htext
        rw [hstart]
        apply ofMembers_of_forall_ne
        simpa using List.filter_eq_nil_iff.mp hmembers
      · rw [List.filter_cons_of_neg (by simpa using hname)] at h
        obtain ⟨start, hstart⟩ := ofMembers_other none isFirst blanks rest offset members hname
        rw [hstart]
        apply ih _ _ _ h

/-- A member of the known name is refused after another one. -/
theorem ofMembers_error_of_isSome (hfound : found.isSome)
    (h : ∃ member ∈ members, member.name = knownName) :
  ∃ mistake, ofMembers found isFirst blanks members rest offset = .error mistake
  := by
  induction members generalizing isFirst blanks offset with
  | nil =>
      obtain ⟨_, hmember, -⟩ := h
      cases hmember
  | cons member members ih =>
      by_cases hname : member.name = knownName
      · apply ofMembers_error found isFirst blanks rest offset members hname (.inl hfound)
      · obtain ⟨start, hstart⟩ := ofMembers_other found isFirst blanks rest offset members hname
        rw [hstart]
        apply ih
        obtain ⟨known, hknown, hknownName⟩ := h
        rcases List.mem_cons.mp hknown with rfl | hknown
        · cases hname hknownName
        · exact ⟨known, hknown, hknownName⟩

/-- Members of the known name are refused if there are several or if one of them is no string. -/
theorem ofMembers_error_of_filter
    (h : 2 ≤ (members.filter (·.name = knownName)).length
      ∨ ∃ known ∈ members.filter (·.name = knownName), ∀ text, ¬ Quotes text known.value) :
  ∃ mistake, ofMembers none isFirst blanks members rest offset = .error mistake
  := by
  induction members generalizing isFirst blanks offset with
  | nil => simp at h
  | cons member members ih =>
      by_cases hname : member.name = knownName
      · rw [List.filter_cons_of_pos (by simpa using hname)] at h
        by_cases hvalue : ∃ text, Quotes text member.value
        · obtain ⟨text, htext⟩ := hvalue
          obtain ⟨start, hstart⟩ := ofMembers_known isFirst blanks rest offset members hname htext
          rw [hstart]
          apply ofMembers_error_of_isSome _ _ _ _ _ rfl
          -- Whichever is wrong, another member of the known name follows.
          have hne : members.filter (·.name = knownName) ≠ [] := by
            rcases h with hlength | ⟨known, hknown, hvalue⟩
            · rw [← List.length_pos_iff]
              exact Nat.le_of_succ_le_succ hlength
            · rcases List.mem_cons.mp hknown with rfl | hknown
              · cases hvalue text htext
              · exact List.ne_nil_of_mem hknown
          obtain ⟨known, hknown⟩ := List.exists_mem_of_ne_nil _ hne
          obtain ⟨hmem, hknownName⟩ := List.mem_filter.mp hknown
          exact ⟨known, hmem, of_decide_eq_true hknownName⟩
        · apply ofMembers_error none isFirst blanks rest offset members hname
            (.inr (not_exists.mp hvalue))
      · rw [List.filter_cons_of_neg (by simpa using hname)] at h
        obtain ⟨start, hstart⟩ := ofMembers_other none isFirst blanks rest offset members hname
        rw [hstart]
        apply ih _ _ _ h

end Members

/-! ### Whole files -/

theorem ofStart_object (object : Object) :
  ∃ start, ofStart ⟨Utf8.encode object.text, 0⟩
    = ofMembers none true object.inner object.members object.after.text start
  := by
  have hopens : IsVisible '{' := by decide
  have htext : object.text = object.before.text ++ '{' :: (object.inner.text
      ++ (separated true object.members ++ '}' :: object.after.text)) := by
    simp [Object.text, separated_true]
  obtain ⟨start, hstart⟩ := hopens.skipBlanks_before object.before (object.inner.text
    ++ (separated true object.members ++ '}' :: object.after.text)) 0
  use start + 1
  rw [htext, ofStart]
  rw [before] at hstart
  rw [hstart]
  rfl

/-- What is found in an object is the path, and without it the default stays. -/
theorem parse_object {object : Object} {found : Option Path}
    (h : ∀ start, ∃ place, ofMembers none true object.inner object.members object.after.text start
      = .ok (found, before object.after.text place)) :
  parse (Utf8.encode object.text) = .ok (found.elim {} Settings.mk)
  := by
  obtain ⟨start, hstart⟩ := ofStart_object object
  obtain ⟨place, hplace⟩ := h start
  obtain ⟨last, hlast⟩ : ∃ last, (before object.after.text place).skipBlanks = before [] last := by
    rw [← List.append_nil object.after.text]
    apply Cursor.skipBlanks_before
    intro c hc
    cases hc
  have hread : read (Utf8.encode object.text) = .ok (found.elim {} Settings.mk) := by
    rw [read, hstart, hplace]
    simp only [bind, Except.bind, hlast]
    cases found <;> rfl
  rw [parse, hread]
  rfl

/-- A mistake in the members of an object is a fault of the file. -/
theorem parse_object_error {object : Object}
    (h : ∀ start, ∃ mistake, ofMembers none true object.inner object.members object.after.text start
      = .error mistake) :
  ∃ fault, parse (Utf8.encode object.text) = .error fault
  := by
  obtain ⟨start, hstart⟩ := ofStart_object object
  obtain ⟨mistake, hmistake⟩ := h start
  use mistake.locate (Utf8.encode object.text)
  rw [parse, read, hstart, hmistake]
  rfl

end Proctor.Settings

namespace Proctor.Configuration

open Json

theorem settingsOfFile_of_read {files : FileSystem} {path : Path} {text : List Char}
    (h : files.read path = .ok (Utf8.encode text)) :
  settingsOfFile files path = (Settings.parse (Utf8.encode text)).mapError fun fault =>
    .config (.settingsMalformed path fault)
  := by
  rw [settingsOfFile, FileSystem.readText, h]
  simp only [Utf8.decode?_eq, Utf8.isValid_encode, if_true, Utf8.lossy_encode]

/-- A settings file with an object gives the text that its member `verifier_path` spells, wherever
the member stands and whatever the other members are. Without the member it gives the default. The
file is refused if the member occurs more than once, or with a value that spells no text. Every text
can be spelled. -/
theorem settingsOfFile_object {files : FileSystem} {path : Path} {object : Object}
    (hread : files.read path = .ok (Utf8.encode object.text)) :
  (∀ known text, object.named "verifier_path".toList = [known] → Quotes text known.value →
      settingsOfFile files path = .ok ⟨Utf8.encode text⟩)
    ∧ (object.named "verifier_path".toList = [] →
      settingsOfFile files path = .ok ⟨Bytes.ofString "./esbmc"⟩)
    ∧ (2 ≤ (object.named "verifier_path".toList).length →
      ∃ fault, settingsOfFile files path = .error (.config (.settingsMalformed path fault)))
    ∧ (∀ known ∈ object.named "verifier_path".toList, (∀ text, ¬ Quotes text known.value) →
      ∃ fault, settingsOfFile files path = .error (.config (.settingsMalformed path fault)))
    ∧ ∀ text, IsValue (encoding text) ∧ Quotes text (encoding text)
  := by
  have hnamed : object.named "verifier_path".toList
      = object.members.filter (·.name = Settings.knownName) := rfl
  have herror : (2 ≤ (object.members.filter (·.name = Settings.knownName)).length
      ∨ ∃ known ∈ object.members.filter (·.name = Settings.knownName),
        ∀ text, ¬ Quotes text known.value) →
      ∃ fault, settingsOfFile files path = .error (.config (.settingsMalformed path fault)) := by
    intro h
    obtain ⟨fault, hfault⟩ := Settings.parse_object_error fun start =>
      Settings.ofMembers_error_of_filter true object.inner object.after.text start h
    use fault
    rw [settingsOfFile_of_read hread, hfault]
    rfl
  rw [hnamed]
  refine ⟨?_, ?_, fun hlength => herror (.inl hlength),
    fun known hknown hvalue => herror (.inr ⟨known, hknown, hvalue⟩), ?_⟩
  · intro known text hknown htext
    rw [settingsOfFile_of_read hread, Settings.parse_object fun start =>
      Settings.ofMembers_of_filter_eq true object.inner object.after.text start hknown htext]
    rfl
  · intro hknown
    have hnone : ∀ member ∈ object.members, member.name ≠ Settings.knownName := by
      simpa using List.filter_eq_nil_iff.mp hknown
    rw [settingsOfFile_of_read hread, Settings.parse_object fun start =>
      Settings.ofMembers_of_forall_ne none true object.inner object.after.text start hnone]
    rfl
  · intro text
    exact ⟨(quotes_encoding text).isValue, quotes_encoding text⟩

namespace Sample

theorem spells_name :
  Spells "verifier_path".toList "\\u0076erifier_path".toList
  := by
  have hletter : Spelling 'v' "\\u0076".toList := .numbered ⟨by decide, by decide⟩
  apply Spells.cons hletter (spells_flatMap "erifier_path".toList)

theorem quotes_value :
  Quotes "😀/\"é".toList "\"\\uD83D\\ude00\\/\\\"\\u00e9\"".toList
  := by
  have hlead : Denotes "D83D".toList (leadSurrogate '😀') := ⟨by decide, by decide⟩
  have htrail : Denotes "de00".toList (trailSurrogate '😀') := ⟨by decide, by decide⟩
  have hslash : Spelling '/' "\\/".toList := .short (by decide)
  have hquote : Spelling '"' "\\\"".toList := .short (by decide)
  have hletter : Spelling 'é' "\\u00e9".toList := .numbered ⟨by decide, by decide⟩
  have hrest := Spells.cons hslash (.cons hquote (.cons hletter .nil))
  exact ⟨_, .cons (.pair (by decide) hlead htrail) hrest, rfl⟩

/-- A blank. -/
def blank : Blanks where
  text := [' ']
  isBlank := by simp

theorem isValue_number :
  IsValue "-2.5e+3".toList
  := by
  have hexponent : IsExponent ('e' :: ['+'] ++ ['3']) :=
    .present (by decide) (by decide) (by decide)
  have hnumber : IsNumber (['-'] ++ ['2'] ++ ('.' :: ['5']) ++ ('e' :: ['+'] ++ ['3'])) :=
    .parts (by decide) (by decide) (by decide) (.present (by decide)) hexponent
  exact .number hnumber

theorem isValue_nested :
  IsValue "[ \x7b\"verifier_path\" : -2.5e+3\x7d, [ ],\"\\ud800\"]".toList
  := by
  have hobject : IsValue "\x7b\"verifier_path\" : -2.5e+3\x7d".toList :=
    .filled (.last (.member .none blank blank .none
      (spells_flatMap "verifier_path".toList).isContents isValue_number))
  have hempty : IsValue "[ ]".toList := .empty .list blank
  have hhalf : Denotes "d800".toList 0xD800 := ⟨by decide, by decide⟩
  have hstring : IsValue "\"\\ud800\"".toList := .string (.numbered hhalf .nil)
  exact .filled (.more (.element blank .none hobject) (.more (.element blank .none hempty)
    (.last (.element .none .none hstring))))

/-- A member with another name, in whose value the known name occurs. -/
def other : Member where
  name := "verifier".toList
  spelling := "verifier".toList
  value := "[ \x7b\"verifier_path\" : -2.5e+3\x7d, [ ],\"\\ud800\"]".toList
  beforeKey := blank
  spells := spells_flatMap "verifier".toList
  isValue := isValue_nested

/-- A member with the known name and a string. -/
def known : Member where
  name := "verifier_path".toList
  spelling := "\\u0076erifier_path".toList
  value := "\"\\uD83D\\ude00\\/\\\"\\u00e9\"".toList
  afterKey := blank
  beforeValue := blank
  spells := spells_name
  isValue := quotes_value.isValue

/-- A member with the known name and a number. -/
def number : Member where
  name := "verifier_path".toList
  spelling := "verifier_path".toList
  value := "-2.5e+3".toList
  spells := spells_flatMap "verifier_path".toList
  isValue := isValue_number

/-- A file system with a file that holds an object. -/
def filesWith (object : Object) : FileSystem :=
  (FileSystem.empty []).put (Location.root.enter (Bytes.ofString "settings.json"))
    (.file (.data (Utf8.encode object.text)) false)

/-- The path of that file. -/
def path : Path :=
  Bytes.ofString "settings.json"

end Sample

open Sample in
/-- The path is found between members with other names. It is refused after a number or another
path. -/
theorem settingsOfFile_object_nested :
  settingsOfFile (filesWith ⟨[other, known, other], blank, .none, blank⟩) path
      = .ok ⟨Utf8.encode "😀/\"é".toList⟩
    ∧ settingsOfFile (filesWith ⟨[other, other], blank, .none, blank⟩) path
      = .ok ⟨Bytes.ofString "./esbmc"⟩
    ∧ (∃ fault, settingsOfFile (filesWith ⟨[known, other, known], blank, .none, blank⟩) path
      = .error (.config (.settingsMalformed path fault)))
    ∧ ∃ fault, settingsOfFile (filesWith ⟨[other, number], blank, .none, blank⟩) path
      = .error (.config (.settingsMalformed path fault))
  := by
  have hread (object : Object) : (filesWith object).read path = .ok (Utf8.encode object.text) := rfl
  refine ⟨?_, ?_, ?_, ?_⟩
  · exact (settingsOfFile_object (hread _)).1 known _ rfl quotes_value
  · exact (settingsOfFile_object (hread _)).2.1 rfl
  · exact (settingsOfFile_object (hread _)).2.2.1 (by decide)
  · have hnamed : Object.named ⟨[other, number], blank, .none, blank⟩ "verifier_path".toList
        = [number] := rfl
    apply (settingsOfFile_object (hread _)).2.2.2.1 number (hnamed ▸ List.mem_singleton_self _)
    rintro text ⟨contents, -, hcontents⟩
    have hhead : number.value.head? = some '"' := congrArg List.head? hcontents
    exact absurd hhead (by decide)

end Proctor.Configuration
