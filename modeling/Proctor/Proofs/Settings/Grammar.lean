import Proctor.Proofs.Text.Numeral
import Proctor.Settings.Skip

/-!
# JSON texts

The texts that a settings file may have, said without a reader. A string is a text of characters,
each of which can be spelled in several ways. A value is a literal, a number, a string, or a list or
an object of any depth, with blanks between its tokens. Of values it is only said which texts they
are, and what they stand for is said of strings alone, since nothing else in a settings file
matters.

The outermost object is kept with its members, and a member with its name, with the way in which the
name is spelled, and with the text of its value.
-/

namespace Proctor

/-- The character that opens a bracket. -/
def Settings.Bracket.opens : Settings.Bracket → Char
  | list => '['
  | object => '{'

/-- The character that closes a bracket. -/
def Settings.Bracket.closes : Settings.Bracket → Char
  | list => ']'
  | object => '}'

namespace Json

/-! ### Blanks -/

/-- A text of the characters that may stand between tokens. -/
structure Blanks where
  text : List Char
  isBlank : ∀ c ∈ text, c ∈ [' ', '\t', '\n', '\r']

/-- No blanks. -/
def Blanks.none : Blanks where
  text := []
  isBlank := List.forall_mem_nil _

/-- Blanks after blanks. -/
def Blanks.append (first second : Blanks) : Blanks where
  text := first.text ++ second.text
  isBlank := List.forall_mem_append.mpr ⟨first.isBlank, second.isBlank⟩

/-! ### Strings -/

/-- The letters that stand, after a backslash, for a character. -/
def shortForms : List (Char × Char) :=
  [('"', '"'), ('\\', '\\'), ('/', '/'), ('b', '\x08'), ('f', '\x0C'), ('n', '\n'), ('r', '\r'),
    ('t', '\t')]

/-- A character that may stand for itself. -/
def IsPlain (c : Char) : Prop :=
  0x20 ≤ c.toNat ∧ c ≠ '"' ∧ c ≠ '\\'

instance : DecidablePred IsPlain :=
  fun c => inferInstanceAs (Decidable (0x20 ≤ c.toNat ∧ c ≠ '"' ∧ c ≠ '\\'))

/-- The four digits of a number to the base 16. -/
def hexDigits (n : Nat) : List Char :=
  [n / 0x1000 % 0x10, n / 0x100 % 0x10, n / 0x10 % 0x10, n % 0x10].map Nat.digitChar

/-- Four digits to the base 16, with small or capital letters, denote a number. -/
def Denotes (digits : List Char) (n : Nat) : Prop :=
  n < 0x10000 ∧ digits.map Char.toLower = hexDigits n

/-- The first of the two surrogates for a character beyond four digits. -/
def leadSurrogate (c : Char) : Nat :=
  0xD800 + (c.toNat - 0x10000) / 0x400

/-- The second of the two surrogates for a character beyond four digits. -/
def trailSurrogate (c : Char) : Nat :=
  0xDC00 + (c.toNat - 0x10000) % 0x400

/-- The ways in which a character is spelled in a string. -/
inductive Spelling : Char → List Char → Prop
  | plain {c : Char} (h : IsPlain c) : Spelling c [c]
  | short {letter c : Char} (h : (letter, c) ∈ shortForms) : Spelling c ['\\', letter]
  | numbered {c : Char} {digits : List Char} (h : Denotes digits c.toNat) :
      Spelling c ('\\' :: 'u' :: digits)
  | pair {c : Char} {lead trail : List Char} (h : 0x10000 ≤ c.toNat)
      (hlead : Denotes lead (leadSurrogate c)) (htrail : Denotes trail (trailSurrogate c)) :
      Spelling c ('\\' :: 'u' :: lead ++ '\\' :: 'u' :: trail)

/-- A text is spelled, character by character, by the contents of a string. -/
inductive Spells : List Char → List Char → Prop
  | nil : Spells [] []
  | cons {c : Char} {text spelling spellings : List Char} (h : Spelling c spelling)
      (hrest : Spells text spellings) : Spells (c :: text) (spelling ++ spellings)

/-- The contents of a string. The digits of an escape may denote half of a pair without the other
half, so that not all contents spell a text. -/
inductive IsContents : List Char → Prop
  | nil : IsContents []
  | plain {c : Char} {rest : List Char} (h : IsPlain c) (hrest : IsContents rest) :
      IsContents (c :: rest)
  | short {letter c : Char} {rest : List Char} (h : (letter, c) ∈ shortForms)
      (hrest : IsContents rest) : IsContents ('\\' :: letter :: rest)
  | numbered {n : Nat} {digits rest : List Char} (h : Denotes digits n)
      (hrest : IsContents rest) : IsContents ('\\' :: 'u' :: digits ++ rest)

/-- Contents between quotes. -/
def quote (contents : List Char) : List Char :=
  '"' :: contents ++ ['"']

/-- A value is a string that spells a text. -/
def Quotes (text value : List Char) : Prop :=
  ∃ contents, Spells text contents ∧ value = quote contents

/-- The plainest spelling of a character. -/
def spell (c : Char) : List Char :=
  if c = '"' ∨ c = '\\' then ['\\', c]
  else if IsPlain c then [c]
  else '\\' :: 'u' :: hexDigits c.toNat

/-- A text as a string. -/
def encoding (text : List Char) : List Char :=
  quote (text.flatMap spell)

/-! ### Numbers -/

/-- The part of a number after its point. -/
inductive IsFraction : List Char → Prop
  | absent : IsFraction []
  | present {digits : List Char} (h : Text.IsNumeral digits) : IsFraction ('.' :: digits)

/-- The exponent of a number. -/
inductive IsExponent : List Char → Prop
  | absent : IsExponent []
  | present {letter : Char} {sign digits : List Char} (hletter : letter ∈ ['e', 'E'])
      (hsign : sign ∈ [[], ['+'], ['-']]) (h : Text.IsNumeral digits) :
      IsExponent (letter :: sign ++ digits)

/-- A number. Only zero itself begins with a zero. -/
inductive IsNumber : List Char → Prop
  | parts {minus whole fraction exponent : List Char} (hminus : minus ∈ [[], ['-']])
      (hwhole : Text.IsNumeral whole) (hzero : whole.head? = some '0' → whole = ['0'])
      (hfraction : IsFraction fraction) (hexponent : IsExponent exponent) :
      IsNumber (minus ++ whole ++ fraction ++ exponent)

/-! ### Values -/

/-- The parts that a value consists of: values, what stands between two commas in a bracket, and
what stands in a bracket as a whole. -/
inductive Part where
  | value
  | item (bracket : Settings.Bracket)
  | items (bracket : Settings.Bracket)

/-- The texts of values and of their parts. -/
inductive Is : Part → List Char → Prop
  | literal {text : String} (h : text ∈ ["null", "true", "false"]) : Is .value text.toList
  | number {text : List Char} (h : IsNumber text) : Is .value text
  | string {contents : List Char} (h : IsContents contents) : Is .value (quote contents)
  | empty (bracket : Settings.Bracket) (blanks : Blanks) :
      Is .value (bracket.opens :: blanks.text ++ [bracket.closes])
  | filled {bracket : Settings.Bracket} {text : List Char} (h : Is (.items bracket) text) :
      Is .value (bracket.opens :: text ++ [bracket.closes])
  | element (before after : Blanks) {text : List Char} (h : Is .value text) :
      Is (.item .list) (before.text ++ text ++ after.text)
  | member (before afterKey beforeValue after : Blanks) {key text : List Char}
      (hkey : IsContents key) (h : Is .value text) :
      Is (.item .object) (before.text ++ quote key ++ afterKey.text ++ ':' :: beforeValue.text
        ++ text ++ after.text)
  | last {bracket : Settings.Bracket} {text : List Char} (h : Is (.item bracket) text) :
      Is (.items bracket) text
  | more {bracket : Settings.Bracket} {text rest : List Char} (h : Is (.item bracket) text)
      (hrest : Is (.items bracket) rest) : Is (.items bracket) (text ++ ',' :: rest)

/-- The text of a value. -/
abbrev IsValue (text : List Char) : Prop :=
  Is .value text

/-! ### Objects -/

/-- A member of an object: its name, spelled in some way, and the text of its value. -/
structure Member where
  name : List Char
  spelling : List Char
  value : List Char
  beforeKey : Blanks := .none
  afterKey : Blanks := .none
  beforeValue : Blanks := .none
  afterValue : Blanks := .none
  spells : Spells name spelling
  isValue : IsValue value

/-- The text of a member. -/
def Member.text (member : Member) : List Char :=
  member.beforeKey.text ++ quote member.spelling ++ member.afterKey.text
    ++ ':' :: member.beforeValue.text ++ member.value ++ member.afterValue.text

/-- An object with its members in order, and with blanks around it. -/
structure Object where
  members : List Member
  before : Blanks := .none
  inner : Blanks := .none
  after : Blanks := .none

/-- The text of an object. -/
def Object.text (object : Object) : List Char :=
  object.before.text ++ '{' :: object.inner.text
    ++ [','].intercalate (object.members.map Member.text) ++ '}' :: object.after.text

/-- The members of an object that have a given name. -/
def Object.named (object : Object) (name : List Char) : List Member :=
  object.members.filter (·.name = name)

end Json

end Proctor
