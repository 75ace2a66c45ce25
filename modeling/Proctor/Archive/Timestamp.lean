/-!
# Times in archives

An archive gives the time of the last modification of a member in two numbers of sixteen bits, for
years from 1980 on and to two seconds. Numbers that belong to no day of the calendar give no time.
-/

namespace Proctor.Archive

/-- A date and a time of day. -/
structure Timestamp where
  year : Nat
  month : Nat
  day : Nat
  hour : Nat
  minute : Nat
  second : Nat
  deriving DecidableEq, Repr

namespace Timestamp

/-- The first time that an archive can give. -/
def first : Timestamp := ⟨1980, 1, 1, 0, 0, 0⟩

/-- The number for the date: year since 1980, month and day. -/
def date (t : Timestamp) : Nat :=
  (t.year - 1980) * 512 + t.month * 32 + t.day

/-- The number for the time of day: hour, minute and half the second. -/
def time (t : Timestamp) : Nat :=
  t.hour * 2048 + t.minute * 32 + t.second / 2

/-- Whether a year has a day more than others. -/
def isLeapYear (year : Nat) : Bool :=
  year % 4 = 0 && (year % 100 ≠ 0 || year % 400 = 0)

/-- The number of days in a month. -/
def daysInMonth (year month : Nat) : Nat :=
  if month = 2 then if isLeapYear year then 29 else 28
  else if month = 4 || month = 6 || month = 9 || month = 11 then 30
  else 31

/-- The greatest second that an archive can give apart from leap seconds. -/
def lastSecond : Nat := 58

/-- The time that an archive gives in the numbers for the date and the time of day, if the calendar
has it. A leap second counts as the last one before it. -/
def ofFields? (date time : Nat) : Option Timestamp :=
  let year := 1980 + date / 512
  let month := date / 32 % 16
  let day := date % 32
  let hour := time / 2048
  let minute := time / 32 % 64
  let second := 2 * (time % 32)
  if 1 ≤ month && month ≤ 12 && 1 ≤ day && day ≤ daysInMonth year month &&
      hour ≤ 23 && minute ≤ 59 && second ≤ 60 then
    some ⟨year, month, day, hour, minute, min second lastSecond⟩
  else none

/-- A number below a hundred in two digits. -/
def twoDigits (n : Nat) : String :=
  if n < 10 then s!"0{n}" else toString n

/-- The text of a time. -/
def text (t : Timestamp) : String :=
  s!"{t.year}-{twoDigits t.month}-{twoDigits t.day} " ++
    s!"{twoDigits t.hour}:{twoDigits t.minute}:{twoDigits t.second}"

end Timestamp

end Proctor.Archive
