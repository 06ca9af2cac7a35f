/-!
# Dates and moments

A date of the calendar and a moment of a day, with the offset of its clock in
minutes if it is known.  A value is built only from fields in range; which
field is out of range first decides the error.
-/

namespace ShaderLift

/-- A day. -/
structure Date where
  year : Nat
  month : Nat
  day : Nat
deriving Repr, DecidableEq

/-- A moment of a day. -/
structure Moment where
  date : Date
  hour : Nat
  minute : Nat
  second : Nat
  microsecond : Nat
  /-- How many minutes the clock is ahead of universal time. -/
  offset : Option Int
deriving Repr, DecidableEq

/-- The field of a date or a moment that is out of range. -/
inductive CalendarError
  | year (number : Nat)
  | month
  | day
  | hour
  | minute
  | second
  | offset (minutes : Int)
deriving Repr, DecidableEq

/-- A number with zeros in front, at least `width` digits long. -/
def paddedNumber (width number : Nat) : String :=
  let digits := Nat.toDigits 10 number
  String.ofList (List.replicate (width - digits.length) '0' ++ digits)

/-- A length of time in minutes, in days and seconds. -/
def durationText (minutes : Int) : String :=
  let days := minutes.fdiv 1440
  let seconds := minutes.fmod 1440 * 60
  if days = 0 && seconds = 0 then "datetime.timedelta(0)"
  else if seconds = 0 then s!"datetime.timedelta(days={days})"
  else if days = 0 then s!"datetime.timedelta(seconds={seconds})"
  else s!"datetime.timedelta(days={days}, seconds={seconds})"

/-- The wording of an error. -/
def CalendarError.message : CalendarError → String
  | .year number => s!"year {number} is out of range"
  | .month => "month must be in 1..12"
  | .day => "day is out of range for month"
  | .hour => "hour must be in 0..23"
  | .minute => "minute must be in 0..59"
  | .second => "second must be in 0..59"
  | .offset minutes =>
      "offset must be a timedelta strictly between -timedelta(hours=24) and " ++
        s!"timedelta(hours=24), not {durationText minutes}."

namespace Date

/-- February has a day more in this year. -/
def isLeapYear (year : Nat) : Bool :=
  year % 4 == 0 && (year % 100 != 0 || year % 400 == 0)

/-- The number of days of a month. -/
def daysIn (year month : Nat) : Nat :=
  if month = 2 then if isLeapYear year then 29 else 28
  else if month = 4 || month = 6 || month = 9 || month = 11 then 30
  else 31

/-- A date with fields in range. -/
def make (year month day : Nat) : Except CalendarError Date :=
  if year < 1 || 9999 < year then .error (.year year)
  else if month < 1 || 12 < month then .error .month
  else if day < 1 || daysIn year month < day then .error .day
  else .ok ⟨year, month, day⟩

/-- Year, month and day with hyphens between them. -/
def text (date : Date) : String :=
  s!"{paddedNumber 4 date.year}-{paddedNumber 2 date.month}-{paddedNumber 2 date.day}"

end Date

namespace Moment

/-- A moment with fields in range.  The offset is checked first. -/
def make
    (year month day hour minute second microsecond : Nat)
    (offset : Option Int) : Except CalendarError Moment := do
  if let some minutes := offset then
    if minutes ≤ -1440 || 1440 ≤ minutes then throw (.offset minutes)
  let date ← Date.make year month day
  if 23 < hour then throw .hour
  if 59 < minute then throw .minute
  if 59 < second then throw .second
  pure ⟨date, hour, minute, second, microsecond, offset⟩

/-- The offset of a clock with its sign. -/
def offsetText (minutes : Int) : String :=
  let sign := if minutes < 0 then "-" else "+"
  let magnitude := minutes.natAbs
  s!"{sign}{paddedNumber 2 (magnitude / 60)}:{paddedNumber 2 (magnitude % 60)}"

/-- Date and time with a separator between them.  The fraction is written if
it is not zero, the offset if it is known. -/
def text (separator : String) (moment : Moment) : String :=
  let time :=
    s!"{paddedNumber 2 moment.hour}:{paddedNumber 2 moment.minute}:" ++
      paddedNumber 2 moment.second
  let fraction :=
    if moment.microsecond = 0 then ""
    else s!".{paddedNumber 6 moment.microsecond}"
  let offset := (moment.offset.map offsetText).getD ""
  moment.date.text ++ separator ++ time ++ fraction ++ offset

end Moment
end ShaderLift
