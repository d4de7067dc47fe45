/-!
# Dates and moments

Dates of the Gregorian calendar from year 1 to year 9999, and times of day on them with
microseconds, which may carry an offset from universal time. A date is made from three numbers only
if there is such a day; of several faults the first in the order year, month, day, hour, minute,
second counts.
-/

namespace LineSpec

/-- Whether a year has a 29 February. -/
def isLeapYear (y : Nat) : Bool := y % 4 == 0 && (y % 100 != 0 || y % 400 == 0)

/-- The number of days of a month. -/
def daysInMonth (y m : Nat) : Nat :=
  if m == 2 then (if isLeapYear y then 29 else 28)
  else if m == 4 || m == 6 || m == 9 || m == 11 then 30
  else 31

/-- The number of days of the years from 1 to `y`. -/
def daysOfYears (y : Nat) : Nat := 365 * y + y / 4 - y / 100 + y / 400

/-- A day of the calendar. -/
structure Date where
  year : Nat
  month : Nat
  day : Nat
  deriving DecidableEq, Repr

/-- The number of days from 31 December of year 0 to a date. -/
def Date.ordinal (d : Date) : Nat :=
  daysOfYears (d.year - 1) +
    ((List.range (d.month - 1)).map fun m => daysInMonth d.year (m + 1)).foldr (· + ·) 0 + d.day

/-- A time of day on a date, with the minutes by which its clock is ahead of universal time, if that
is known. -/
structure Moment where
  date : Date
  hour : Nat
  minute : Nat
  second : Nat
  microsecond : Nat
  offset : Option Int
  deriving DecidableEq, Repr

/-- The microseconds from the beginning of the calendar to a moment, on its own clock. -/
def Moment.clock (m : Moment) : Int :=
  (((m.date.ordinal * 24 + m.hour) * 60 + m.minute) * 60 + m.second) * 1000000 + m.microsecond

/-- Whether two moments are one instant. Without offsets the clocks are compared; a moment with an
offset is never one without. -/
def Moment.sameInstant (a b : Moment) : Bool :=
  match a.offset, b.offset with
  | none, none => a.clock == b.clock
  | some o, some p => a.clock - o * 60000000 == b.clock - p * 60000000
  | _, _ => false

/-! ## Making dates -/

/-- Why there is no such date or time. -/
inductive CalendarError where
  | year (y : Nat)
  | month
  | day
  | hour
  | minute
  | second
  /-- An offset of a day and more. -/
  | offset (minutes : Int)
  deriving DecidableEq, Repr

/-- The number of minutes of a day. -/
def minutesPerDay : Int := 1440

/-- A number of minutes as days and as seconds of a day, a part left out when it is zero. -/
def spanText (minutes : Int) : String :=
  let days := minutes.fdiv minutesPerDay
  let seconds := minutes.fmod minutesPerDay * 60
  let parts :=
    (if days == 0 then [] else [s!"days={days}"]) ++
      (if seconds == 0 then [] else [s!"seconds={seconds}"])
  "datetime.timedelta(" ++ (if parts.isEmpty then "0" else ", ".intercalate parts) ++ ")"

/-- The error in words. -/
def CalendarError.message : CalendarError → String
  | .year y => s!"year {y} is out of range"
  | .month => "month must be in 1..12"
  | .day => "day is out of range for month"
  | .hour => "hour must be in 0..23"
  | .minute => "minute must be in 0..59"
  | .second => "second must be in 0..59"
  | .offset minutes =>
    "offset must be a timedelta strictly between -timedelta(hours=24) and timedelta(hours=24), " ++
      s!"not {spanText minutes}."

/-- The date with the given numbers. -/
def Date.of? (year month day : Nat) : Except CalendarError Date :=
  if year < 1 || 9999 < year then .error (.year year)
  else if month < 1 || 12 < month then .error .month
  else if day < 1 || daysInMonth year month < day then .error .day
  else .ok ⟨year, month, day⟩

/-- The offset with a number of minutes. -/
def checkOffset (minutes : Int) : Except CalendarError Int :=
  if minutes ≤ -minutesPerDay || minutesPerDay ≤ minutes then .error (.offset minutes)
  else .ok minutes

/-- The moment on a date with the given time of day. -/
def Moment.of? (date : Date) (hour minute second microsecond : Nat) (offset : Option Int) :
    Except CalendarError Moment :=
  if 23 < hour then .error .hour
  else if 59 < minute then .error .minute
  else if 59 < second then .error .second
  else .ok ⟨date, hour, minute, second, microsecond, offset⟩

/-! ## Texts -/

/-- `n` with at least `width` digits. -/
def zeroPadded (width n : Nat) : String :=
  let digits := toString n
  String.ofList (List.replicate (width - digits.length) '0') ++ digits

/-- A date in numbers, from the year to the day. -/
def Date.text (d : Date) : String :=
  s!"{zeroPadded 4 d.year}-{zeroPadded 2 d.month}-{zeroPadded 2 d.day}"

/-- An offset as hours and minutes. -/
def offsetText (minutes : Int) : String :=
  let n := minutes.natAbs
  (if minutes < 0 then "-" else "+") ++ s!"{zeroPadded 2 (n / 60)}:{zeroPadded 2 (n % 60)}"

/-- A moment in numbers, from the year to the offset. -/
def Moment.text (m : Moment) : String :=
  let fraction := if m.microsecond == 0 then "" else s!".{zeroPadded 6 m.microsecond}"
  s!"{m.date.text} {zeroPadded 2 m.hour}:{zeroPadded 2 m.minute}:{zeroPadded 2 m.second}" ++
    fraction ++ (m.offset.map offsetText).getD ""

end LineSpec
