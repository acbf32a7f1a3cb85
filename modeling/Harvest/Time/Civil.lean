/-
  Dates of the civil calendar, and times of day.

  Days are counted from the first of January 1970, months and days of the month from one. The calendar goes on in both
  directions without end; `Date.check` allows the years 1 to 9999 only.

    1. `Date.ofDays` is the date of a day.
    2. `Date.check`, `Clock.check` and `Offset.check` say what is wrong with a date, a time of day and an offset.
-/
namespace Harvest.Time

/-- What is wrong with a date or a time. -/
inductive Fault where
  | year (y : Int)
  | month
  | day
  | hour
  | minute
  | second
  /-- An offset from universal time, in minutes, of a day or more. -/
  | offset (minutes : Int)
  /-- A time that is not a number. -/
  | notNumber
  /-- A time that does not fit into 64 bits of seconds. -/
  | range
  /-- A time whose year does not fit into 32 bits. -/
  | yearRange
  deriving DecidableEq, Repr

/-- A span of minutes as days and seconds, the seconds not negative and zeros left out. -/
def spanText (minutes : Int) : String :=
  let days := minutes.fdiv 1440
  let seconds := (minutes.fmod 1440) * 60
  if seconds = 0 then "datetime.timedelta(days=" ++ toString days ++ ")"
  else if days = 0 then "datetime.timedelta(seconds=" ++ toString seconds ++ ")"
  else "datetime.timedelta(days=" ++ toString days ++ ", seconds=" ++ toString seconds ++ ")"

namespace Fault

/-- The text of a fault. -/
def message : Fault → String
  | year y => "year " ++ toString y ++ " is out of range"
  | month => "month must be in 1..12"
  | day => "day is out of range for month"
  | hour => "hour must be in 0..23"
  | minute => "minute must be in 0..59"
  | second => "second must be in 0..59"
  | offset m =>
    "offset must be a timedelta strictly between -timedelta(hours=24) and timedelta(hours=24), not " ++ spanText m ++ "."
  | notNumber => "Invalid value NaN (not a number)"
  | range => "timestamp out of range for platform time_t"
  | yearRange => "[Errno 75] Value too large for defined data type"

/-- The name of the kind of a fault. -/
def kind : Fault → String
  | range => "OverflowError"
  | yearRange => "OSError"
  | _ => "ValueError"

end Fault

/-- A date. -/
structure Date where
  year : Int
  month : Nat
  day : Nat
  deriving DecidableEq, Repr

/-- Whether a year has a leap day. -/
def isLeap (y : Int) : Bool := y % 4 == 0 && (y % 100 != 0 || y % 400 == 0)

/-- The number of days of a month. -/
def daysIn (y : Int) (m : Nat) : Nat :=
  if m = 2 then (if isLeap y then 29 else 28) else if m = 4 || m = 6 || m = 9 || m = 11 then 30 else 31

namespace Date

/-- What is wrong with a date, if anything is. -/
def check (d : Date) : Except Fault Unit :=
  if d.year < 1 || 9999 < d.year then .error (.year d.year)
  else if d.month < 1 || 12 < d.month then .error .month
  else if d.day < 1 || daysIn d.year d.month < d.day then .error .day
  else .ok ()

/-- The date of a day. The count is moved to the first of March of year 0, from where every era of 400 years has 146097
days and the leap day ends the year. -/
def ofDays (days : Int) : Date :=
  let z := days + 719468
  let era := z.fdiv 146097
  let dayOfEra := (z.fmod 146097).toNat
  let yearOfEra := (dayOfEra - dayOfEra / 1460 + dayOfEra / 36524 - dayOfEra / 146096) / 365
  let dayOfYear := dayOfEra - (365 * yearOfEra + yearOfEra / 4 - yearOfEra / 100)
  let shifted := (5 * dayOfYear + 2) / 153
  let month := if shifted < 10 then shifted + 3 else shifted - 9
  let year : Int := yearOfEra + era * 400
  ⟨if month ≤ 2 then year + 1 else year, month, dayOfYear - (153 * shifted + 2) / 5 + 1⟩

end Date

/-- A time of day. -/
structure Clock where
  hour : Nat
  minute : Nat
  second : Nat
  deriving DecidableEq, Repr

namespace Clock

/-- What is wrong with a time of day, if anything is. -/
def check (c : Clock) : Except Fault Unit :=
  if 23 < c.hour then .error .hour
  else if 59 < c.minute then .error .minute
  else if 59 < c.second then .error .second
  else .ok ()

/-- The time of a second of a day. -/
def ofSecond (s : Nat) : Clock := ⟨s / 3600, s / 60 % 60, s % 60⟩

end Clock

/-- What is wrong with an offset from universal time in minutes, if anything is. -/
def checkOffset (minutes : Int) : Except Fault Unit :=
  if 1440 ≤ minutes.natAbs then .error (.offset minutes) else .ok ()

end Harvest.Time
