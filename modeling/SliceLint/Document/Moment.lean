/-!
# Dates and times

Calendar dates, and times of day on a date with an optional offset from universal time.
-/

namespace SliceLint

/-- A calendar date. -/
structure Date where
  year : Nat
  month : Nat
  day : Nat
deriving DecidableEq, Repr, Inhabited

/-- A time of day on a date. The offset from universal time counts minutes. -/
structure Moment where
  date : Date
  hour : Nat
  minute : Nat
  second : Nat
  microsecond : Nat
  offset? : Option Int
deriving DecidableEq, Repr, Inhabited

/-- A number with at least so many digits. -/
def paddedNumber (size n : Nat) : String :=
  let digits := Nat.toDigits 10 n
  String.ofList (List.replicate (size - digits.length) '0' ++ digits)

namespace Date

def isLeap (year : Nat) : Bool := year % 4 == 0 && (year % 100 != 0 || year % 400 == 0)

/-- The number of days of a month. -/
def daysOf (year month : Nat) : Nat :=
  if month == 2 then (if isLeap year then 29 else 28)
  else if [4, 6, 9, 11].contains month then 30
  else 31

/-- The number of a date, counted from the start of the calendar. -/
def ordinal (d : Date) : Nat :=
  let y := d.year - 1
  365 * y + y / 4 - y / 100 + y / 400 +
    (List.range (d.month - 1)).foldl (fun n m => n + daysOf d.year (m + 1)) d.day

/-- The date with the given number. The count goes by years that start in March, so that
the day of a leap year comes last. -/
def ofOrdinal (n : Nat) : Date :=
  let d := n + 305
  let rest := d % 146097
  let year := (rest - rest / 1460 + rest / 36524 - rest / 146096) / 365
  let inYear := rest - (365 * year + year / 4 - year / 100)
  let month := (5 * inYear + 2) / 153
  let day := inYear - (153 * month + 2) / 5 + 1
  if month < 10 then ⟨400 * (d / 146097) + year, month + 3, day⟩
  else ⟨400 * (d / 146097) + year + 1, month - 9, day⟩

/-- Year, month and day with hyphens. -/
def shown (d : Date) : String :=
  paddedNumber 4 d.year ++ "-" ++ paddedNumber 2 d.month ++ "-" ++ paddedNumber 2 d.day

end Date

/-- Why numbers make no date or time. -/
inductive MomentFault where
  | year (n : Nat)
  | month
  | day
  | hour
  | minute
  | second
  | offset (minutes : Int)
deriving DecidableEq, Repr

/-- A span of so many minutes, in days and seconds of a day. -/
def shownSpan (minutes : Int) : String :=
  let days := minutes.fdiv 1440
  let seconds := minutes.fmod 1440 * 60
  let parts := (if days == 0 then [] else ["days=" ++ toString days]) ++
    (if seconds == 0 then [] else ["seconds=" ++ toString seconds])
  "datetime.timedelta(" ++ (if parts.isEmpty then "0" else ", ".intercalate parts) ++ ")"

def MomentFault.message : MomentFault → String
  | year n => "year " ++ toString n ++ " is out of range"
  | month => "month must be in 1..12"
  | day => "day is out of range for month"
  | hour => "hour must be in 0..23"
  | minute => "minute must be in 0..59"
  | second => "second must be in 0..59"
  | offset minutes =>
    "offset must be a timedelta strictly between -timedelta(hours=24) and " ++
      "timedelta(hours=24), not " ++ shownSpan minutes ++ "."

/-- The date that three numbers make. -/
def Date.of? (year month day : Nat) : Except MomentFault Date :=
  if year < 1 || year > 9999 then .error (.year year)
  else if month < 1 || month > 12 then .error .month
  else if day < 1 || day > Date.daysOf year month then .error .day
  else .ok ⟨year, month, day⟩

namespace Moment

/-- Check the numbers of a time. The offset is judged before the date. -/
def checked (year month day hour minute second microsecond : Nat) (offset? : Option Int) :
    Except MomentFault Moment := do
  match offset? with
  | some m => if m ≤ -1440 || m ≥ 1440 then throw (.offset m)
  | none => pure ()
  let date ← Date.of? year month day
  if hour > 23 then throw .hour
  if minute > 59 then throw .minute
  if second > 59 then throw .second
  return ⟨date, hour, minute, second, microsecond, offset?⟩

/-- The offset with its sign, hours and minutes. -/
def shownOffset (minutes : Int) : String :=
  (if minutes < 0 then "-" else "+") ++ paddedNumber 2 (minutes.natAbs / 60) ++ ":" ++
    paddedNumber 2 (minutes.natAbs % 60)

/-- Date and time with a mark between them; microseconds only when there are any. -/
def shown (mark : String) (t : Moment) : String :=
  t.date.shown ++ mark ++ paddedNumber 2 t.hour ++ ":" ++ paddedNumber 2 t.minute ++ ":" ++
    paddedNumber 2 t.second ++
    (if t.microsecond == 0 then "" else "." ++ paddedNumber 6 t.microsecond) ++
    (match t.offset? with
      | some m => shownOffset m
      | none => "")

/-- The time in universal time, given by the seconds since the start of the year 1970. -/
def ofSeconds (seconds microsecond : Nat) : Moment :=
  let ofDay := seconds % 86400
  ⟨.ofOrdinal (seconds / 86400 + 719163), ofDay / 3600, ofDay % 3600 / 60, ofDay % 60, microsecond,
    some 0⟩

/-- The minutes since the start of the calendar, in universal time when there is an offset. -/
def minutes (t : Moment) : Int :=
  ((t.date.ordinal * 24 + t.hour) * 60 + t.minute : Nat) - t.offset?.getD 0

/-- The moments are equal: both with an offset or both without, and at the same time. -/
def same (t u : Moment) : Bool :=
  t.offset?.isSome == u.offset?.isSome && t.minutes == u.minutes && t.second == u.second &&
    t.microsecond == u.microsecond

end Moment

end SliceLint
