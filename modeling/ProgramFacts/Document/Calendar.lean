import ProgramFacts.Text.Pieces

/-!
# Dates and moments

A document may hold a date, or a moment of a day with an optional offset from universal time.
-/

namespace ProgramFacts

/-- A day of the Gregorian calendar. -/
structure Date where
  year : Nat
  month : Nat
  day : Nat
deriving DecidableEq

/-- A moment of a day; the offset from universal time is in minutes. -/
structure Moment where
  date : Date
  hour : Nat
  minute : Nat
  second : Nat
  microsecond : Nat
  offset : Option Int
deriving DecidableEq

/-- Why three numbers are no date, or four more no moment. -/
inductive CalendarFault
  | year (n : Nat)
  | month
  | day
  | hour
  | minute
  | second
  /-- So many minutes are a day or more. -/
  | offset (minutes : Int)
deriving DecidableEq

/-- A length of time in whole days, and in seconds. -/
def durationShown (minutes : Int) : String :=
  let days := Int.fdiv minutes (24 * 60)
  let seconds := Int.fmod minutes (24 * 60) * 60
  let parts := (if days = 0 then [] else ["days=" ++ toString days]) ++
    (if seconds = 0 then [] else ["seconds=" ++ toString seconds])
  "datetime.timedelta(" ++ Text.joinWith ", " parts ++ ")"

def CalendarFault.message : CalendarFault → String
  | .year n => "year " ++ toString n ++ " is out of range"
  | .month => "month must be in 1..12"
  | .day => "day is out of range for month"
  | .hour => "hour must be in 0..23"
  | .minute => "minute must be in 0..59"
  | .second => "second must be in 0..59"
  | .offset minutes =>
    "offset must be a timedelta strictly between -timedelta(hours=24) and timedelta(hours=24), not " ++
      durationShown minutes ++ "."

/-- Every fourth year is a leap year, but of the full centuries only every fourth. -/
def isLeapYear (year : Nat) : Bool := year % 4 == 0 && (year % 100 != 0 || year % 400 == 0)

def daysInMonth (year month : Nat) : Nat :=
  if month = 2 then (if isLeapYear year then 29 else 28)
  else if month = 4 ∨ month = 6 ∨ month = 9 ∨ month = 11 then 30
  else 31

/-- The date of three numbers, if the calendar has it. -/
def Date.of (year month day : Nat) : Except CalendarFault Date :=
  if year < 1 ∨ 9999 < year then .error (.year year)
  else if month < 1 ∨ 12 < month then .error .month
  else if day < 1 ∨ daysInMonth year month < day then .error .day
  else .ok ⟨year, month, day⟩

/-- The moment of a day, if the clock has it. An offset is less than a day. -/
def Moment.of (date : Except CalendarFault Date) (hour minute second microsecond : Nat) (offset : Option Int) :
    Except CalendarFault Moment := do
  if 24 * 60 ≤ (offset.getD 0).natAbs then throw (.offset (offset.getD 0))
  let date ← date
  if 23 < hour then throw .hour
  if 59 < minute then throw .minute
  if 59 < second then throw .second
  pure ⟨date, hour, minute, second, microsecond, offset⟩

/-- The days before a year, counted from a first year that there never was. -/
def daysBeforeYear (year : Nat) : Nat :=
  let y := year - 1
  365 * y + y / 4 - y / 100 + y / 400

/-- The days up to a date. -/
def Date.days (d : Date) : Nat :=
  daysBeforeYear d.year + ((List.range' 1 (d.month - 1)).map (daysInMonth d.year)).foldr (· + ·) 0 + d.day

/-- The microseconds up to a moment by its own clock. -/
def Moment.clock (m : Moment) : Nat :=
  (((m.date.days * 24 + m.hour) * 60 + m.minute) * 60 + m.second) * 1000000 + m.microsecond

/-- Whether two moments are one: those with offsets by universal time, those without by their own clocks, and
never one of each. -/
def Moment.sameInstant (a b : Moment) : Bool :=
  match a.offset, b.offset with
  | none, none => a.clock == b.clock
  | some o, some p => (a.clock : Int) - o * 60000000 == (b.clock : Int) - p * 60000000
  | _, _ => false

/-- The number with leading zeros. -/
def padded (width n : Nat) : String := String.ofList ((Nat.toDigits 10 n).leftpad width '0')

/-- Year, month and day with hyphens. -/
def Date.text (d : Date) : String := padded 4 d.year ++ "-" ++ padded 2 d.month ++ "-" ++ padded 2 d.day

/-- Date and time of day, the fraction of a second and the offset if there are any. -/
def Moment.text (m : Moment) : String :=
  m.date.text ++ " " ++ padded 2 m.hour ++ ":" ++ padded 2 m.minute ++ ":" ++ padded 2 m.second ++
    (if m.microsecond = 0 then "" else "." ++ padded 6 m.microsecond) ++
    match m.offset with
    | none => ""
    | some o => (if o < 0 then "-" else "+") ++ padded 2 (o.natAbs / 60) ++ ":" ++ padded 2 (o.natAbs % 60)

end ProgramFacts
