/-!
Days and times of the calendar, as configuration text can write them.
-/

namespace BrokerTrial

structure Day where
  year : Nat
  month : Nat
  day : Nat
deriving DecidableEq, Repr

/-- A time of a day; `offset` is the distance of its zone from universal time, in minutes. -/
structure DateTime where
  date : Day
  hour : Nat
  minute : Nat
  second : Nat
  microsecond : Nat
  offset : Option Int
deriving DecidableEq, Repr

namespace Calendar

/-- Why a group of numbers is no day or no time. -/
inductive Error
  | year (n : Nat)
  | month
  | day
  | hour
  | minute
  | second
  | offset (minutes : Int)
deriving DecidableEq, Repr

/-- A span of whole minutes: whole days, and seconds that count forward from there. -/
def spanShown (minutes : Int) : String :=
  let days := minutes.fdiv (24 * 60)
  let seconds := (minutes - days * (24 * 60)) * 60
  let parts := (if days = 0 then [] else [s!"days={days}"]) ++
    (if seconds = 0 then [] else [s!"seconds={seconds}"])
  "datetime.timedelta(" ++ (if parts = [] then "0" else ", ".intercalate parts) ++ ")"

def Error.message : Error → String
  | .year n => s!"year {n} is out of range"
  | .month => "month must be in 1..12"
  | .day => "day is out of range for month"
  | .hour => "hour must be in 0..23"
  | .minute => "minute must be in 0..59"
  | .second => "second must be in 0..59"
  | .offset minutes =>
    "offset must be a timedelta strictly between -timedelta(hours=24) and timedelta(hours=24), " ++
      s!"not {spanShown minutes}."

def isLeap (year : Nat) : Bool := year % 4 = 0 && (year % 100 ≠ 0 || year % 400 = 0)

def daysInMonth (year month : Nat) : Nat :=
  if month = 2 then if isLeap year then 29 else 28
  else if month = 4 ∨ month = 6 ∨ month = 9 ∨ month = 11 then 30
  else 31

def padded (width n : Nat) : String :=
  let digits := Nat.toDigits 10 n
  String.ofList (List.replicate (width - digits.length) '0' ++ digits)

end Calendar

open Calendar

namespace Day

/-- The year is checked first, then the month, then the day. -/
def ofNumbers? (year month day : Nat) : Except Error Day :=
  if year < 1 ∨ 9999 < year then .error (.year year)
  else if month < 1 ∨ 12 < month then .error .month
  else if day < 1 ∨ daysInMonth year month < day then .error .day
  else .ok ⟨year, month, day⟩

def text (d : Day) : String := s!"{padded 4 d.year}-{padded 2 d.month}-{padded 2 d.day}"

/-- The days up to this one since the start of the calendar. -/
def number (d : Day) : Nat :=
  let years := d.year - 1
  let months := (List.range (d.month - 1)).map fun m => daysInMonth d.year (m + 1)
  years * 365 + years / 4 - years / 100 + years / 400 + months.foldl (· + ·) 0 + d.day

def shown (d : Day) : String := s!"datetime.date({d.year}, {d.month}, {d.day})"

end Day

namespace DateTime

def ofNumbers? (year month day hour minute second microsecond : Nat) (offset : Option Int) :
    Except Error DateTime := do
  if let some o := offset then
    if o.natAbs ≥ 24 * 60 then throw (.offset o)
  let date ← Day.ofNumbers? year month day
  if 23 < hour then throw .hour
  if 59 < minute then throw .minute
  if 59 < second then throw .second
  return ⟨date, hour, minute, second, microsecond, offset⟩

/-- Microseconds since the start of the calendar, in universal time if a zone is known. -/
def instant (m : DateTime) : Int :=
  let minutes : Int := (m.date.number * 24 + m.hour) * 60 + m.minute
  ((minutes - m.offset.getD 0) * 60 + m.second) * 1000000 + m.microsecond

/-- Whether two times are the same instant; one with a zone is never one without. -/
def sameInstant (m n : DateTime) : Bool :=
  m.offset.isSome = n.offset.isSome && m.instant = n.instant

def offsetText (o : Int) : String :=
  let n := o.natAbs
  let sign := if o < 0 then "-" else "+"
  s!"{sign}{padded 2 (n / 60)}:{padded 2 (n % 60)}"

def text (m : DateTime) : String :=
  let fraction := if m.microsecond = 0 then "" else s!".{padded 6 m.microsecond}"
  let zone := (m.offset.map offsetText).getD ""
  s!"{m.date.text} {padded 2 m.hour}:{padded 2 m.minute}:{padded 2 m.second}{fraction}{zone}"

/-- The zone as a value shows it. -/
def offsetShown (o : Int) : String :=
  if o = 0 then "datetime.timezone.utc" else s!"datetime.timezone({spanShown o})"

/-- Seconds and fractions are left out while nothing but zero follows. -/
def shown (m : DateTime) : String :=
  let rest :=
    if m.microsecond ≠ 0 then s!", {m.second}, {m.microsecond}"
    else if m.second ≠ 0 then s!", {m.second}" else ""
  let zone := (m.offset.map fun o => ", tzinfo=" ++ offsetShown o).getD ""
  let date := s!"{m.date.year}, {m.date.month}, {m.date.day}"
  s!"datetime.datetime({date}, {m.hour}, {m.minute}{rest}{zone})"

end DateTime

end BrokerTrial
