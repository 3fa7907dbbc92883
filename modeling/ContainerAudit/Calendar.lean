/-!
# Dates and times of day

Days of the Gregorian calendar, and moments with an optional offset from universal time.
-/

namespace ContainerAudit

structure Date where
  year : Nat
  month : Nat
  day : Nat
  deriving DecidableEq, Repr

/-- A moment. The offset from universal time is in minutes. -/
structure Moment where
  date : Date
  hour : Nat
  minute : Nat
  second : Nat
  microsecond : Nat
  offset : Option Int
  deriving DecidableEq, Repr

def isLeapYear (year : Nat) : Bool :=
  year % 4 == 0 && (year % 100 != 0 || year % 400 == 0)

/-- The number of days of a month; there is no month but the twelve. -/
def daysInMonth (year month : Nat) : Nat :=
  match month with
  | 1 | 3 | 5 | 7 | 8 | 10 | 12 => 31
  | 4 | 6 | 9 | 11 => 30
  | 2 => if isLeapYear year then 29 else 28
  | _ => 0

/-- The day is in the calendar. -/
def Date.isValid (d : Date) : Bool :=
  1 ≤ d.year && d.year ≤ 9999 && 1 ≤ d.day && d.day ≤ daysInMonth d.year d.month

/-- The moment is on the clock, less than a day away from universal time. -/
def Moment.isValid (m : Moment) : Bool :=
  m.date.isValid && m.hour < 24 && m.minute < 60 && m.second < 60 &&
    m.offset.all fun o => o.natAbs < 1440

/-- The days before the first of January of a year. -/
def daysBeforeYear (year : Nat) : Nat :=
  let y := year - 1
  y * 365 + y / 4 - y / 100 + y / 400

/-- The number of the day, counted from the first day of year one. -/
def Date.ordinal (d : Date) : Nat :=
  (List.range (d.month - 1)).foldl (fun days m => days + daysInMonth d.year (m + 1))
    (daysBeforeYear d.year) + d.day

/-- The microseconds since the first midnight, on the moment's own clock. -/
def Moment.clockTime (m : Moment) : Nat :=
  (((m.date.ordinal * 24 + m.hour) * 60 + m.minute) * 60 + m.second) * 1000000 + m.microsecond

/-- Both moments are the same: on one clock, or both without a clock of reference. -/
def Moment.same (a b : Moment) : Bool :=
  match a.offset, b.offset with
  | none, none => a.clockTime == b.clockTime
  | some x, some y => Int.ofNat a.clockTime - x * 60000000 == Int.ofNat b.clockTime - y * 60000000
  | _, _ => false

/-- A number with zeros in front up to a width. -/
def padded (width n : Nat) : String :=
  let digits := Nat.toDigits 10 n
  String.ofList (List.replicate (width - digits.length) '0' ++ digits)

/-- The day as `YYYY-MM-DD`. -/
def Date.text (d : Date) : String :=
  padded 4 d.year ++ "-" ++ padded 2 d.month ++ "-" ++ padded 2 d.day

/-- An offset as `+HH:MM`. -/
def offsetText (o : Int) : String :=
  (if o < 0 then "-" else "+") ++ padded 2 (o.natAbs / 60) ++ ":" ++ padded 2 (o.natAbs % 60)

/-- The moment with `separator` between day and time; a fraction that is zero is left out. -/
def Moment.text (separator : String) (m : Moment) : String :=
  m.date.text ++ separator ++ padded 2 m.hour ++ ":" ++ padded 2 m.minute ++ ":" ++
    padded 2 m.second ++ (if m.microsecond = 0 then "" else "." ++ padded 6 m.microsecond) ++
    (m.offset.map offsetText).getD ""

end ContainerAudit
