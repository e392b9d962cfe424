import ReleaseTrain.Text.Quoted

/-!
# Dates and times

Settings may hold a day, a time of day, or both with or without an offset from universal time.

* `Day`, `Clock`, `Moment`: the three kinds; `Day.valid`, `Clock.valid` say which numbers may
  stand in them.
* `iso`: the form of the standard for dates and times.
* `literal`: the form in which a date or time appears inside a list or a table.
* `Moment.same`: moments that lie at the same point of time.
-/

namespace ReleaseTrain

/-- A number in decimal digits, filled with zeros on the left up to a width. -/
def padded (width n : Nat) : String :=
  let digits := Nat.toDigits 10 n
  String.ofList (List.replicate (width - digits.length) '0' ++ digits)

/-- A day of the calendar. -/
structure Day where
  year : Nat
  month : Nat
  day : Nat
deriving DecidableEq, Repr

namespace Day

/-- Leap years of the Gregorian calendar. -/
def isLeap (year : Nat) : Bool := year % 4 = 0 && (year % 100 ≠ 0 || year % 400 = 0)

/-- The number of days of a month. -/
def lengthOfMonth (year month : Nat) : Nat :=
  if month = 2 then (if isLeap year then 29 else 28)
  else if [4, 6, 9, 11].contains month then 30
  else 31

/-- A day that the calendar has, in the years from 1 to 9999. -/
def valid (d : Day) : Bool :=
  1 ≤ d.year && d.year ≤ 9999 && 1 ≤ d.month && d.month ≤ 12 &&
    1 ≤ d.day && d.day ≤ lengthOfMonth d.year d.month

/-- The days from the beginning of the calendar up to and including a day. -/
def ordinal (d : Day) : Nat :=
  let years := d.year - 1
  let months := (List.range (d.month - 1)).foldl (fun n m => n + lengthOfMonth d.year (m + 1)) 0
  years * 365 + years / 4 - years / 100 + years / 400 + months + d.day

/-- Year, month and day with hyphens between. -/
def iso (d : Day) : String := padded 4 d.year ++ "-" ++ padded 2 d.month ++ "-" ++ padded 2 d.day

/-- The numbers of a day, separated by commas. -/
def numbers (d : Day) : String :=
  toString d.year ++ ", " ++ toString d.month ++ ", " ++ toString d.day

/-- A day inside a list or a table. -/
def literal (d : Day) : String := "datetime.date(" ++ d.numbers ++ ")"

end Day

/-- A time of day, down to the millionth of a second. -/
structure Clock where
  hour : Nat
  minute : Nat
  second : Nat
  micro : Nat
deriving DecidableEq, Repr

namespace Clock

/-- A time that a day has; there is no leap second. -/
def valid (t : Clock) : Bool :=
  t.hour < 24 && t.minute < 60 && t.second < 60 && t.micro < 1000000

/-- The millionths of a second since midnight. -/
def micros (t : Clock) : Nat :=
  ((t.hour * 60 + t.minute) * 60 + t.second) * 1000000 + t.micro

/-- Hours, minutes and seconds with colons between, and six more digits if the second is not
whole. -/
def iso (t : Clock) : String :=
  padded 2 t.hour ++ ":" ++ padded 2 t.minute ++ ":" ++ padded 2 t.second ++
    (if t.micro = 0 then "" else "." ++ padded 6 t.micro)

/-- The numbers of a time, separated by commas, without the zeros at the end. -/
def numbers (t : Clock) : String :=
  toString t.hour ++ ", " ++ toString t.minute ++
    (if t.micro ≠ 0 then ", " ++ toString t.second ++ ", " ++ toString t.micro
      else if t.second ≠ 0 then ", " ++ toString t.second
      else "")

/-- A time inside a list or a table. -/
def literal (t : Clock) : String := "datetime.time(" ++ t.numbers ++ ")"

end Clock

/-- A distance from universal time in minutes, with the name under which it was given. -/
structure Offset where
  minutes : Int
  name : String
deriving DecidableEq, Repr

namespace Offset

/-- Sign, hours and minutes. -/
def iso (o : Offset) : String :=
  (if o.minutes < 0 then "-" else "+") ++ padded 2 (o.minutes.natAbs / 60) ++ ":" ++
    padded 2 (o.minutes.natAbs % 60)

/-- An offset inside a list or a table: whole days first, then the seconds that remain. -/
def literal (o : Offset) : String :=
  let days := o.minutes / 1440
  let seconds := o.minutes % 1440 * 60
  let parts := (if days = 0 then [] else ["days=" ++ toString days]) ++
    (if seconds = 0 then [] else ["seconds=" ++ toString seconds])
  "datetime.timezone(datetime.timedelta(" ++
    (if parts.isEmpty then "0" else ", ".intercalate parts) ++ "), " ++
    Text.Quoted.quote o.name ++ ")"

end Offset

/-- A day with a time, perhaps with an offset from universal time. -/
structure Moment where
  day : Day
  clock : Clock
  offset : Option Offset
deriving DecidableEq, Repr

namespace Moment

/-- Day and time with the given text between them. -/
def written (between : String) (m : Moment) : String :=
  m.day.iso ++ between ++ m.clock.iso ++ m.offset.elim "" Offset.iso

/-- Day and time as the standard joins them. -/
def iso (m : Moment) : String := m.written "T"

/-- The millionths of a second up to a moment, in universal time if an offset is given. -/
def instant (m : Moment) : Int :=
  m.day.ordinal * 86400000000 + m.clock.micros - m.offset.elim 0 Offset.minutes * 60000000

/-- Whether two moments lie at the same point of time.  One with an offset and one without are never
the same. -/
def same (m n : Moment) : Bool :=
  m.offset.isSome == n.offset.isSome && m.instant == n.instant

/-- A moment inside a list or a table. -/
def literal (m : Moment) : String :=
  "datetime.datetime(" ++ m.day.numbers ++ ", " ++ m.clock.numbers ++
    m.offset.elim "" (fun o => ", tzinfo=" ++ o.literal) ++ ")"

end Moment

end ReleaseTrain
