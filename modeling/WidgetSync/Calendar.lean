/-!
# Dates and Times of Day

Calendar dates, times of day and moments, as settings files may hold them. The
program only ever writes them out again: as they read in a text, and inside a
list in the long form that names every part.

## Main definitions

* `Date`, `TimeOfDay`, `Moment`: What a file can say.
* `Date.valid`: The date exists.
* `Moment.plain`, `Moment.spelled`: The two written forms.
-/

namespace WidgetSync

/-- A number with zeros in front, to the given width. -/
def zeroPadded (width n : Nat) : String :=
  let ds := Nat.toDigits 10 n
  String.ofList (List.replicate (width - ds.length) '0' ++ ds)

/-- A date of the calendar. -/
structure Date where
  /-- The year, from 1 to 9999. -/
  year : Nat
  /-- The month, from 1 to 12. -/
  month : Nat
  /-- The day of the month. -/
  day : Nat
deriving DecidableEq, Repr

namespace Date

/-- The year has a leap day. -/
def leap (year : Nat) : Bool :=
  year % 4 == 0 && (year % 100 != 0 || year % 400 == 0)

/-- The number of days of a month. -/
def daysIn (year month : Nat) : Nat :=
  if month = 2 then (if leap year then 29 else 28)
  else if month = 4 ∨ month = 6 ∨ month = 9 ∨ month = 11 then 30
  else 31

/-- The date exists. -/
def valid (d : Date) : Bool :=
  decide (1 ≤ d.year ∧ 1 ≤ d.month ∧ d.month ≤ 12 ∧ 1 ≤ d.day ∧ d.day ≤ daysIn d.year d.month)

/-- The date as it reads in a text. -/
def plain (d : Date) : String :=
  s!"{zeroPadded 4 d.year}-{zeroPadded 2 d.month}-{zeroPadded 2 d.day}"

end Date

/-- A time of day, down to the millionth of a second. -/
structure TimeOfDay where
  /-- The hour. -/
  hour : Nat
  /-- The minute. -/
  minute : Nat
  /-- The second. -/
  second : Nat
  /-- The millionths of a second. -/
  micro : Nat
deriving DecidableEq, Repr

namespace TimeOfDay

/-- The time as it reads in a text. -/
def plain (t : TimeOfDay) : String :=
  let places := if t.micro = 0 then "" else "." ++ zeroPadded 6 t.micro
  s!"{zeroPadded 2 t.hour}:{zeroPadded 2 t.minute}:{zeroPadded 2 t.second}{places}"

/-- The parts that the long form names: hour and minute always, the others as far
    as they are needed. -/
def parts (t : TimeOfDay) : List Nat :=
  if t.micro ≠ 0 then [t.hour, t.minute, t.second, t.micro]
  else if t.second ≠ 0 then [t.hour, t.minute, t.second]
  else [t.hour, t.minute]

end TimeOfDay

/-- A date, a time of day, or both, perhaps with the distance to universal time. -/
inductive Moment where
  /-- A date without a time. -/
  | date (date : Date)
  /-- A time without a date. -/
  | time (time : TimeOfDay)
  /-- A date with a time and, if known, the distance to universal time in minutes. -/
  | both (date : Date) (time : TimeOfDay) (offset : Option Int)
deriving DecidableEq, Repr

namespace Moment

/-- A distance to universal time as it reads in a text. -/
def offsetText (minutes : Int) : String :=
  let size := minutes.natAbs
  let sign := if minutes < 0 then "-" else "+"
  s!"{sign}{zeroPadded 2 (size / 60)}:{zeroPadded 2 (size % 60)}"

/-- A distance to universal time in the long form: whole days below zero are
    counted apart. -/
def offsetSpelled (minutes : Int) : String :=
  if minutes = 0 then "datetime.timezone.utc"
  else if minutes < 0 then
    s!"datetime.timezone(datetime.timedelta(days=-1, seconds={86400 + minutes * 60}))"
  else s!"datetime.timezone(datetime.timedelta(seconds={minutes * 60}))"

/-- Numbers between commas. -/
def listed (ns : List Nat) : String :=
  ", ".intercalate (ns.map fun n => toString n)

/-- The moment as it reads in a text. -/
def plain : Moment → String
  | .date d => d.plain
  | .time t => t.plain
  | .both d t offset => s!"{d.plain} {t.plain}" ++ (offset.map offsetText).getD ""

/-- The moment in the long form. -/
def spelled : Moment → String
  | .date d => s!"datetime.date({listed [d.year, d.month, d.day]})"
  | .time t => s!"datetime.time({listed t.parts})"
  | .both d t none => s!"datetime.datetime({listed ([d.year, d.month, d.day] ++ t.parts)})"
  | .both d t (some offset) =>
    let numbers := listed ([d.year, d.month, d.day] ++ t.parts)
    s!"datetime.datetime({numbers}, tzinfo={offsetSpelled offset})"

end Moment

end WidgetSync
