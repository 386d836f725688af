/-!
# Timestamps

A civil date and time of day at an offset from UTC. A time of day may name the
leap second 60 of any minute. Timestamps are compared by the instant they name.
-/

namespace Intake.Calendar

def isLeapYear (year : Int) : Bool := year % 4 == 0 && (year % 100 != 0 || year % 400 == 0)

def daysInMonth (year : Int) (month : Nat) : Nat :=
  match month with
  | 2 => if isLeapYear year then 29 else 28
  | 4 | 6 | 9 | 11 => 30
  | _ => 31

/-- A date of the proleptic Gregorian calendar, within the years that can be represented. -/
structure Date where
  year : Int
  month : Nat
  day : Nat
  year_range : -262143 ≤ year ∧ year ≤ 262142
  month_range : 1 ≤ month ∧ month ≤ 12
  day_range : 1 ≤ day ∧ day ≤ daysInMonth year month
  deriving DecidableEq

def Date.of? (year : Int) (month day : Nat) : Option Date :=
  if hy : -262143 ≤ year ∧ year ≤ 262142 then
    if hm : 1 ≤ month ∧ month ≤ 12 then
      if hd : 1 ≤ day ∧ day ≤ daysInMonth year month then some ⟨year, month, day, hy, hm, hd⟩
      else none
    else none
  else none

def daysBeforeMonth (year : Int) (month : Nat) : Nat :=
  (List.range (month - 1)).foldl (fun days m => days + daysInMonth year (m + 1)) 0

/-- The number of a day, counted from the last day before year 1. -/
def Date.dayNumber (d : Date) : Int :=
  let y := d.year - 1
  365 * y + y / 4 - y / 100 + y / 400 + daysBeforeMonth d.year d.month + d.day

/-- A time of day; second 60 is a leap second. -/
structure TimeOfDay where
  hour : Nat
  minute : Nat
  second : Nat
  nanosecond : Nat
  hour_range : hour < 24
  minute_range : minute < 60
  second_range : second ≤ 60
  nanosecond_range : nanosecond < 1000000000
  deriving DecidableEq

def TimeOfDay.of? (hour minute second nanosecond : Nat) : Option TimeOfDay :=
  if h : hour < 24 ∧ minute < 60 ∧ second ≤ 60 ∧ nanosecond < 1000000000 then
    some ⟨hour, minute, second, nanosecond, h.1, h.2.1, h.2.2.1, h.2.2.2⟩
  else none

def TimeOfDay.midnight : TimeOfDay :=
  ⟨0, 0, 0, 0, by decide, by decide, by decide, by decide⟩

/-- A local date and time, and the offset of local time from UTC in minutes. -/
structure Timestamp where
  date : Date
  time : TimeOfDay
  offset : Int
  offset_range : -1440 < offset ∧ offset < 1440
  deriving DecidableEq

namespace Timestamp

def utc (date : Date) (time : TimeOfDay) : Timestamp := ⟨date, time, 0, by decide⟩

/-- The instant: seconds, and nanoseconds within the second. A leap second belongs to the
second before it, with nanoseconds beyond a full second. -/
def instant (t : Timestamp) : Int × Nat :=
  let leap := t.time.second == 60
  let second := if leap then 59 else t.time.second
  let nanosecond := if leap then t.time.nanosecond + 1000000000 else t.time.nanosecond
  (t.date.dayNumber * 86400 + (t.time.hour * 3600 + t.time.minute * 60 + second : Nat)
    - t.offset * 60, nanosecond)

def less (a b : Timestamp) : Bool :=
  let (s, n) := a.instant
  let (s', n') := b.instant
  s < s' || (s == s' && n < n')

def same (a b : Timestamp) : Bool := a.instant == b.instant

end Timestamp

end Intake.Calendar
