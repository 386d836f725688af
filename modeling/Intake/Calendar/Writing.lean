import Intake.Calendar.Timestamp

/-!
# Written timestamps

The three texts of a timestamp: RFC 3339 with a numeric offset, the same with
`Z` for UTC, and the spaced form of messages.
-/

namespace Intake.Calendar

/-- The last `width` decimal digits of a number, with zeros in front. -/
def padded : Nat → Nat → List Char
  | 0, _ => []
  | width + 1, n => padded width (n / 10) ++ [Nat.digitChar (n % 10)]

/-- Four digits for the years 0 to 9999; others with a sign and at least four digits. -/
def writeYear (year : Int) : List Char :=
  let digits := Nat.toDigits 10 year.natAbs
  let wide := List.replicate (4 - digits.length) '0' ++ digits
  if 0 ≤ year ∧ year ≤ 9999 then wide else (if year < 0 then '-' else '+') :: wide

def writeDate (d : Date) : List Char :=
  writeYear d.year ++ '-' :: padded 2 d.month ++ '-' :: padded 2 d.day

/-- The fewest of 0, 3, 6 or 9 places that are exact. -/
def writeFraction (nanosecond : Nat) : List Char :=
  if nanosecond = 0 then []
  else if nanosecond % 1000000 = 0 then '.' :: padded 3 (nanosecond / 1000000)
  else if nanosecond % 1000 = 0 then '.' :: padded 6 (nanosecond / 1000)
  else '.' :: padded 9 nanosecond

def writeTime (t : TimeOfDay) : List Char :=
  padded 2 t.hour ++ ':' :: padded 2 t.minute ++ ':' :: padded 2 t.second ++
    writeFraction t.nanosecond

def writeOffset (offset : Int) : List Char :=
  let minutes := offset.natAbs
  (if offset < 0 then '-' else '+') :: padded 2 (minutes / 60) ++ ':' :: padded 2 (minutes % 60)

namespace Timestamp

/-- RFC 3339 with a numeric offset. -/
def toRfc3339 (t : Timestamp) : List Char :=
  writeDate t.date ++ 'T' :: writeTime t.time ++ writeOffset t.offset

/-- RFC 3339 with `Z` for UTC, the form of JSON text. -/
def toJsonText (t : Timestamp) : List Char :=
  writeDate t.date ++ 'T' :: writeTime t.time ++ if t.offset = 0 then ['Z'] else writeOffset t.offset

def text (t : Timestamp) : String :=
  String.ofList (writeDate t.date ++ ' ' :: writeTime t.time ++ ' ' :: writeOffset t.offset)

end Timestamp

end Intake.Calendar
