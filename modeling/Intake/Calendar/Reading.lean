import Intake.Calendar.Timestamp
import Intake.Text.Blank

/-!
# Layouts of timestamps

The texts read as timestamps. The RFC 3339 layouts have fields of fixed width
and an offset. The local layouts have fields of up to a width, with blanks
allowed before each, and are in UTC.
-/

namespace Intake.Calendar

open Text (trimStart)

inductive Layout where
  /-- RFC 3339 with a fraction of a second. -/
  | rfc3339Fraction
  /-- RFC 3339. -/
  | rfc3339
  /-- Date and time without an offset. -/
  | localDateTime
  /-- A date, at midnight. -/
  | dateOnly
  deriving DecidableEq, Repr

/-- Reads one given character, and gives the text after it. -/
def expect (c : Char) : List Char → Option (List Char)
  | c' :: cs => if c' = c then some cs else none
  | [] => none

/-- Reads one or more digits, as many as there are up to `width`. -/
def readUpTo (width : Nat) (cs : List Char) : Option (Nat × List Char) :=
  let digits := (cs.take width).takeWhile Char.isDigit
  if digits.isEmpty then none else some (Nat.ofDigitChars 10 digits 0, cs.drop digits.length)

def readExactly (width : Nat) (cs : List Char) : Option (Nat × List Char) :=
  let digits := cs.take width
  if digits.length = width ∧ digits.all Char.isDigit then
    some (Nat.ofDigitChars 10 digits 0, cs.drop width)
  else none

/-- Reads the fraction of a second after a point, in nanoseconds. Digits after the ninth count
for nothing. -/
def readFraction : List Char → Option (Nat × List Char)
  | '.' :: cs =>
    let digits := cs.takeWhile Char.isDigit
    if digits.isEmpty then none
    else
      let kept := digits.take 9
      some (Nat.ofDigitChars 10 kept 0 * Nat.pow 10 (9 - kept.length), cs.dropWhile Char.isDigit)
  | cs => some (0, cs)

/-! ### RFC 3339 -/

/-- Reads `Z`, or a sign with hours and minutes, as minutes. The sign may be U+2212. -/
def readOffset : List Char → Option (Int × List Char)
  | c :: cs =>
    if c = 'Z' ∨ c = 'z' then some (0, cs)
    else if c = '+' ∨ c = '-' ∨ c = '\u2212' then do
      let (hours, cs) ← readExactly 2 cs
      let cs ← expect ':' cs
      let (minutes, cs) ← readExactly 2 cs
      if minutes < 60 then
        let magnitude : Int := hours * 60 + minutes
        some (if c = '+' then magnitude else -magnitude, cs)
      else none
    else none
  | [] => none

def readSeparator : List Char → Option (List Char)
  | c :: cs => if c = 'T' ∨ c = 't' ∨ c = ' ' then some cs else none
  | [] => none

def readRfc3339 (cs : List Char) : Option Timestamp := do
  let (year, cs) ← readExactly 4 cs
  let cs ← expect '-' cs
  let (month, cs) ← readExactly 2 cs
  let cs ← expect '-' cs
  let (day, cs) ← readExactly 2 cs
  let cs ← readSeparator cs
  let (hour, cs) ← readExactly 2 cs
  let cs ← expect ':' cs
  let (minute, cs) ← readExactly 2 cs
  let cs ← expect ':' cs
  let (second, cs) ← readExactly 2 cs
  let (nanosecond, cs) ← readFraction cs
  let (offset, cs) ← readOffset cs
  let date ← Date.of? year month day
  let time ← TimeOfDay.of? hour minute second nanosecond
  if h : cs = [] ∧ -1440 < offset ∧ offset < 1440 then some ⟨date, time, offset, h.2⟩ else none

/-! ### Local layouts -/

/-- Reads a number of up to `width` digits after blanks. -/
def readField (width : Nat) (cs : List Char) : Option (Nat × List Char) := readUpTo width (trimStart cs)

/-- Reads a year after blanks: up to four digits, or a sign and any number of them. -/
def readYear (cs : List Char) : Option (Int × List Char) :=
  let signed (sign : Int) (cs : List Char) : Option (Int × List Char) :=
    (readUpTo cs.length cs).map fun (n, rest) => (sign * n, rest)
  match trimStart cs with
  | '-' :: cs => signed (-1) cs
  | '+' :: cs => signed 1 cs
  | cs => (readUpTo 4 cs).map fun (n, rest) => ((n : Int), rest)

def readDate (cs : List Char) : Option (Date × List Char) := do
  let (year, cs) ← readYear cs
  let cs ← expect '-' cs
  let (month, cs) ← readField 2 cs
  let cs ← expect '-' cs
  let (day, cs) ← readField 2 cs
  let date ← Date.of? year month day
  some (date, cs)

def readTime (cs : List Char) : Option (TimeOfDay × List Char) := do
  let (hour, cs) ← readField 2 cs
  let cs ← expect ':' cs
  let (minute, cs) ← readField 2 cs
  let cs ← expect ':' cs
  let (second, cs) ← readField 2 cs
  let (nanosecond, cs) ← readFraction cs
  let time ← TimeOfDay.of? hour minute second nanosecond
  some (time, cs)

def readDateTime (cs : List Char) : Option Timestamp := do
  let (date, cs) ← readDate cs
  let cs ← expect 'T' cs
  let (time, cs) ← readTime cs
  if cs = [] then some (.utc date time) else none

def readDateOnly (cs : List Char) : Option Timestamp := do
  let (date, cs) ← readDate cs
  if cs = [] then some (.utc date .midnight) else none

def Layout.read? (l : Layout) (cs : List Char) : Option Timestamp :=
  match l with
  | .rfc3339Fraction => if '.' ∈ cs then readRfc3339 cs else none
  | .rfc3339 => readRfc3339 cs
  | .localDateTime => readDateTime cs
  | .dateOnly => readDateOnly cs

/-- The layouts in the order in which they are tried. -/
def Layout.all : List Layout := [.rfc3339Fraction, .rfc3339, .localDateTime, .dateOnly]

def Timestamp.read? (cs : List Char) : Option Timestamp := Layout.all.findSome? (·.read? cs)

end Intake.Calendar
