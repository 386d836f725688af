import Intake.Numeral.Binary

/-!
# Decimal literals

The texts that name a number of a binary format: an optional sign and then
digits with an optional point and an optional exponent, or the words `inf`,
`infinity` and `nan` in any case.
-/

namespace Intake.Numeral

inductive Literal where
  | nan
  | infinity (negative : Bool)
  | decimal (negative : Bool) (digits : Nat) (exponent : Int)
  deriving DecidableEq, Repr

namespace Literal

/-- A sign in front of a text, if there is one; `true` for a minus. -/
def takeSign : List Char → Bool × List Char
  | '-' :: cs => (true, cs)
  | '+' :: cs => (false, cs)
  | cs => (false, cs)

def isInfinityWord (cs : List Char) : Bool :=
  let word := cs.map Char.toLower
  word == "inf".toList || word == "infinity".toList

def isNanWord (cs : List Char) : Bool := cs.map Char.toLower == "nan".toList

/-- Reads what may follow the digits of a decimal: nothing, or an exponent. -/
def readExponent : List Char → Option Int
  | [] => some 0
  | c :: cs =>
    if c = 'e' ∨ c = 'E' then
      let (negative, digits) := takeSign cs
      if digits.isEmpty || !digits.all Char.isDigit then none
      else
        let magnitude : Int := Nat.ofDigitChars 10 digits 0
        some (if negative then -magnitude else magnitude)
    else none

/-- Reads digits with an optional point, at least one digit in all, and an optional exponent. -/
def readDecimal (negative : Bool) (cs : List Char) : Option Literal :=
  let whole := cs.takeWhile Char.isDigit
  let (part, rest) := match cs.dropWhile Char.isDigit with
    | '.' :: tail => (tail.takeWhile Char.isDigit, tail.dropWhile Char.isDigit)
    | tail => ([], tail)
  if whole.isEmpty && part.isEmpty then none
  else (readExponent rest).map fun exponent =>
    .decimal negative (Nat.ofDigitChars 10 (whole ++ part) 0) (exponent - part.length)

def read? (cs : List Char) : Option Literal :=
  let (negative, body) := takeSign cs
  if isInfinityWord body then some (.infinity negative)
  else if isNanWord body then some .nan
  else readDecimal negative body

def toBinary (f : Format) : Literal → Binary f
  | .nan => .nan
  | .infinity negative => .infinity negative
  | .decimal negative digits exponent => .ofDecimal f negative digits exponent

end Literal

end Intake.Numeral
