import Intake.Text.Blank

/-!
# Decimal shapes

Bounds on the digits of a decimal text: at most so many in all, and at most so
many after the point. Blanks around it do not count, and a blank text passes.
-/

namespace Intake

/-- At most `precision` digits, and at most `scale` of them after the point. -/
structure DecimalShape where
  precision : Nat
  scale : Nat
  deriving DecidableEq, Repr

namespace DecimalShape

inductive Fault where
  | exponent
  | points
  | notDecimal
  | digits
  | fractionDigits
  deriving DecidableEq, Repr

def Fault.text : Fault → String
  | .exponent => "exponent notation is not supported"
  | .points => "too many decimal points"
  | .notDecimal => "not a decimal number"
  | .digits => "too many digits"
  | .fractionDigits => "too many fractional digits"

def dropSign : List Char → List Char
  | '-' :: cs => cs
  | '+' :: cs => cs
  | cs => cs

/-- What keeps a text from having a shape. A missing whole part counts as one digit. -/
def fault? (d : DecimalShape) (cs : List Char) : Option Fault :=
  let trimmed := Text.trim cs
  if trimmed.isEmpty then none
  else
    let body := dropSign trimmed
    if body.any (fun c => c == 'e' || c == 'E') then some .exponent
    else
      let whole := body.takeWhile (· ≠ '.')
      let part := (body.dropWhile (· ≠ '.')).drop 1
      if '.' ∈ part then some .points
      else if !whole.all Char.isDigit || !part.all Char.isDigit then some .notDecimal
      else if d.precision < max 1 whole.length + part.length then some .digits
      else if d.scale < part.length then some .fractionDigits
      else none

def name (d : DecimalShape) : String := s!"decimal({d.precision},{d.scale})"

end DecimalShape

end Intake
