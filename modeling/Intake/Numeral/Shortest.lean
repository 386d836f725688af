import Intake.Numeral.Binary

/-!
# Shortest decimals

The decimal with the fewest digits that is read back as a given magnitude, and
of those the nearest one. Every candidate is tried by reading it back.
-/

namespace Intake.Numeral

/-- Which way an exact tie between two shortest decimals goes. -/
inductive Tie where
  | up
  | even
  deriving DecidableEq, Repr

def digitCount (n : Nat) : Nat := (Nat.toDigits 10 n).length

def stripZeros (digits : Nat) (exponent : Int) : Nat × Int :=
  if h : digits ≠ 0 ∧ digits % 10 = 0 then stripZeros (digits / 10) (exponent + 1)
  else (digits, exponent)
termination_by digits
decreasing_by omega

namespace Format

variable (f : Format)

def leadingExponent (rank : Nat) : Int :=
  (digitCount (f.units rank * Nat.pow 10 f.depth / Nat.pow 2 f.depth) : Int) - 1 - f.depth

def scaled (rank : Nat) : Int → Nat × Nat
  | .ofNat e => (f.units rank, Nat.pow 2 f.depth * Nat.pow 10 e)
  | .negSucc e => (f.units rank * Nat.pow 10 (e + 1), Nat.pow 2 f.depth)

/-- The multiple of `10 ^ exponent` nearest to a magnitude among those read back as it. -/
def candidate (tie : Tie) (rank : Nat) (exponent : Int) : Option (Nat × Int) :=
  let (num, den) := f.scaled rank exponent
  let low := num / den
  let readsBack (digits : Nat) : Bool := f.nearestDecimal digits exponent == rank
  let nearHigh : Bool :=
    let twice := 2 * (num % den)
    den < twice || (twice == den && (tie == .up || low % 2 == 1))
  match readsBack low, readsBack (low + 1) with
  | true, true => some (if nearHigh then (low + 1, exponent) else (low, exponent))
  | true, false => some (low, exponent)
  | false, true => some (low + 1, exponent)
  | false, false => none

def exactDecimal (rank : Nat) : Nat × Int := (f.units rank * Nat.pow 5 f.depth, -f.depth)

/-- The shortest decimal that is read back as a magnitude, without zeros at its end. As many
decimal digits as the precision has binary ones are always enough. -/
def shortest (tie : Tie) (rank : Nat) : Nat × Int :=
  let lead := f.leadingExponent rank
  let found := (List.range f.precision).findSome? fun (n : Nat) => f.candidate tie rank (lead - n)
  let (digits, exponent) := found.getD (f.exactDecimal rank)
  stripZeros digits exponent

end Format

end Intake.Numeral
