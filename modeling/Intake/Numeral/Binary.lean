/-!
# Binary floating-point numbers

A format is given by its precision and its range of exponents. The magnitudes of
a format are listed in increasing order, zero first and infinity last; the rank
of a magnitude is its place in that list. All arithmetic is exact: magnitudes
are counted in units of the least positive one, and `Format.nearest` rounds a
quotient of natural numbers to the nearest magnitude, ties to even.
-/

namespace Intake.Numeral

/-- The quotient of two numbers, rounded to the nearest number, a half to the even one. -/
def roundHalfEven (num den : Nat) : Nat :=
  let q := num / den
  let r := num % den
  if 2 * r < den then q else if den < 2 * r then q + 1 else q + q % 2

/-- A binary format: `precision` binary digits, the least positive magnitude `2 ^ (-depth)`,
and `binades` blocks of magnitudes with a common unit before infinity. -/
structure Format where
  precision : Nat
  depth : Nat
  binades : Nat
  deriving DecidableEq, Repr

namespace Format

def single : Format := ⟨24, 149, 255⟩

def double : Format := ⟨53, 1074, 2047⟩

def block (f : Format) : Nat := Nat.pow 2 (f.precision - 1)

/-- The rank of infinity. -/
def top (f : Format) : Nat := f.binades * f.block

/-- The magnitude of a rank, in units of the least positive one. -/
def units (f : Format) (rank : Nat) : Nat :=
  let shift := rank / f.block - 1
  (rank - shift * f.block) * Nat.pow 2 shift

/-- The rank of the magnitude nearest to `num / den` units, as if exponents had no upper end. -/
def nearestUnbounded (f : Format) (num den : Nat) : Nat :=
  let shift := (num / den).log2 + 1 - f.precision
  shift * f.block + roundHalfEven num (den * Nat.pow 2 shift)

/-- The rank of the magnitude nearest to `num / den` units. -/
def nearest (f : Format) (num den : Nat) : Nat := min f.top (f.nearestUnbounded num den)

/-- An exponent of two from which on every value is infinite. -/
def ceiling (f : Format) : Nat := f.precision + f.binades

/-- The rank of the magnitude nearest to `digits * 10 ^ exponent`. Exponents far outside the
range of the format are settled by the size of the digits alone. -/
def nearestDecimal (f : Format) (digits : Nat) (exponent : Int) : Nat :=
  if digits = 0 then 0
  else match exponent with
    | .ofNat e =>
      if f.ceiling ≤ digits.log2 + 3 * e then f.top
      else f.nearest (digits * Nat.pow 10 e * Nat.pow 2 f.depth) 1
    | .negSucc e =>
      if digits.log2 + f.depth + 2 ≤ 3 * (e + 1) then 0
      else f.nearest (digits * Nat.pow 2 f.depth) (Nat.pow 10 (e + 1))

theorem nearest_le_top (f : Format) (num den : Nat) : f.nearest num den ≤ f.top :=
  Nat.min_le_left _ _

theorem nearestDecimal_le_top (f : Format) (digits : Nat) (exponent : Int) :
    f.nearestDecimal digits exponent ≤ f.top := by
  unfold nearestDecimal
  split
  · exact Nat.zero_le _
  · split
    · split
      · exact Nat.le_refl _
      · exact f.nearest_le_top _ _
    · split
      · exact Nat.zero_le _
      · exact f.nearest_le_top _ _

end Format

/-- A number of a format: not a number, or a sign and the rank of a magnitude. -/
inductive Binary (f : Format) where
  | nan
  | number (negative : Bool) (rank : Nat) (bounded : rank ≤ f.top)
  deriving DecidableEq

namespace Binary

variable {f : Format}

def infinity (negative : Bool) : Binary f := .number negative f.top (Nat.le_refl _)

def ofDecimal (f : Format) (negative : Bool) (digits : Nat) (exponent : Int) : Binary f :=
  .number negative (f.nearestDecimal digits exponent) (f.nearestDecimal_le_top digits exponent)

def isFinite : Binary f → Bool
  | .nan => false
  | .number _ rank _ => rank < f.top

/-- The place of a number on the line, both zeros at the same one. -/
def place (negative : Bool) (rank : Nat) : Int := if negative then -(rank : Int) else rank

/-- The numeric order. Nothing is less than, or greater than, a value that is not a number. -/
def less : Binary f → Binary f → Bool
  | .number s r _, .number s' r' _ => place s r < place s' r'
  | _, _ => false

/-- Numeric equality: the zeros are equal, and a value that is not a number equals nothing. -/
def same : Binary f → Binary f → Bool
  | .number s r _, .number s' r' _ => place s r == place s' r'
  | _, _ => false

end Binary

end Intake.Numeral
