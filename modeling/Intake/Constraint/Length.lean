import Intake.Violation

/-!
# Length constraints

Bounds on the length of a text, counted in bytes of UTF-8 or in characters.
-/

namespace Intake

inductive LengthUnit where
  | bytes
  | chars
  deriving DecidableEq, Repr

def LengthUnit.measure : LengthUnit → String → Nat
  | .bytes, s => s.utf8ByteSize
  | .chars, s => s.length

/-- Lengths are counted in characters where nothing else is said. -/
instance : Inhabited LengthUnit := ⟨.chars⟩

inductive LengthRule where
  | atLeast (min : Nat)
  | atMost (max : Nat)
  | exactly (length : Nat)
  | between (min max : Nat)
  deriving DecidableEq, Repr

namespace LengthRule

def name : LengthRule → String
  | .atLeast _ => "min_length"
  | .atMost _ => "max_length"
  | .exactly _ => "exact_length"
  | .between _ _ => "length_between"

def allows : LengthRule → Nat → Bool
  | .atLeast min, n => decide (min ≤ n)
  | .atMost max, n => decide (n ≤ max)
  | .exactly length, n => n == length
  | .between min max, n => decide (min ≤ n) && decide (n ≤ max)

def violation (r : LengthRule) (actual : Nat) : Violation :=
  match r with
  | .atLeast min => .minLength min actual
  | .atMost max => .maxLength max actual
  | .exactly length =>
    ((Violation.of r.name s!"Must be exactly {length} characters").withParam
      "expected" (toString length)).withParam "actual" (toString actual)
  | .between min max =>
    (((Violation.of r.name s!"Length must be between {min} and {max}").withParam
      "min" (toString min)).withParam "max" (toString max)).withParam "actual" (toString actual)

end LengthRule

end Intake
