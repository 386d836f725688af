import Intake.Calendar.Writing
import Intake.Numeral.Integer
import Intake.Numeral.Layout

/-!
# Kinds of scalars

The thirteen kinds of scalar values, the values of each, their order and
equality, and their text in messages.
-/

namespace Intake

inductive IntKind where
  | i8
  | i16
  | i32
  | i64
  | u8
  | u16
  | u32
  | u64
  deriving DecidableEq, Repr

namespace IntKind

def name : IntKind → String
  | .i8 => "i8"
  | .i16 => "i16"
  | .i32 => "i32"
  | .i64 => "i64"
  | .u8 => "u8"
  | .u16 => "u16"
  | .u32 => "u32"
  | .u64 => "u64"

def isSigned : IntKind → Bool
  | .i8 | .i16 | .i32 | .i64 => true
  | .u8 | .u16 | .u32 | .u64 => false

def low : IntKind → Int
  | .i8 => -128
  | .i16 => -32768
  | .i32 => -2147483648
  | .i64 => -9223372036854775808
  | .u8 | .u16 | .u32 | .u64 => 0

def high : IntKind → Int
  | .i8 => 127
  | .i16 => 32767
  | .i32 => 2147483647
  | .i64 => 9223372036854775807
  | .u8 => 255
  | .u16 => 65535
  | .u32 => 4294967295
  | .u64 => 18446744073709551615

structure Number (k : IntKind) where
  value : Int
  in_range : k.low ≤ value ∧ value ≤ k.high
  deriving DecidableEq

def ofInt? (k : IntKind) (n : Int) : Option k.Number :=
  if h : k.low ≤ n ∧ n ≤ k.high then some ⟨n, h⟩ else none

theorem ofInt?_eq_some_iff (k : IntKind) (n : Int) (v : k.Number) :
    k.ofInt? n = some v ↔ v.value = n := by
  unfold ofInt?
  split
  · next h =>
    simp only [Option.some.injEq]
    constructor
    · rintro rfl; rfl
    · intro e; cases v; simp_all
  · next h =>
    simp only [reduceCtorEq, false_iff]
    intro e
    exact h (e ▸ v.in_range)

end IntKind

inductive FloatKind where
  | f32
  | f64
  deriving DecidableEq, Repr

namespace FloatKind

def name : FloatKind → String
  | .f32 => "f32"
  | .f64 => "f64"

def format : FloatKind → Numeral.Format
  | .f32 => .single
  | .f64 => .double

end FloatKind

inductive Kind where
  | string
  | bool
  | int (k : IntKind)
  | float (k : FloatKind)
  | timestamp
  deriving DecidableEq, Repr

namespace Kind

def name : Kind → String
  | .string => "string"
  | .bool => "bool"
  | .int k => k.name
  | .float k => k.name
  | .timestamp => "timestamp"

abbrev Carrier : Kind → Type
  | .string => String
  | .bool => Bool
  | .int k => k.Number
  | .float k => Numeral.Binary k.format
  | .timestamp => Calendar.Timestamp

/-- The order of a kind. Floats that are not a number are less than nothing and nothing is less
than they are; timestamps are ordered by their instants. -/
def less : (k : Kind) → k.Carrier → k.Carrier → Bool
  | .string, a, b => decide ((a : String) < b)
  | .bool, a, b => !(a : Bool) && b
  | .int _, a, b => decide (a.value < b.value)
  | .float _, a, b => Numeral.Binary.less a b
  | .timestamp, a, b => Calendar.Timestamp.less a b

/-- The equality of a kind. It is not identity: the two zeros are equal, a float that is not a
number differs from itself, and timestamps are equal at the same instant. -/
def same : (k : Kind) → k.Carrier → k.Carrier → Bool
  | .string, a, b => (a : String) == b
  | .bool, a, b => (a : Bool) == b
  | .int _, a, b => a.value == b.value
  | .float _, a, b => Numeral.Binary.same a b
  | .timestamp, a, b => Calendar.Timestamp.same a b

def text : (k : Kind) → k.Carrier → String
  | .string, a => a
  | .bool, a => if a then "true" else "false"
  | .int _, a => Numeral.integerText a.value
  | .float _, a => Numeral.Binary.text a
  | .timestamp, a => Calendar.Timestamp.text a

end Kind

end Intake
