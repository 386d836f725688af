import Intake.Calendar.Reading
import Intake.Json.Basic
import Intake.Kind
import Intake.Numeral.Literal
import Intake.Violation

/-!
# Coercion

Reading a JSON value or a text as a scalar of a kind. JSON values must have the
right form; only floats are also read from strings. Integers from JSON must
stand in their canonical text.
-/

namespace Intake

inductive CoercionFault where
  /-- The JSON value has the wrong form. -/
  | typeMismatch (expected : Kind) (actual : Json.Form)
  /-- The text is no literal of the kind. -/
  | invalidFormat (input : String) (expected : Kind)
  /-- A fraction or an exponent where an integer is expected. -/
  | floatToInteger (input : String) (expected : Kind)
  /-- The number does not fit the kind. -/
  | overflow (input : String) (expected : Kind)
  /-- The text has none of the layouts of timestamps. -/
  | invalidTimestamp (input : String)
  deriving DecidableEq

namespace CoercionFault

def message : CoercionFault → String
  | .typeMismatch expected actual =>
    s!"type mismatch: expected {expected.name} but got raw type {actual.name}"
  | .invalidFormat input expected => s!"could not parse '{input}' as {expected.name}"
  | .floatToInteger input expected =>
    s!"cannot assign float value {input} to integer type {expected.name}"
  | .overflow input expected => s!"value {input} overflows type {expected.name}"
  | .invalidTimestamp input => s!"incorrect date format for string '{input}'"

def code : CoercionFault → String
  | .typeMismatch _ _ => "type_mismatch"
  | .invalidFormat _ _ | .floatToInteger _ _ | .invalidTimestamp _ => "invalid_format"
  | .overflow _ _ => "overflow"

def toViolation (f : CoercionFault) : Violation :=
  match f with
  | .typeMismatch expected actual => .typeMismatch expected.name actual.name
  | .invalidFormat _ expected | .floatToInteger _ expected =>
    .invalidFormat expected.name f.message
  | .invalidTimestamp _ => .invalidFormat Kind.timestamp.name f.message
  | .overflow _ expected => (Violation.of f.code f.message).withParam "target" expected.name

end CoercionFault

namespace IntKind

def hasFraction (cs : List Char) : Bool := cs.any fun c => c == '.' || c == 'e' || c == 'E'

/-- Reads a text as an integer of the widest kind with the same sign. -/
def readWide (k : IntKind) (cs : List Char) : Except Numeral.IntegerFault Int :=
  if k.isSigned then Numeral.readSigned Numeral.maxSigned cs
  else
    match cs with
    | '-' :: _ => .error .outOfRange
    | cs => (Numeral.readUnsigned Numeral.maxUnsigned cs).map Int.ofNat

def ofText (k : IntKind) (text : String) : Except CoercionFault k.Number :=
  if hasFraction text.toList then .error (.floatToInteger text (.int k))
  else
    match k.readWide text.toList with
    | .error .malformed => .error (.invalidFormat text (.int k))
    | .error .outOfRange => .error (.overflow text (.int k))
    | .ok n =>
      match k.ofInt? n with
      | some v => .ok v
      | none => .error (.overflow text (.int k))

def ofNumber (k : IntKind) (text : String) : Except CoercionFault k.Number :=
  if '.' ∈ text.toList then .error (.floatToInteger text (.int k))
  else if hasFraction text.toList then .error (.overflow text (.int k))
  else
    match k.ofText text with
    | .error fault => .error fault
    | .ok v =>
      if Numeral.integerText v.value = text then .ok v else .error (.overflow text (.int k))

end IntKind

namespace FloatKind

open Numeral

/-- Whether a decimal is beyond the finite numbers of a kind, as it is read with the widest
precision. At the widest kind none is; the words for infinity name no decimal. -/
def overflows : FloatKind → Literal → Bool
  | .f32, .decimal _ digits exponent =>
    let greatest := Format.single.units (Format.single.top - 1) *
      Nat.pow 2 (Format.double.depth - Format.single.depth)
    decide (greatest < Format.double.units (Format.double.nearestDecimal digits exponent))
  | _, _ => false

def ofText (k : FloatKind) (text : String) : Except CoercionFault (Binary k.format) :=
  match Literal.read? text.toList with
  | none => .error (.invalidFormat text (.float k))
  | some literal =>
    if k.overflows literal then .error (.overflow text (.float k))
    else .ok (literal.toBinary k.format)

end FloatKind

namespace Kind

def readBool (text : String) : Option Bool :=
  if text ∈ ["1", "t", "T", "TRUE", "true", "True"] then some true
  else if text ∈ ["0", "f", "F", "FALSE", "false", "False"] then some false
  else none

def ofText : (k : Kind) → String → Except CoercionFault k.Carrier
  | .string, text => .ok text
  | .bool, text =>
    match readBool text with
    | some b => .ok b
    | none => .error (.invalidFormat text .bool)
  | .int k, text => k.ofText text
  | .float k, text => k.ofText text
  | .timestamp, text =>
    match Calendar.Timestamp.read? text.toList with
    | some t => .ok t
    | none => .error (.invalidTimestamp text)

def ofJson : (k : Kind) → Json → Except CoercionFault k.Carrier
  | .string, .string s => .ok s
  | .bool, .bool b => .ok b
  | .int k, .number text => k.ofNumber (String.ofList text)
  | .float k, .number text => k.ofText (String.ofList text)
  | .float k, .string s => k.ofText s
  | .timestamp, .string s => Kind.timestamp.ofText s
  | k, node => .error (.typeMismatch k node.form)

end Kind

end Intake
