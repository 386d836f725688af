import Intake.Json.Basic
import Intake.Numeral.Literal
import Intake.Value

/-!
# Values and JSON

The JSON tree of a value, and the value of a JSON tree whose type nothing
declares.
-/

namespace Intake

/-- A scalar as JSON. A float that is not finite has no number, and becomes null. -/
def Kind.toJson : (k : Kind) → k.Carrier → Json
  | .string, s => .string s
  | .bool, b => .bool b
  | .int _, n => .number (Numeral.integerText n.value).toList
  | .float k, x => if x.isFinite then .number ((Numeral.Layout.json k.format).write x) else .null
  | .timestamp, t => .string (String.ofList (Calendar.Timestamp.toJsonText t))

mutual

def Value.toJson : Value → Json
  | .scalar kind a => kind.toJson a
  | .array items => .array (itemsToJson items)
  | .object o => o.toJson

def itemsToJson : List Value → List Json
  | [] => []
  | item :: rest => item.toJson :: itemsToJson rest

def Object.toJson : Object → Json
  | ⟨entries⟩ => .object (entriesToJson entries)

def entriesToJson : List (String × Value) → List (String × Json)
  | [] => []
  | (key, value) :: rest => (key, value.toJson) :: entriesToJson rest

end

/-- The text of a number as a value: an `i64`, else a `u64`, else a finite `f64`. -/
def untypedNumber (text : List Char) : Option Value :=
  match (Numeral.readSigned Numeral.maxSigned text).toOption.bind (IntKind.i64.ofInt? ·) with
  | some n => some (.scalar (.int .i64) n)
  | none =>
    match (Numeral.readUnsigned Numeral.maxUnsigned text).toOption.bind (IntKind.u64.ofInt? ·) with
    | some n => some (.scalar (.int .u64) n)
    | none =>
      match (Numeral.Literal.read? text).map (·.toBinary .double) with
      | some x => if x.isFinite then some (.scalar (.float .f64) x) else none
      | none => none

mutual

/-- A JSON tree as a value. Null has none, nor has a number too large for every type; both are
left out of arrays and objects. -/
def Value.ofJson? : Json → Option Value
  | .null => none
  | .bool b => some (.bool b)
  | .number text => untypedNumber text
  | .string s => some (.string s)
  | .array items => some (.array (itemsOfJson items))
  | .object members => some (.object ⟨entriesOfJson members⟩)

def itemsOfJson : List Json → List Value
  | [] => []
  | item :: rest =>
    match Value.ofJson? item with
    | some v => v :: itemsOfJson rest
    | none => itemsOfJson rest

def entriesOfJson : List (String × Json) → List (String × Value)
  | [] => []
  | (key, node) :: rest =>
    match Value.ofJson? node with
    | some v => (key, v) :: entriesOfJson rest
    | none => entriesOfJson rest

end

end Intake
