import Intake.Value.Path

/-!
# Typed reading

Values read as a type. A value of another type is a misuse, and so is a value
that must be there and is not.
-/

namespace Intake

namespace ValueType

abbrev Carrier : ValueType → Type
  | .any => Value
  | .sequence => List Value
  | .object => Object
  | .scalar kind => kind.Carrier
  | .listOf element => List element.Carrier

/-- Reads a value as a type. An array is read item by item, and fails if an item does. -/
def read? : (t : ValueType) → Value → Option t.Carrier
  | .any, v => some v
  | .sequence, .array items => some items
  | .object, .object o => some o
  | .scalar kind, .scalar kind' a => if h : kind' = kind then some (h ▸ a) else none
  | .listOf element, .array items => items.mapM element.read?
  | _, _ => none

def toValue : (t : ValueType) → t.Carrier → Value
  | .any, v => v
  | .sequence, items => .array items
  | .object, o => .object o
  | .scalar kind, a => .scalar kind a
  | .listOf element, items => .array (items.map element.toValue)

end ValueType

namespace Object

def getAs (o : Object) (t : ValueType) (path : String) : Except Misuse (Option t.Carrier) := do
  match ← o.get path with
  | none => return none
  | some value =>
    match t.read? value with
    | some read => return some read
    | none => throw (.typeMismatch path t value.typeName)

def mustGetAs (o : Object) (t : ValueType) (path : String) : Except Misuse t.Carrier := do
  match ← o.getAs t path with
  | some read => return read
  | none => throw (.notFound path)

end Object

end Intake
