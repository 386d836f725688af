import Intake.Value.Misuse

/-!
# Edits of objects

Adding an entry and replacing one. An edit that may not be made gives its cause.
-/

namespace Intake.Object

/-- The object with a new entry at its end. The key must be free of dots and not in use. -/
def add (o : Object) (key : String) (value : Value) : Except Misuse Object :=
  if '.' ∈ key.toList then .error (.dottedKey key)
  else if o.contains key then .error (.keyExists key)
  else .ok (o.put key value)

def update (o : Object) (key : String) (value : Value) : Except Misuse Object :=
  if o.contains key then .ok (o.put key value) else .error (.keyMissing key)

end Intake.Object
