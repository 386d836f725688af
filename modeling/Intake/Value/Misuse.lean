import Intake.Value

/-!
# Misuse of values

Requests that no value can answer: a wrong type, a wrong index, or an edit of an
entry that may not be made.
-/

namespace Intake

inductive ValueType where
  /-- Any value, as it is. -/
  | any
  /-- Any array, as the list of its items. -/
  | sequence
  | object
  | scalar (kind : Kind)
  /-- An array whose items are read as a type. -/
  | listOf (element : ValueType)
  deriving DecidableEq

def ValueType.name : ValueType → String
  | .any => "value"
  | .sequence => "array"
  | .object => "object"
  | .scalar kind => kind.name
  | .listOf element => "array of " ++ element.name

inductive PathFault where
  | notAnIndex (segment : String)
  | outOfBounds (index length : Nat)
  deriving DecidableEq

inductive Misuse where
  | badPath (fault : PathFault) (path : String)
  | typeMismatch (path : String) (expected : ValueType) (found : String)
  | notFound (path : String)
  | dottedKey (key : String)
  | keyExists (key : String)
  | keyMissing (key : String)
  deriving DecidableEq

def Misuse.message : Misuse → String
  | .badPath (.notAnIndex segment) path =>
    s!"path part '{segment}' in '{path}' is not a valid integer index"
  | .badPath (.outOfBounds index length) path =>
    s!"array index {index} out of bounds in '{path}' (length {length})"
  | .typeMismatch path expected found =>
    s!"type mismatch at path '{path}': expected {expected.name} but found {found}"
  | .notFound path => s!"no value found at path '{path}'"
  | .dottedKey key => s!"key '{key}' must not contain '.'"
  | .keyExists key => s!"key '{key}' already exists"
  | .keyMissing key => s!"key '{key}' does not exist"

end Intake
