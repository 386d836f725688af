/-!
# Violations

What is wrong with a value: a code for programs, a message for people, the path
it was reported under, and parameters in order.
-/

namespace Intake

structure Violation where
  code : String
  message : String
  field? : Option String
  params : List (String × String)
  deriving DecidableEq, Repr

namespace Violation

def of (code message : String) : Violation := ⟨code, message, none, []⟩

def withField (v : Violation) (path : String) : Violation := { v with field? := some path }

def withParam (v : Violation) (key value : String) : Violation :=
  { v with params := v.params ++ [(key, value)] }

def param? (v : Violation) (key : String) : Option String :=
  (v.params.find? (fun p => p.1 == key)).map Prod.snd

def text (v : Violation) : String :=
  match v.field? with
  | some path => s!"{path}: {v.message}"
  | none => v.message

def required (name : String) : Violation := of "required" s!"{name} is required but not found"

def minLength (min actual : Nat) : Violation :=
  ((of "min_length" s!"Must be at least {min} characters").withParam "min" (toString min)).withParam
    "actual" (toString actual)

def maxLength (max actual : Nat) : Violation :=
  ((of "max_length" s!"Must be at most {max} characters").withParam "max" (toString max)).withParam
    "actual" (toString actual)

def invalidFormat (expected message : String) : Violation :=
  (of "invalid_format" message).withParam "expected" expected

def typeMismatch (expected actual : String) : Violation :=
  ((of "type_mismatch" s!"type mismatch: expected {expected} but got raw type {actual}").withParam
    "expected" expected).withParam "actual" actual

def outOfRange (min max actual : String) : Violation :=
  (((of "between" s!"Value must be between {min} and {max}").withParam "min" min).withParam
    "max" max).withParam "actual" actual

def custom (message : String) : Violation := of "custom" message

end Violation

end Intake
