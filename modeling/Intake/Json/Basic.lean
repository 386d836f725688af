/-!
# JSON trees

A number keeps its text. The members of an object that was read stand in key
order, one for each key.
-/

namespace Intake

inductive Json where
  | null
  | bool (value : Bool)
  | number (text : List Char)
  | string (text : String)
  | array (items : List Json)
  | object (members : List (String × Json))

namespace Json

inductive Form where
  | null
  | bool
  | number
  | string
  | array
  | object
  deriving DecidableEq, Repr

def Form.name : Form → String
  | .null => "null"
  | .bool => "bool"
  | .number => "number"
  | .string => "string"
  | .array => "array"
  | .object => "object"

def form : Json → Form
  | .null => .null
  | .bool _ => .bool
  | .number _ => .number
  | .string _ => .string
  | .array _ => .array
  | .object _ => .object

end Json

end Intake
