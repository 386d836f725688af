import Intake.Constraint.Charset
import Intake.Constraint.Decimal
import Intake.Constraint.Email
import Intake.Constraint.Glob
import Intake.Constraint.Length
import Intake.Kind
import Intake.Url

/-!
# Constraints

Named conditions on the values of a kind. A value that does not meet a
constraint has a violation.
-/

namespace Intake

inductive Relation where
  | greater
  | greaterOrEqual
  | less
  | lessOrEqual
  deriving DecidableEq, Repr

namespace Relation

def name : Relation → String
  | .greater => "gt"
  | .greaterOrEqual => "gte"
  | .less => "lt"
  | .lessOrEqual => "lte"

def text : Relation → String
  | .greater => "greater than"
  | .greaterOrEqual => "greater than or equal to"
  | .less => "less than"
  | .lessOrEqual => "less than or equal to"

def holds (r : Relation) (k : Kind) (value bound : k.Carrier) : Bool :=
  match r with
  | .greater => k.less bound value
  | .greaterOrEqual => k.less bound value || k.same value bound
  | .less => k.less value bound
  | .lessOrEqual => k.less value bound || k.same value bound

end Relation

inductive Constraint : Kind → Type where
  | length (unit : LengthUnit) (rule : LengthRule) : Constraint .string
  | charset (rule : CharsetRule) (classes : List CharClass) : Constraint .string
  | glob (pattern : Glob) : Constraint .string
  | email : Constraint .string
  | url : Constraint .string
  | decimal (shape : DecimalShape) : Constraint .string
  | isTrue : Constraint .bool
  | isFalse : Constraint .bool
  | compare {k : Kind} (relation : Relation) (bound : k.Carrier) : Constraint k
  | between {k : Kind} (min max : k.Carrier) : Constraint k
  | oneOf {k : Kind} (allowed : List k.Carrier) : Constraint k
  | custom {k : Kind} (name : String) (check : k.Carrier → Option Violation) : Constraint k

namespace Constraint

/-- The name of a constraint; a field has at most one of a name. -/
def name {k : Kind} : Constraint k → String
  | .length _ rule => rule.name
  | .charset rule _ => rule.name
  | .glob _ => "match"
  | .email => "email"
  | .url => "url"
  | .decimal shape => shape.name
  | .isTrue => "be_true"
  | .isFalse => "be_false"
  | .compare relation _ => relation.name
  | .between _ _ => "between"
  | .oneOf _ => "one_of"
  | .custom name _ => name

def truthViolation (name : String) (expected : Bool) : Violation :=
  ((Violation.of name s!"Value must be {expected}").withParam "expected" (toString expected)).withParam
    "actual" (toString (!expected))

def violation? {k : Kind} : Constraint k → k.Carrier → Option Violation
  | .length unit rule, s =>
    let n := unit.measure s
    if rule.allows n then none else some (rule.violation n)
  | .charset rule classes, s =>
    if rule.allows classes (String.toList s) then none else some (rule.violation classes)
  | .glob pattern, s =>
    if pattern.accepts s then none
    else
      some ((Violation.of "match" s!"Value does not match pattern '{pattern.text}'").withParam
        "pattern" pattern.text)
  | .email, s =>
    if Email.isAddress (String.toList s) then none
    else some (.of "email" "Value is not a valid email address")
  | .url, s =>
    if Url.hasHost (String.toList s) then none else some (.of "url" "Value is not a valid URL")
  | .decimal shape, s =>
    (shape.fault? (String.toList s)).map fun fault =>
      ((Violation.of "decimal" s!"Value is not a valid {shape.name}: {fault.text}").withParam
        "precision" (toString shape.precision)).withParam "scale" (toString shape.scale)
  | .isTrue, b => if b then none else some (truthViolation "be_true" true)
  | .isFalse, b => if b then some (truthViolation "be_false" false) else none
  | .compare relation bound, a =>
    if relation.holds k a bound then none
    else
      some (((Violation.of relation.name s!"Value must be {relation.text} {k.text bound}").withParam
        "bound" (k.text bound)).withParam "actual" (k.text a))
  | .between min max, a =>
    if Relation.greaterOrEqual.holds k a min && Relation.lessOrEqual.holds k a max then none
    else some (.outOfRange (k.text min) (k.text max) (k.text a))
  | .oneOf allowed, a =>
    if allowed.any (k.same · a) then none
    else
      let listed := ", ".intercalate (allowed.map k.text)
      some ((Violation.of "one_of" s!"Value must be one of [{listed}]").withParam "allowed" listed)
  | .custom _ check, a => check a

end Constraint

end Intake
