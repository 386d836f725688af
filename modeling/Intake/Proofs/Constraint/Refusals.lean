import Intake.Coercion
import Intake.Constraint

/-!
# Refusals

What a scalar is refused with, entry by entry: the code, the message and the parameters for every
fault of coercion, and for every constraint that a value does not meet.
-/

namespace Intake

inductive CoercionFault.ToldBy : CoercionFault → Violation → Prop where
  | typeMismatch {expected : Kind} {actual : Json.Form} :
      (CoercionFault.typeMismatch expected actual).ToldBy
        ⟨"type_mismatch",
          s!"type mismatch: expected {expected.name} but got raw type {actual.name}", none,
          [("expected", expected.name), ("actual", actual.name)]⟩
  | invalidFormat {input : String} {expected : Kind} :
      (CoercionFault.invalidFormat input expected).ToldBy
        ⟨"invalid_format", s!"could not parse '{input}' as {expected.name}", none,
          [("expected", expected.name)]⟩
  | floatToInteger {input : String} {expected : Kind} :
      (CoercionFault.floatToInteger input expected).ToldBy
        ⟨"invalid_format", s!"cannot assign float value {input} to integer type {expected.name}",
          none, [("expected", expected.name)]⟩
  | overflow {input : String} {expected : Kind} :
      (CoercionFault.overflow input expected).ToldBy
        ⟨"overflow", s!"value {input} overflows type {expected.name}", none,
          [("target", expected.name)]⟩
  | invalidTimestamp {input : String} :
      (CoercionFault.invalidTimestamp input).ToldBy
        ⟨"invalid_format", s!"incorrect date format for string '{input}'", none,
          [("expected", "timestamp")]⟩

theorem CoercionFault.toldBy_iff (fault : CoercionFault) (v : Violation) :
    fault.ToldBy v ↔ fault.toViolation = v := by
  constructor
  · intro told
    cases told <;> rfl
  · rintro rfl
    cases fault with
    | typeMismatch => exact .typeMismatch
    | invalidFormat => exact .invalidFormat
    | floatToInteger => exact .floatToInteger
    | overflow => exact .overflow
    | invalidTimestamp => exact .invalidTimestamp

namespace Constraint

inductive Refuses : {k : Kind} → Constraint k → k.Carrier → Violation → Prop where
  | short {unit : LengthUnit} {min : Nat} {s : String} (less : unit.measure s < min) :
      (length unit (.atLeast min)).Refuses s
        ⟨"min_length", s!"Must be at least {min} characters", none,
          [("min", toString min), ("actual", toString (unit.measure s))]⟩
  | long {unit : LengthUnit} {max : Nat} {s : String} (more : max < unit.measure s) :
      (length unit (.atMost max)).Refuses s
        ⟨"max_length", s!"Must be at most {max} characters", none,
          [("max", toString max), ("actual", toString (unit.measure s))]⟩
  | otherLength {unit : LengthUnit} {expected : Nat} {s : String}
      (other : unit.measure s ≠ expected) :
      (length unit (.exactly expected)).Refuses s
        ⟨"exact_length", s!"Must be exactly {expected} characters", none,
          [("expected", toString expected), ("actual", toString (unit.measure s))]⟩
  | lengthOutside {unit : LengthUnit} {min max : Nat} {s : String}
      (outside : unit.measure s < min ∨ max < unit.measure s) :
      (length unit (.between min max)).Refuses s
        ⟨"length_between", s!"Length must be between {min} and {max}", none,
          [("min", toString min), ("max", toString max), ("actual", toString (unit.measure s))]⟩
  | charset {rule : CharsetRule} {classes : List CharClass} {s listed : String}
      (refused : rule.allows classes s.toList = false)
      (names : listed = ", ".intercalate (classes.map CharClass.text)) :
      (charset rule classes).Refuses s
        ⟨rule.name, s!"Value {rule.demand} {listed}", none, [("charset", listed)]⟩
  | glob {pattern : Glob} {s : String} (refused : pattern.accepts s = false) :
      (glob pattern).Refuses s
        ⟨"match", s!"Value does not match pattern '{pattern.text}'", none,
          [("pattern", pattern.text)]⟩
  | email {s : String} (refused : Email.isAddress s.toList = false) :
      email.Refuses s ⟨"email", "Value is not a valid email address", none, []⟩
  | url {s : String} (refused : Url.hasHost s.toList = false) :
      url.Refuses s ⟨"url", "Value is not a valid URL", none, []⟩
  | decimal {shape : DecimalShape} {s : String} {fault : DecimalShape.Fault}
      (failed : shape.fault? s.toList = some fault) :
      (decimal shape).Refuses s
        ⟨"decimal",
          "Value is not a valid " ++ s!"decimal({shape.precision},{shape.scale})" ++ ": " ++
            fault.text, none,
          [("precision", toString shape.precision), ("scale", toString shape.scale)]⟩
  | notTrue : isTrue.Refuses false
      ⟨"be_true", "Value must be true", none, [("expected", "true"), ("actual", "false")]⟩
  | notFalse : isFalse.Refuses true
      ⟨"be_false", "Value must be false", none, [("expected", "false"), ("actual", "true")]⟩
  | compare {k : Kind} {relation : Relation} {bound a : k.Carrier}
      (fails : relation.holds k a bound = false) :
      (compare relation bound).Refuses a
        ⟨relation.name, s!"Value must be {relation.text} {k.text bound}", none,
          [("bound", k.text bound), ("actual", k.text a)]⟩
  | outside {k : Kind} {min max a : k.Carrier}
      (fails : Relation.greaterOrEqual.holds k a min = false ∨
        Relation.lessOrEqual.holds k a max = false) :
      (between min max).Refuses a
        ⟨"between", s!"Value must be between {k.text min} and {k.text max}", none,
          [("min", k.text min), ("max", k.text max), ("actual", k.text a)]⟩
  | otherThan {k : Kind} {allowed : List k.Carrier} {a : k.Carrier} {listed : String}
      (other : ∀ b ∈ allowed, k.same b a = false)
      (texts : listed = ", ".intercalate (allowed.map k.text)) :
      (oneOf allowed).Refuses a
        ⟨"one_of", s!"Value must be one of [{listed}]", none, [("allowed", listed)]⟩
  | custom {k : Kind} {name : String} {check : k.Carrier → Option Violation} {a : k.Carrier}
      {v : Violation} (failed : check a = some v) : (custom name check).Refuses a v

variable {k : Kind} {c : Constraint k} {a : k.Carrier} {v : Violation}

theorem Refuses.violation?_eq (refused : c.Refuses a v) : c.violation? a = some v := by
  cases refused with
  | short less => exact if_neg (by simpa [LengthRule.allows] using less)
  | long more => exact if_neg (by simpa [LengthRule.allows] using more)
  | otherLength other => exact if_neg (by simpa [LengthRule.allows] using other)
  | lengthOutside outside =>
    refine if_neg ?_
    simp only [LengthRule.allows, Bool.and_eq_true, decide_eq_true_iff]
    omega
  | charset refused names =>
    subst names
    exact if_neg (Bool.eq_false_iff.mp refused)
  | glob refused => exact if_neg (Bool.eq_false_iff.mp refused)
  | email refused => exact if_neg (Bool.eq_false_iff.mp refused)
  | url refused => exact if_neg (Bool.eq_false_iff.mp refused)
  | decimal failed =>
    rw [violation?, failed]
    rfl
  | notTrue => rfl
  | notFalse => rfl
  | compare fails => exact if_neg (Bool.eq_false_iff.mp fails)
  | outside fails =>
    refine if_neg ?_
    rw [Bool.not_eq_true, Bool.and_eq_false_iff]
    exact fails
  | otherThan other texts =>
    subst texts
    exact if_neg (by simpa using other)
  | custom failed => exact failed

theorem refusal_of_ite {met : Bool} {w : Violation}
    (failed : (if met then none else some w) = some v) : met = false ∧ w = v := by
  cases met with
  | true => cases failed
  | false => exact ⟨rfl, Option.some.inj failed⟩

theorem refuses_of_violation? (failed : c.violation? a = some v) : c.Refuses a v := by
  cases c with
  | length unit rule =>
    obtain ⟨refused, rfl⟩ := refusal_of_ite failed
    cases rule with
    | atLeast min => exact .short (by simpa [LengthRule.allows] using refused)
    | atMost max => exact .long (by simpa [LengthRule.allows] using refused)
    | exactly expected => exact .otherLength (by simpa [LengthRule.allows] using refused)
    | between min max =>
      simp only [LengthRule.allows, Bool.and_eq_false_iff, decide_eq_false_iff_not,
        Nat.not_le] at refused
      exact .lengthOutside refused
  | charset rule classes =>
    obtain ⟨refused, rfl⟩ := refusal_of_ite failed
    exact .charset refused rfl
  | glob pattern =>
    obtain ⟨refused, rfl⟩ := refusal_of_ite failed
    exact .glob refused
  | email =>
    obtain ⟨refused, rfl⟩ := refusal_of_ite failed
    exact .email refused
  | url =>
    obtain ⟨refused, rfl⟩ := refusal_of_ite failed
    exact .url refused
  | decimal shape =>
    obtain ⟨fault, found, rfl⟩ := Option.map_eq_some_iff.mp failed
    exact .decimal found
  | isTrue =>
    cases a with
    | true => cases failed
    | false => exact Option.some.inj failed ▸ .notTrue
  | isFalse =>
    cases a with
    | true => exact Option.some.inj failed ▸ .notFalse
    | false => cases failed
  | compare relation bound =>
    obtain ⟨fails, rfl⟩ := refusal_of_ite failed
    exact .compare fails
  | between min max =>
    obtain ⟨fails, rfl⟩ := refusal_of_ite failed
    exact .outside (Bool.and_eq_false_iff.mp fails)
  | oneOf allowed =>
    obtain ⟨fails, rfl⟩ := refusal_of_ite failed
    exact .otherThan (by simpa using fails) rfl
  | custom name check => exact .custom failed

/-- A constraint refuses a value for what is written here, and for nothing else. -/
theorem violation?_eq_some_iff : c.violation? a = some v ↔ c.Refuses a v :=
  ⟨refuses_of_violation?, Refuses.violation?_eq⟩

theorem violation?_eq_none_iff : c.violation? a = none ↔ ∀ v, ¬ c.Refuses a v := by
  simp only [Option.eq_none_iff_forall_ne_some, ne_eq, violation?_eq_some_iff]

end Constraint

end Intake
