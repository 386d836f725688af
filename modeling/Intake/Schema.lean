import Intake.Schema.Column

/-!
# Schemas

A schema is a list of fields with distinct names. A field holds a scalar, an
array of scalars, an object with a schema of its own, or an array of such
objects. Fields are made from drafts, and schemas from lists of fields; both
checks give the first error there is.
-/

namespace Intake

/-- What one scalar must be: a kind, and constraints with distinct names. -/
structure Element where
  kind : Kind
  constraints : List (Constraint kind)
  distinct : (constraints.map Constraint.name).Nodup

mutual

inductive Shape where
  | scalar (element : Element)
  | array (element : Element)
  | object (schema : Schema)
  | objects (schema : Schema)

/-- A field: its name in documents, and the name under which its value is stored if that is
another one. -/
structure Field where
  name : String
  qualified? : Option String
  required : Bool
  shape : Shape
  name_ok : IsLeafName name
  qualified_ok : ∀ q ∈ qualified?, IsQualifiedName q

/-- Fields in the order of their definition, and whether other keys are let through. -/
structure Schema where
  fields : List Field
  permissive : Bool

end

namespace Field

def uniqueName (f : Field) : String := f.qualified?.getD f.name

def isScalar (f : Field) : Bool :=
  match f.shape with
  | .scalar _ => true
  | _ => false

def kind? (f : Field) : Option Kind :=
  match f.shape with
  | .scalar element | .array element => some element.kind
  | .object _ | .objects _ => none

def constraintNames (f : Field) : List String :=
  match f.shape with
  | .scalar element | .array element => element.constraints.map Constraint.name
  | .object _ | .objects _ => []

def schema? (f : Field) : Option Schema :=
  match f.shape with
  | .object schema | .objects schema => some schema
  | .scalar _ | .array _ => none

end Field

/-! ### Drafts of fields -/

/-- A field that is being made: its names, and what it holds one or many of. -/
structure FieldDraft (α : Type) where
  name : String
  qualified? : Option String
  required : Bool
  isArray : Bool
  content : α

namespace FieldDraft

variable {α : Type} {kind : Kind}

/-- A required field without a qualified name. -/
def of (name : String) (isArray : Bool) (content : α) : FieldDraft α :=
  ⟨name, none, true, isArray, content⟩

def scalar (kind : Kind) (name : String) : FieldDraft (List (Constraint kind)) := of name false []

def array (kind : Kind) (name : String) : FieldDraft (List (Constraint kind)) := of name true []

def object (name : String) (schema : Schema) : FieldDraft Schema := of name false schema

def objects (name : String) (schema : Schema) : FieldDraft Schema := of name true schema

/-- A field for a column: under the name in the view, stored under the qualified name, with the
constraints of the column. -/
def ofColumn (c : Column kind) (isArray : Bool) : FieldDraft (List (Constraint kind)) :=
  ⟨c.view, some c.qualifiedName, true, isArray, c.constraints⟩

def optional (d : FieldDraft α) : FieldDraft α := { d with required := false }

def qualified (d : FieldDraft α) (name : String) : FieldDraft α := { d with qualified? := some name }

def withConstraint (d : FieldDraft (List (Constraint kind))) (constraint : Constraint kind) :
    FieldDraft (List (Constraint kind)) := { d with content := d.content ++ [constraint] }

/-- The field of a draft whose names are right, whatever it holds. -/
def named (d : FieldDraft α) : Except DefinitionError (Shape → Field) := do
  let ⟨name_ok⟩ ← checkLeafName d.name
  match d.qualified? with
  | none => return fun shape => ⟨d.name, none, d.required, shape, name_ok, by simp⟩
  | some q =>
    let ⟨q_ok⟩ ← checkQualifiedName q
    return fun shape => ⟨d.name, some q, d.required, shape, name_ok, by simpa using q_ok⟩

/-- Finishes a field of scalars. No two of its constraints may have the same name. -/
def build (d : FieldDraft (List (Constraint kind))) : Except DefinitionError Field := do
  let field ← d.named
  match h : firstRepeated (d.content.map Constraint.name) with
  | some constraint => throw (.duplicateConstraint d.name constraint)
  | none =>
    let element : Element := ⟨kind, d.content, (firstRepeated_eq_none_iff _).mp h⟩
    return field (if d.isArray then .array element else .scalar element)

def buildObject (d : FieldDraft Schema) : Except DefinitionError Field := do
  let field ← d.named
  return field (if d.isArray then .objects d.content else .object d.content)

end FieldDraft

/-! ### Schemas from fields -/

namespace Schema

/-- The first field that has the name, or else the qualified name, of an earlier one. -/
def firstClash (names qualified : List String) : List Field → Option DefinitionError
  | [] => none
  | f :: rest =>
    if f.name ∈ names then some (.duplicateField f.name)
    else
      match f.qualified? with
      | none => firstClash (f.name :: names) qualified rest
      | some q =>
        if q ∈ qualified then some (.duplicateQualifiedName q)
        else firstClash (f.name :: names) (q :: qualified) rest

/-- The strict schema of some fields. -/
def define (fields : List Field) : Except DefinitionError Schema :=
  match firstClash [] [] fields with
  | none => .ok ⟨fields, false⟩
  | some e => .error e

def allowUnknown (s : Schema) : Schema := { s with permissive := true }

/-- The schema with the fields of both; it lets other keys through if one of the two does. -/
def extend (s t : Schema) : Except DefinitionError Schema :=
  match firstClash [] [] (s.fields ++ t.fields) with
  | none => .ok ⟨s.fields ++ t.fields, s.permissive || t.permissive⟩
  | some e => .error e

def field? (s : Schema) (name : String) : Option Field := s.fields.find? (·.name == name)

def declares (s : Schema) (key : String) : Bool := (s.field? key).isSome

end Schema

end Intake
