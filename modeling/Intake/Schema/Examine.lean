import Intake.Coercion
import Intake.Schema.Keys
import Intake.Value.Path

/-!
# Examination of an input

The values of the fields, in the order of the schema. Whatever is wrong is
reported, for each item of an array too; a value is stored only if nothing is
wrong with it. Embedded objects are examined in the same way, without overlay.
-/

namespace Intake

inductive Source where
  | node (json : Json)
  | text (text : String)

/-- The form of what a source gives; texts count as strings. -/
def Source.form : Source → Json.Form
  | .node json => json.form
  | .text _ => .string

/-- The source of a name, the document before the overlay. -/
def source? (document : Document) (overlay : Overlay) (name : String) : Option Source :=
  match Entries.lookup name document with
  | some json => some (.node json)
  | none => (overlay.find? name).map .text

namespace Element

/-- A value that meets all constraints; else the violation of the first that it does not meet. -/
def check (e : Element) (a : e.kind.Carrier) : Except Violation Value :=
  match e.constraints.findSome? (·.violation? a) with
  | some v => .error v
  | none => .ok (.scalar e.kind a)

def read (e : Element) (source : Source) : Except Violation Value :=
  let coerced := match source with
    | .node json => e.kind.ofJson json
    | .text text => e.kind.ofText text
  match coerced with
  | .error fault => .error fault.toViolation
  | .ok a => e.check a

end Element

def reportAt {α : Type} (path : String) : Except Violation α → Except Report α
  | .ok a => .ok a
  | .error v => .error (Report.empty.add path v)

def embed (path : String) : Except Report Object → Except Report Value
  | .ok o => .ok (.object o)
  | .error part => .error (Report.empty.mergeNested path part)

def itemPath (path : String) (index : Nat) : String := s!"{path}[{index}]"

/-- What has been found in the items so far with the value of one more, or with what is wrong with
it. -/
def noteItem (found : Report × List Value) : Except Report Value → Report × List Value
  | .ok value => (found.1, found.2 ++ [value])
  | .error report => (found.1.addAll report.entries, found.2)

/-- Examines the items of an array from an index on: all that is wrong with them, and the values
of the others, behind what has been found before. -/
def examineItems (path : String) (examine : String → Json → Except Report Value) (index : Nat)
    (found : Report × List Value) : List Json → Report × List Value
  | [] => found
  | item :: rest =>
    examineItems path examine (index + 1) (noteItem found (examine (itemPath path index) item)) rest

def examineArray (path : String) (examine : String → Json → Except Report Value) :
    Source → Except Report Value
  | .node (.array items) =>
    let (report, values) := examineItems path examine 0 (.empty, []) items
    report.toResult (.array values)
  | source => reportAt path (.error (.typeMismatch "array" source.form.name))

structure Findings where
  report : Report
  values : Object

namespace Findings

def none : Findings := ⟨.empty, .empty⟩

def note (f : Findings) (name : String) : Except Report Value → Findings
  | .ok value => { f with values := f.values.putAt name value }
  | .error found => { f with report := f.report.addAll found.entries }

end Findings

mutual

/-- Examines an input. Something wrong with its keys, or with the overlays before, ends the
examination before any value is looked at. -/
def Schema.examine (s : Schema) (document : Document) (overlay : Overlay) (merging : Report) :
    Except Report Object :=
  match s with
  | ⟨fields, permissive⟩ =>
    let s : Schema := ⟨fields, permissive⟩
    let report := s.keyReport document overlay merging
    if !report.isEmpty then .error report
    else
      let found := examineFields fields document overlay .none
      found.report.toResult
        (if permissive then s.copyUnknown document overlay found.values else found.values)

def examineFields (fields : List Field) (document : Document) (overlay : Overlay)
    (found : Findings) : Findings :=
  match fields with
  | [] => found
  | f :: rest => examineFields rest document overlay (f.examine document overlay found)

def Field.examine (f : Field) (document : Document) (overlay : Overlay) (found : Findings) :
    Findings :=
  match f with
  | ⟨name, qualified?, required, shape, _, _⟩ =>
    match source? document overlay name with
    | some source => found.note (qualified?.getD name) (shape.examine name source)
    | none =>
      if required then found.note name (reportAt name (.error (.required name))) else found

def Shape.examine (shape : Shape) (name : String) (source : Source) : Except Report Value :=
  match shape with
  | .scalar element => reportAt name (element.read source)
  | .array element =>
    examineArray name (fun path item => reportAt path (element.read (.node item))) source
  | .object schema =>
    match source with
    | .node (.object members) => embed name (schema.examine members .empty .empty)
    | source => reportAt name (.error (.typeMismatch "object" source.form.name))
  | .objects schema =>
    examineArray name
      (fun path item =>
        match item with
        | .object members => embed path (schema.examine members .empty .empty)
        | item => reportAt path (.error (.typeMismatch "object" item.form.name)))
      source

end

end Intake
