import Intake.Json.Basic
import Intake.Report
import Intake.Schema
import Intake.Value.Json

/-!
# Keys of an input

An input is a document and an overlay of texts. Before any value is looked at,
its keys are checked: each must name a field, the overlay may name only scalars,
and no key may come from both. Keys that name no field are copied by a schema
that lets them through.
-/

namespace Intake

/-- The members of a JSON object, one for each key. -/
abbrev Document := List (String × Json)

abbrev Overlay := SortedMap String

/-- One overlay from many. A key that an earlier one has is reported; the last text counts. -/
def mergeOverlays (overlays : List Overlay) : Overlay × Report :=
  (overlays.flatMap SortedMap.entries).foldl
    (fun (merged, report) (key, text) =>
      (merged.insert key text,
        if merged.contains key then
          report.add key (.of "conflict" s!"duplicated parameter '{key}'")
        else report))
    (.empty, .empty)

namespace Schema

def overlayKeyViolation? (s : Schema) (key : String) : Option Violation :=
  match s.field? key with
  | some field =>
    if field.isScalar then none
    else
      some (.of "invalid_parameter" s!"parameter '{key}' is mapped to an embedded object or array")
  | none =>
    if s.permissive then none else some (.of "unknown_field" s!"unknown parameter '{key}'")

def documentKeyViolation? (s : Schema) (overlay : Overlay) (key : String) : Option Violation :=
  if overlay.contains key then
    some (.of "conflict" s!"duplicate parameter in params and json '{key}'")
  else if !s.permissive && !s.declares key then
    some (.of "unknown_field" s!"unknown json field '{key}'")
  else none

def reportKeys (violation? : String → Option Violation) (keys : List String) (report : Report) :
    Report :=
  keys.foldl
    (fun report key =>
      match violation? key with
      | some v => report.add key v
      | none => report)
    report

def keyReport (s : Schema) (document : Document) (overlay : Overlay) (merging : Report) : Report :=
  reportKeys (s.documentKeyViolation? overlay) (document.map Prod.fst)
    (reportKeys s.overlayKeyViolation? overlay.keys merging)

/-- The object with a value under a key that neither names a field nor is in use. -/
def putUnknown (s : Schema) (o : Object) (key : String) (value : Option Value) : Object :=
  if s.declares key || o.contains key then o
  else
    match value with
    | some v => o.put key v
    | none => o

/-- The object with the values of the keys that name no field, first those of the document. -/
def copyUnknown (s : Schema) (document : Document) (overlay : Overlay) (o : Object) : Object :=
  let withDocument := document.foldl (fun o (key, node) => s.putUnknown o key (Value.ofJson? node)) o
  overlay.entries.foldl (fun o (key, text) => s.putUnknown o key (some (.string text))) withDocument

end Schema

end Intake
