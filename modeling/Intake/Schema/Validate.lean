import Intake.Json.Reader
import Intake.Schema.Examine
import Intake.Text.Blank

/-!
# Validation

A schema validates the text of a document together with overlays. The result is
an object with the values of the fields, or a report of all that is wrong.
-/

namespace Intake

def rootPath : String := "$"

/-- Reads a document. A blank text is the empty document. -/
def readDocument (text : String) : Except Violation Document :=
  if Text.trim text.toList = [] then .ok []
  else
    match Json.read text with
    | .ok (.object members) => .ok members
    | .ok node => .error (.typeMismatch "object" node.form.name)
    | .error fault => .error (.of "invalid_json" s!"invalid json: {fault.message}")

/-- Validates a document with overlays. Something wrong with the keys ends the validation before
any value is looked at, and something wrong with a value before other keys are copied. -/
def Schema.validate (s : Schema) (text : String) (overlays : List Overlay) : Except Report Object :=
  let (overlay, merging) := mergeOverlays overlays
  match readDocument text with
  | .error v => .error (merging.add rootPath v)
  | .ok document =>
    let report := s.keyReport document overlay merging
    if !report.isEmpty then .error report
    else
      let found := examineFields s.fields document overlay .none
      if !found.report.isEmpty then .error found.report
      else
        .ok (if s.permissive then s.copyUnknown document overlay found.values else found.values)

end Intake
