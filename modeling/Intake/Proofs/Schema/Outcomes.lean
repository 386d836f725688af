import Intake.Proofs.Report.Listing
import Intake.Proofs.Schema.Levels
import Intake.Schema.Validate

/-!
# Outcomes of fields

The examination of an input, one level at a time. Each field has an outcome of its
own: a value, a report, or nothing where it may be absent. The reports are put
together and the values stored, both in the order of the fields.
-/

namespace Intake

def Source.coerce (k : Kind) : Source → Except CoercionFault k.Carrier
  | .node json => k.ofJson json
  | .text s => k.ofText s

theorem Element.read_eq (e : Element) (source : Source) :
    e.read source = match source.coerce e.kind with
      | .error fault => .error fault.toViolation
      | .ok a => e.check a := by
  cases source <;> rfl

/-! ### Fields -/

namespace Field

/-- What the examination of one field gives: nothing for a field that may be absent and is. -/
def outcome? (f : Field) (document : Document) (overlay : Overlay) : Option (Except Report Value) :=
  match source? document overlay f.name with
  | some source => some (f.shape.examine f.name source)
  | none => if f.required then some (reportAt f.name (.error (.required f.name))) else none

theorem examine_eq (f : Field) (document : Document) (overlay : Overlay) (found : Findings) :
    f.examine document overlay found = match f.outcome? document overlay with
      | some result => found.note f.uniqueName result
      | none => found := by
  obtain ⟨name, qualified?, required, shape, _, _⟩ := f
  rw [Field.examine, outcome?]
  cases source? document overlay name with
  | some source => rfl
  | none => cases required <;> rfl

theorem outcome?_of_source {f : Field} {document : Document} {overlay : Overlay} {source : Source}
    (h : source? document overlay f.name = some source) :
    f.outcome? document overlay = some (f.shape.examine f.name source) := by
  rw [outcome?, h]

theorem outcome?_of_no_source {f : Field} {document : Document} {overlay : Overlay}
    (h : source? document overlay f.name = none) :
    f.outcome? document overlay =
      if f.required then some (reportAt f.name (.error (.required f.name))) else none := by
  rw [outcome?, h]

def failure? (document : Document) (overlay : Overlay) (f : Field) : Option Report :=
  match f.outcome? document overlay with
  | some (.error report) => some report
  | _ => none

def stored? (document : Document) (overlay : Overlay) (f : Field) : Option (String × Value) :=
  match f.outcome? document overlay with
  | some (.ok value) => some (f.uniqueName, value)
  | _ => none

end Field

theorem examineFields_report (fields : List Field) (document : Document) (overlay : Overlay)
    (found : Findings) :
    (examineFields fields document overlay found).report =
      (fields.filterMap (Field.failure? document overlay)).foldl
        (fun report part => report.addAll part.entries) found.report := by
  induction fields generalizing found with
  | nil => rfl
  | cons f rest ih =>
    rw [examineFields, ih, Field.examine_eq]
    cases h : f.outcome? document overlay with
    | none => simp [Field.failure?, h]
    | some result => cases result <;> simp [Field.failure?, h, Findings.note]

theorem examineFields_values (fields : List Field) (document : Document) (overlay : Overlay)
    (found : Findings) :
    (examineFields fields document overlay found).values =
      (fields.filterMap (Field.stored? document overlay)).foldl
        (fun values item => values.putAt item.1 item.2) found.values := by
  induction fields generalizing found with
  | nil => rfl
  | cons f rest ih =>
    rw [examineFields, ih, Field.examine_eq]
    cases h : f.outcome? document overlay with
    | none => simp [Field.stored?, h]
    | some result => cases result <;> simp [Field.stored?, h, Findings.note]

/-- Values are stored under unique names of fields, in the order of the fields. -/
theorem keys_stored_sublist (fields : List Field) (document : Document) (overlay : Overlay) :
    ((fields.filterMap (Field.stored? document overlay)).map Prod.fst).Sublist
      (fields.map Field.uniqueName) := by
  induction fields with
  | nil => exact .slnil
  | cons f rest ih =>
    cases h : f.stored? document overlay with
    | none =>
      rw [List.filterMap_cons_none h]
      exact ih.cons _
    | some item =>
      have key : item.1 = f.uniqueName := by
        unfold Field.stored? at h
        split at h
        · exact Option.some.inj h ▸ rfl
        · cases h
      rw [List.filterMap_cons_some h, List.map_cons, List.map_cons, key]
      exact ih.cons_cons _

/-! ### Schemas -/

namespace Schema

/-- All that is wrong with the fields of an input. -/
def fieldReport (s : Schema) (document : Document) (overlay : Overlay) : Report :=
  (examineFields s.fields document overlay .none).report

def fieldValues (s : Schema) (document : Document) (overlay : Overlay) : Object :=
  (examineFields s.fields document overlay .none).values

/-- Inputs that are the same to each field are the same to the fields together. -/
theorem fieldReport_congr {s : Schema} {document document' : Document} {overlay overlay' : Overlay}
    (same : ∀ f ∈ s.fields, f.outcome? document overlay = f.outcome? document' overlay') :
    s.fieldReport document overlay = s.fieldReport document' overlay' := by
  have parts : s.fields.filterMap (Field.failure? document overlay) =
      s.fields.filterMap (Field.failure? document' overlay') := by
    apply List.filterMap_congr
    intro f hf
    rw [Field.failure?, Field.failure?, same f hf]
  rw [fieldReport, fieldReport, examineFields_report, examineFields_report, parts]

theorem fieldValues_congr {s : Schema} {document document' : Document} {overlay overlay' : Overlay}
    (same : ∀ f ∈ s.fields, f.outcome? document overlay = f.outcome? document' overlay') :
    s.fieldValues document overlay = s.fieldValues document' overlay' := by
  have parts : s.fields.filterMap (Field.stored? document overlay) =
      s.fields.filterMap (Field.stored? document' overlay') := by
    apply List.filterMap_congr
    intro f hf
    rw [Field.stored?, Field.stored?, same f hf]
  rw [fieldValues, fieldValues, examineFields_values, examineFields_values, parts]

def completed (s : Schema) (document : Document) (overlay : Overlay) : Object :=
  if s.permissive then s.copyUnknown document overlay (s.fieldValues document overlay)
  else s.fieldValues document overlay

theorem completed_of_strict {s : Schema} (strict : s.IsStrict) (document : Document)
    (overlay : Overlay) : s.completed document overlay = s.fieldValues document overlay := by
  have notPermissive : s.permissive = false := strict
  rw [completed, notPermissive, if_neg Bool.false_ne_true]

theorem examine_eq (s : Schema) (document : Document) (overlay : Overlay) (merging : Report) :
    s.examine document overlay merging =
      if (s.keyReport document overlay merging).isEmpty then
        (s.fieldReport document overlay).toResult (s.completed document overlay)
      else .error (s.keyReport document overlay merging) := by
  obtain ⟨fields, permissive⟩ := s
  rw [examine]
  cases (keyReport ⟨fields, permissive⟩ document overlay merging).isEmpty <;> rfl

theorem examine_eq_ok_iff (s : Schema) (document : Document) (overlay : Overlay) (merging : Report)
    (o : Object) :
    s.examine document overlay merging = .ok o ↔
      (s.keyReport document overlay merging).isEmpty = true ∧
        (s.fieldReport document overlay).isEmpty = true ∧ s.completed document overlay = o := by
  rw [examine_eq]
  split
  · next h => simp [h, Report.toResult_eq_ok_iff]
  · next h => simp [h]

theorem isEmpty_of_examine_eq_error {s : Schema} {document : Document} {overlay : Overlay}
    {merging report : Report} (h : s.examine document overlay merging = .error report) :
    report.isEmpty = false := by
  rw [examine_eq] at h
  split at h
  · obtain ⟨nonempty, rfl⟩ := (Report.toResult_eq_error_iff _ _ _).mp h
    exact nonempty
  · next nonempty =>
    obtain rfl := Except.error.inj h
    simpa using nonempty

end Schema

/-- Documents are validated as objects inside of them are examined, with overlays besides. -/
theorem Schema.validate_eq (s : Schema) (text : String) (overlays : List Overlay) :
    s.validate text overlays = match readDocument text with
      | .error v => .error ((mergeOverlays overlays).2.add rootPath v)
      | .ok document =>
        s.examine document (mergeOverlays overlays).1 (mergeOverlays overlays).2 := by
  unfold validate
  cases readDocument text with
  | error v => rfl
  | ok document =>
    -- Whether the values are completed before or after the last check makes no difference.
    dsimp only
    rw [examine_eq, Report.toResult]
    cases (s.keyReport document (mergeOverlays overlays).1 (mergeOverlays overlays).2).isEmpty with
    | false => rfl
    | true =>
      show (if !(s.fieldReport document (mergeOverlays overlays).1).isEmpty then _ else _) = _
      cases (s.fieldReport document (mergeOverlays overlays).1).isEmpty <;> rfl

theorem Schema.validate_eq_ok_iff_examine (s : Schema) (text : String) (overlays : List Overlay)
    (r : Object) :
    s.validate text overlays = .ok r ↔ ∃ document, readDocument text = .ok document ∧
      s.examine document (mergeOverlays overlays).1 (mergeOverlays overlays).2 = .ok r := by
  rw [validate_eq]
  cases readDocument text with
  | error v => simp
  | ok document => simp

theorem Schema.validate_eq_ok_of_clean {s : Schema} {text : String} {document : Document}
    {r : Object} (read : readDocument text = .ok document)
    (keys : (s.keyReport document .empty .empty).isEmpty = true)
    (fields : (s.fieldReport document .empty).isEmpty = true)
    (result : s.completed document .empty = r) : s.validate text [] = .ok r := by
  have examined := (s.examine_eq_ok_iff document .empty .empty r).mpr ⟨keys, fields, result⟩
  exact (s.validate_eq_ok_iff_examine text [] r).mpr ⟨document, read, examined⟩

/-! ### Outcomes with a value -/

theorem reportAt_eq_ok_iff {α : Type} (path : String) (outcome : Except Violation α) (a : α) :
    reportAt path outcome = .ok a ↔ outcome = .ok a := by
  cases outcome <;> simp [reportAt]

theorem embed_eq_ok_iff (path : String) (outcome : Except Report Object) (v : Value) :
    embed path outcome = .ok v ↔ ∃ o, outcome = .ok o ∧ v = .object o := by
  cases outcome with
  | ok o => simp [embed, eq_comm]
  | error report => simp [embed]

/-- What the examination of a node in the place of an embedded document gives. -/
def Schema.examineNode (s : Schema) (path : String) : Json → Except Report Value
  | .object members => embed path (s.examine members .empty .empty)
  | node => reportAt path (.error (.typeMismatch "object" node.form.name))

theorem Shape.examine_objects (s : Schema) (name : String) (source : Source) :
    (Shape.objects s).examine name source = examineArray name s.examineNode source := by
  rw [Shape.examine]
  rfl

theorem Schema.examineNode_eq_ok_iff (s : Schema) (path : String) (node : Json) (v : Value) :
    s.examineNode path node = .ok v ↔
      ∃ members o, node = .object members ∧ v = .object o ∧
        s.examine members .empty .empty = .ok o := by
  cases node with
  | object members =>
    rw [examineNode, embed_eq_ok_iff]
    constructor
    · intro ⟨o, result, value⟩
      exact ⟨members, o, rfl, value, result⟩
    · intro ⟨_, o, same, value, result⟩
      obtain rfl := Json.object.inj same
      exact ⟨o, result, value⟩
  | _ => simp [examineNode, reportAt]

/-! ### Reasons

A value is missing only with a reason: no report in place of a value is empty. -/

theorem isEmpty_of_reportAt_eq_error {α : Type} {path : String} {outcome : Except Violation α}
    {report : Report} (h : reportAt path outcome = .error report) : report.isEmpty = false := by
  cases outcome with
  | ok a => cases h
  | error v =>
    obtain rfl := Except.error.inj h
    exact Report.isEmpty_add _ _ _

theorem isEmpty_of_embed_eq_error {path : String} {s : Schema} {members : Document}
    {report : Report} (h : embed path (s.examine members .empty .empty) = .error report) :
    report.isEmpty = false := by
  cases outcome : s.examine members .empty .empty with
  | ok o =>
    rw [outcome] at h
    cases h
  | error part =>
    rw [outcome] at h
    obtain rfl := Except.error.inj h
    have reasons := (Report.entries_ne_nil_iff part).mpr (s.isEmpty_of_examine_eq_error outcome)
    refine Report.isEmpty_addAll _ (.inr ?_)
    simpa [Report.entriesWithin] using reasons

theorem Schema.isEmpty_of_examineNode_eq_error {s : Schema} {path : String} {node : Json}
    {report : Report} (h : s.examineNode path node = .error report) : report.isEmpty = false := by
  unfold examineNode at h
  split at h
  · exact isEmpty_of_embed_eq_error h
  · exact isEmpty_of_reportAt_eq_error h

theorem isEmpty_of_examineArray_eq_error {name : String}
    {examine : String → Json → Except Report Value} {source : Source} {report : Report}
    (h : examineArray name examine source = .error report) : report.isEmpty = false := by
  unfold examineArray at h
  split at h
  · obtain ⟨nonempty, rfl⟩ := (Report.toResult_eq_error_iff _ _ _).mp h
    exact nonempty
  · exact isEmpty_of_reportAt_eq_error h

theorem Shape.isEmpty_of_examine_eq_error {shape : Shape} {name : String} {source : Source}
    {report : Report} (h : shape.examine name source = .error report) :
    report.isEmpty = false := by
  unfold Shape.examine at h
  split at h
  · exact isEmpty_of_reportAt_eq_error h
  · exact isEmpty_of_examineArray_eq_error h
  · split at h
    · exact isEmpty_of_embed_eq_error h
    · exact isEmpty_of_reportAt_eq_error h
  · exact isEmpty_of_examineArray_eq_error h

theorem Schema.fieldReport_isEmpty_iff (s : Schema) (document : Document) (overlay : Overlay) :
    (s.fieldReport document overlay).isEmpty = true ↔
      ∀ f ∈ s.fields, ∀ report, f.outcome? document overlay ≠ some (.error report) := by
  have nonempty : ∀ {f : Field} {report : Report},
      f.outcome? document overlay = some (.error report) → report.isEmpty = false := by
    intro f report h
    unfold Field.outcome? at h
    split at h
    · exact Shape.isEmpty_of_examine_eq_error (Option.some.inj h)
    · split at h
      · obtain rfl := Except.error.inj (Option.some.inj h)
        exact Report.isEmpty_add _ _ _
      · cases h
  have grows : ∀ (parts : List Report) (r : Report),
      (parts.foldl (fun report part => report.addAll part.entries) r).isEmpty = true →
        r.isEmpty = true ∧ ∀ part ∈ parts, part.isEmpty = true := by
    intro parts
    induction parts with
    | nil => intro r h; exact ⟨h, fun _ hm => absurd hm List.not_mem_nil⟩
    | cons part parts ih =>
      intro r h
      obtain ⟨hr, hparts⟩ := ih _ h
      have both : r.isEmpty = true ∧ part.isEmpty = true := by
        constructor <;> by_contra hn
        · rw [Report.isEmpty_addAll r (.inl (by simpa using hn))] at hr
          cases hr
        · rw [Report.isEmpty_addAll r
            (.inr ((Report.entries_ne_nil_iff part).mpr (by simpa using hn)))] at hr
          cases hr
      exact ⟨both.1, fun p hp => (List.mem_cons.mp hp).elim (fun e => e ▸ both.2) (hparts p)⟩
  rw [fieldReport, examineFields_report]
  constructor
  · intro h f hf report hout
    have part := (grows _ _ h).2 report
      (List.mem_filterMap.mpr ⟨f, hf, by rw [Field.failure?, hout]⟩)
    rw [nonempty hout] at part
    cases part
  · intro h
    have none_failed : s.fields.filterMap (Field.failure? document overlay) = [] := by
      rw [List.filterMap_eq_nil_iff]
      intro f hf
      rw [Field.failure?]
      split
      · next report hout => exact absurd hout (h f hf report)
      · rfl
    rw [none_failed]
    rfl

end Intake
