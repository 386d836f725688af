import Intake.Proofs.Schema.Acceptance
import Intake.Proofs.Schema.Storage
import Intake.Proofs.Value.Flattened

/-!
# Fields for columns

The result of a strict schema all of whose fields are made for columns is flat but for
the three names of each column: its flat view has the value of each field that is
present under the qualified name of its column, and nothing else.
-/

namespace Intake

/-- The drafts of a field for a column, required or not and with any constraints besides those of
the column. -/
inductive FieldDraft.IsFor {kind : Kind} (c : Column kind) :
    FieldDraft (List (Constraint kind)) → Prop where
  | ofColumn (isArray : Bool) : IsFor c (.ofColumn c isArray)
  | optional {d : FieldDraft (List (Constraint kind))} (draft : IsFor c d) : IsFor c d.optional
  | withConstraint {d : FieldDraft (List (Constraint kind))} (draft : IsFor c d)
      (constraint : Constraint kind) : IsFor c (d.withConstraint constraint)

structure ColumnField where
  kind : Kind
  column : Column kind
  draft : FieldDraft (List (Constraint kind))
  drafted : FieldDraft.IsFor column draft
  field : Field
  made : draft.build = .ok field

/-! ### Names -/

theorem Column.pathOf_qualifiedName {kind : Kind} (c : Column kind) :
    pathOf c.qualifiedName = [c.table, c.column, c.view] := by
  have rest : ∀ name ∈ [c.column, c.view], '.' ∉ name.toList := by
    simpa using ⟨c.column_ok.dotFree, c.view_ok.dotFree⟩
  rw [pathOf, qualifiedName, Text.segments_joinDots _ _ c.table_ok.dotFree rest]

theorem Column.apart {kind kind' : Kind} {c : Column kind} {c' : Column kind'}
    (other : c.view ≠ c'.view) : Object.Apart c.qualifiedName c'.qualifiedName := by
  have lengths : (pathOf c.qualifiedName).length = (pathOf c'.qualifiedName).length := by
    rw [pathOf_qualifiedName, pathOf_qualifiedName]
    rfl
  have paths : pathOf c.qualifiedName ≠ pathOf c'.qualifiedName := by
    rw [pathOf_qualifiedName, pathOf_qualifiedName]
    simp [other]
  exact ⟨fun pre => paths (pre.eq_of_length lengths),
    fun pre => paths (pre.eq_of_length lengths.symm).symm⟩

namespace FieldDraft

theorem IsFor.names {kind : Kind} {c : Column kind} {d : FieldDraft (List (Constraint kind))}
    (h : IsFor c d) : d.name = c.view ∧ d.qualified? = some c.qualifiedName := by
  induction h with
  | ofColumn => exact ⟨rfl, rfl⟩
  | optional _ ih => exact ih
  | withConstraint _ _ ih => exact ih

theorem named_eq_ok {α : Type} {d : FieldDraft α} {make : Shape → Field}
    (h : d.named = .ok make) (shape : Shape) :
    (make shape).name = d.name ∧ (make shape).qualified? = d.qualified? ∧
      (make shape).shape = shape := by
  unfold named at h
  obtain ⟨⟨name_ok⟩, -, h⟩ := bind_eq_ok h
  dsimp only at h
  split at h
  · next plain =>
    obtain rfl := Except.ok.inj h
    exact ⟨rfl, plain.symm, rfl⟩
  · next q qualified =>
    obtain ⟨⟨q_ok⟩, -, h⟩ := bind_eq_ok h
    obtain rfl := Except.ok.inj h
    exact ⟨rfl, qualified.symm, rfl⟩

/-- What a draft that is finished says of its field. -/
theorem build_eq_ok {kind : Kind} {d : FieldDraft (List (Constraint kind))} {f : Field}
    (h : d.build = .ok f) :
    f.name = d.name ∧ f.qualified? = d.qualified? ∧ ∃ distinct, f.shape =
      if d.isArray then .array ⟨kind, d.content, distinct⟩
      else .scalar ⟨kind, d.content, distinct⟩ := by
  unfold build at h
  obtain ⟨make, named, h⟩ := bind_eq_ok h
  dsimp only at h
  split at h
  · cases h
  · obtain rfl := Except.ok.inj h
    obtain ⟨name, qualified, shape⟩ := named_eq_ok named (if d.isArray then _ else _)
    exact ⟨name, qualified, _, shape⟩

end FieldDraft

namespace ColumnField

theorem name_eq (c : ColumnField) : c.field.name = c.column.view :=
  (FieldDraft.build_eq_ok c.made).1.trans c.drafted.names.1

theorem uniqueName_eq (c : ColumnField) : c.field.uniqueName = c.column.qualifiedName := by
  have qualified := (FieldDraft.build_eq_ok c.made).2.1.trans c.drafted.names.2
  rw [Field.uniqueName, qualified, Option.getD_some]

theorem schema?_eq_none (c : ColumnField) : c.field.schema? = none := by
  obtain ⟨-, -, distinct, shape⟩ := FieldDraft.build_eq_ok c.made
  rw [Field.schema?, shape]
  cases c.draft.isArray <;> rfl

theorem isObject_eq_false {c : ColumnField} {source : Source} {v : Value}
    (yields : c.field.shape.Yields source v) : v.isObject = false := by
  obtain ⟨-, -, distinct, shape⟩ := FieldDraft.build_eq_ok c.made
  rw [shape] at yields
  cases isArray : c.draft.isArray with
  | true =>
    rw [isArray, if_pos rfl] at yields
    cases yields
    rfl
  | false =>
    rw [isArray, if_neg Bool.false_ne_true] at yields
    cases yields with
    | scalar read =>
      cases read
      rfl

theorem meets (c : ColumnField) : ∀ t ∈ c.field.schema?, t.Meets := by
  intro t ht
  rw [c.schema?_eq_none] at ht
  cases ht

theorem stored?_eq_some_iff {c : ColumnField} {document : Document} {overlay : Overlay}
    {item : String × Value} :
    c.field.stored? document overlay = some item ↔ item.1 = c.column.qualifiedName ∧
      ∃ source, source? document overlay c.column.view = some source ∧
        c.field.shape.Yields source item.2 := by
  rw [Field.stored?_eq_some_iff, c.name_eq, c.uniqueName_eq]
  constructor
  · intro ⟨source, present, outcome, name⟩
    rw [← c.name_eq, Field.examine_eq_ok_iff c.meets] at outcome
    exact ⟨name, source, present, outcome⟩
  · intro ⟨name, source, present, yields⟩
    rw [← c.name_eq]
    rw [← c.name_eq] at present
    exact ⟨source, present, (Field.examine_eq_ok_iff c.meets source _).mpr yields, name⟩

end ColumnField

/-! ### Values -/

theorem Value.KeptAs.eq_of_not_object {v found : Value} (keeps : v.KeptAs found)
    (plain : v.isObject = false) : found = v := by
  cases v with
  | scalar => exact keeps
  | array => exact keeps
  | object => cases plain

/-- Those of a list that are present and what they give, in their order. -/
theorem forall₂_filter_filterMap {α β : Type} {present : α → Bool} {give : α → Option β}
    {R : α → β → Prop} {l : List α}
    (given : ∀ a ∈ l, present a = true → ∃ b, give a = some b ∧ R a b)
    (nothing : ∀ a ∈ l, present a = false → give a = none) :
    List.Forall₂ R (l.filter present) (l.filterMap give) := by
  induction l with
  | nil => exact .nil
  | cons a l ih =>
    have others := ih (fun b hb => given b (List.mem_cons_of_mem a hb))
      (fun b hb => nothing b (List.mem_cons_of_mem a hb))
    cases here : present a with
    | true =>
      obtain ⟨b, same, rel⟩ := given a List.mem_cons_self here
      rw [List.filter_cons_of_pos here, List.filterMap_cons_some same]
      exact .cons rel others
    | false =>
      rw [List.filter_cons_of_neg (by simp [here]),
        List.filterMap_cons_none (nothing a List.mem_cons_self here)]
      exact others

namespace Schema

section Columns

variable {columns : List ColumnField} {document : Document} {overlay : Overlay}

theorem columns_apart (distinct : ((columns.map ColumnField.field).map Field.name).Nodup) :
    columns.Pairwise fun c c' =>
      Object.Apart c.column.qualifiedName c'.column.qualifiedName := by
  rw [List.map_map] at distinct
  refine (List.pairwise_map.mp distinct).imp fun {c c'} other => ?_
  refine Column.apart fun same => other ?_
  rw [Function.comp_apply, Function.comp_apply, c.name_eq, c'.name_eq, same]

theorem flatten_stored_columns
    (distinct : ((columns.map ColumnField.field).map Field.name).Nodup) :
    (Object.storing (columns.filterMap fun c => c.field.stored? document overlay)).flatten.entries.Perm
      (columns.filterMap fun c => c.field.stored? document overlay) := by
  have stored : ∀ item ∈ columns.filterMap fun c => c.field.stored? document overlay,
      ∃ c ∈ columns, item.1 = c.column.qualifiedName ∧ item.2.isObject = false := by
    intro item hi
    obtain ⟨c, hc, found⟩ := List.mem_filterMap.mp hi
    obtain ⟨name, source, -, yields⟩ := ColumnField.stored?_eq_some_iff.mp found
    exact ⟨c, hc, name, ColumnField.isObject_eq_false yields⟩
  apply Object.flatten_storing_perm
  · rw [List.pairwise_filterMap]
    refine (columns_apart distinct).imp fun {c c'} parted item hi item' hi' => ?_
    obtain ⟨name, -⟩ := ColumnField.stored?_eq_some_iff.mp hi
    obtain ⟨name', -⟩ := ColumnField.stored?_eq_some_iff.mp hi'
    rw [name, name']
    exact parted
  · intro item hi
    obtain ⟨c, -, name, -⟩ := stored item hi
    have path := c.column.pathOf_qualifiedName
    rw [← name, pathOf] at path
    rw [(List.cons.inj path).1]
    exact c.column.table_ok.1
  · intro item hi
    obtain ⟨c, -, -, plain⟩ := stored item hi
    exact plain

theorem strict_columns : Everywhere IsStrict ⟨columns.map ColumnField.field, false⟩ := by
  refine .intro rfl fun f hf t ht => ?_
  obtain ⟨c, -, rfl⟩ := List.mem_map.mp hf
  rw [c.schema?_eq_none] at ht
  cases ht

/-- A field that is present is stored, and read back under the qualified name of its column. -/
theorem get_column {merging : Report} {r : Object}
    (distinct : ((columns.map ColumnField.field).map Field.name).Nodup)
    (accepted : examine ⟨columns.map ColumnField.field, false⟩ document overlay merging = .ok r)
    {c : ColumnField} (hc : c ∈ columns) {source : Source}
    (present : source? document overlay c.column.view = some source) :
    ∃ v, c.field.stored? document overlay = some (c.column.qualifiedName, v) ∧
      c.field.shape.Yields source v ∧ r.get c.column.qualifiedName = .ok (some v) := by
  have apart : (columns.map ColumnField.field).Pairwise fun f g =>
      Object.Apart f.uniqueName g.uniqueName := by
    refine List.pairwise_map.mpr ((columns_apart distinct).imp fun {c c'} parted => ?_)
    rw [c.uniqueName_eq, c'.uniqueName_eq]
    exact parted
  have kept := kept_of_apart strict_columns apart accepted c.field (List.mem_map_of_mem hc)
  obtain ⟨v, outcome, x, read, keeps⟩ := kept source (c.name_eq ▸ present)
  have yields := (Field.examine_eq_ok_iff c.meets source v).mp outcome
  have same : x = v := keeps.eq_of_not_object (ColumnField.isObject_eq_false yields)
  have stored : c.field.stored? document overlay = some (c.column.qualifiedName, v) :=
    ColumnField.stored?_eq_some_iff.mpr ⟨rfl, source, present, yields⟩
  rw [c.uniqueName_eq, same] at read
  exact ⟨v, stored, yields, read⟩

/-- What is found by path and in the flat view of an accepted input, all of whose fields are made
for columns: for each field that is present one value, which its source yields, under the
qualified name of its column. In the flat view nothing else is found. -/
theorem flatten_columns {columns : List ColumnField} {s : Schema}
    (defined : define (columns.map ColumnField.field) = .ok s) {text : String}
    {overlays : List Overlay} {r : Object} (accepted : s.validate text overlays = .ok r) :
    ∃ document, IsDocument text document ∧ ∃ items, r.flatten.entries.Perm items ∧
      List.Forall₂
        (fun c item => item.1 = c.column.qualifiedName ∧
          (∃ source, sourceAmong? document overlays c.column.view = some source ∧
            c.field.shape.Yields source item.2) ∧
          r.get c.column.qualifiedName = .ok (some item.2))
        (columns.filter fun c => (sourceAmong? document overlays c.column.view).isSome) items := by
  obtain ⟨rfl, distinct⟩ := (define_eq_ok_iff _ _).mp defined
  obtain ⟨document, read, examined⟩ := (validate_eq_ok_iff_examine _ _ _ _).mp accepted
  obtain ⟨keys, -, result⟩ := (examine_eq_ok_iff _ _ _ _ _).mp examined
  obtain ⟨merging, -⟩ := (keyReport_isEmpty_iff _ _ _ _).mp keys
  have sources := source?_mergeOverlays ((mergeOverlays_isEmpty_iff overlays).mp merging) document
  refine ⟨document, (readDocument_eq_ok_iff _ _).mp read, columns.filterMap
    (fun c => c.field.stored? document (mergeOverlays overlays).1), ?_, ?_⟩
  · rw [completed_of_strict strict_columns.here, fieldValues, values_examineFields,
      List.filterMap_map] at result
    rw [← result]
    exact flatten_stored_columns distinct.1
  · rw [← sources]
    apply forall₂_filter_filterMap
    · intro c hc present
      obtain ⟨source, found⟩ := Option.isSome_iff_exists.mp present
      obtain ⟨v, stored, yields, get⟩ := get_column distinct.1 examined hc found
      exact ⟨_, stored, rfl, ⟨source, found, yields⟩, get⟩
    · intro c hc absent
      rw [Option.eq_none_iff_forall_ne_some]
      intro item stored
      obtain ⟨-, source, found, -⟩ := ColumnField.stored?_eq_some_iff.mp stored
      rw [found] at absent
      cases absent

end Columns

/-- Two columns of one table, the second with many values that need not be given. -/
def sampleColumns : List ColumnField :=
  [⟨.string, ⟨"users", "mail", "email", [], by decide, by decide, by decide⟩, _, .ofColumn false,
    ⟨"email", some "users.mail.email", true, .scalar (.of .string), by decide,
      qualified_some (by decide)⟩, rfl⟩,
   ⟨.string, ⟨"users", "labels", "label", [], by decide, by decide, by decide⟩, _,
    .optional (.ofColumn true),
    ⟨"label", some "users.labels.label", false, .array (.of .string), by decide,
      qualified_some (by decide)⟩, rfl⟩]

def sampleColumnsText : String := "\x7b\"email\":\"a\",\"label\":[\"b\"]\x7d"

/-- Both columns are given, so that two names with the same head are stored beside each other. -/
theorem flatten_columns_sample :
    ∃ s r, define (sampleColumns.map ColumnField.field) = .ok s ∧
      s.validate sampleColumnsText [] = .ok r ∧
      r.flatten.entries.Perm
        [("users.mail.email", .string "a"), ("users.labels.label", .array [.string "b"])] ∧
      r.get "users.mail.email" = .ok (some (.string "a")) ∧
      r.get "users.labels.label" = .ok (some (.array [.string "b"])) := by
  let s : Schema := ⟨sampleColumns.map ColumnField.field, false⟩
  let given : Document := [("email", .string "a"), ("label", .array [.string "b"])]
  have defined : define (sampleColumns.map ColumnField.field) = .ok s := rfl
  have read : readDocument sampleColumnsText = .ok given := rfl
  have accepted : s.validate sampleColumnsText [] = .ok (s.completed given .empty) :=
    validate_eq_ok_of_clean read rfl rfl rfl
  obtain ⟨document, isDocument, items, flat, each⟩ := flatten_columns defined accepted
  obtain rfl := Except.ok.inj (read.symm.trans ((readDocument_eq_ok_iff _ _).mpr isDocument))
  obtain ⟨⟨_, mail⟩, _, ⟨rfl, ⟨_, found, yields⟩, mailGet⟩, others, rfl⟩ :=
    List.forall₂_cons_left_iff.mp each
  obtain ⟨⟨_, labels⟩, _, ⟨rfl, ⟨_, found', yields'⟩, labelsGet⟩, ended, rfl⟩ :=
    List.forall₂_cons_left_iff.mp others
  obtain rfl := List.forall₂_nil_left_iff.mp ended
  have mailValue : mail = .string "a" := by
    obtain rfl := Option.some.inj found
    obtain ⟨⟨coerced, -⟩⟩ := yields
    cases coerced
    rfl
  have labelsValue : labels = .array [.string "b"] := by
    obtain rfl := Option.some.inj found'
    cases yields' with
    | array readEach =>
      obtain ⟨_, _, ⟨coerced, -⟩, ended, rfl⟩ := List.forall₂_cons_left_iff.mp readEach
      obtain rfl := List.forall₂_nil_left_iff.mp ended
      cases coerced
      rfl
  subst mailValue labelsValue
  exact ⟨s, _, defined, accepted, flat, mailGet, labelsGet⟩

end Schema

end Intake
