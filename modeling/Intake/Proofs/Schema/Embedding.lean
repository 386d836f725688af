import Intake.Proofs.Schema.KeyFaults

/-!
# Embedded documents

A document inside of another one, as the value of a field or as an item of it, is examined as it
is validated alone. It has the same value, and the same is wrong with it at the same paths, which
only go on from the path of its place. Overlays do not reach it.
-/

namespace Intake

/-- Where the value of a field has an embedded document. -/
inductive Place where
  | whole
  | item (index : Nat)

namespace Place

/-- What a field with documents of a schema at such places holds. -/
def shape (s : Schema) : Place → Shape
  | .whole => .object s
  | .item _ => .objects s

def path (name : String) : Place → String
  | .whole => name
  | .item index => itemPath name index

def node? : Place → Json → Option Json
  | .whole, node => some node
  | .item index, .array items => items[index]?
  | .item _, _ => none

def value? : Place → Value → Option Value
  | .whole, v => some v
  | .item index, .array items => items[index]?
  | .item _, _ => none

theorem path_ne_empty {name : String} (hn : name ≠ "") (place : Place) : place.path name ≠ "" := by
  cases place with
  | whole => exact hn
  | item index => exact itemPath_ne_empty name index

theorem pathWithin_path (name : String) (place : Place) : PathWithin name (place.path name) := by
  cases place with
  | whole => exact .refl name
  | item index => exact pathWithin_itemPath name index

end Place

/-! ### Documents alone -/

theorem Schema.validate_alone {s : Schema} {text : String} {document : Document}
    (read : IsDocument text document) :
    s.validate text [] = s.examine document .empty .empty := by
  rw [validate_eq, (readDocument_eq_ok_iff _ _).mpr read]
  rfl

/-! ### Documents at a place -/

def Field.outcomeAt? (f : Field) (document : Document) (overlay : Overlay) :
    Place → Option (Except Report Value)
  | .whole => f.outcome? document overlay
  | .item index =>
    match f.shape, source? document overlay f.name with
    | .objects s, some (.node (.array items)) =>
      items[index]?.map (s.examineNode (itemPath f.name index))
    | _, _ => none

section Place

variable {f : Field} {s : Schema} {place : Place} {document d : Document} {node : Json}

theorem source?_of_given (given : Entries.lookup f.name document = some node) (overlay : Overlay) :
    source? document overlay f.name = some (.node node) := by
  rw [source?, given]

theorem outcomeAt?_eq (shape : f.shape = place.shape s)
    (given : Entries.lookup f.name document = some node)
    (there : place.node? node = some (.object d)) (overlay : Overlay) :
    f.outcomeAt? document overlay place =
      some (embed (place.path f.name) (s.examine d .empty .empty)) := by
  have source := source?_of_given given overlay
  cases place with
  | whole =>
    obtain rfl := Option.some.inj there
    rw [Field.outcomeAt?, f.outcome?_of_source source, shape]
    rfl
  | item index =>
    cases node with
    | array items =>
      have item : items[index]? = some (.object d) := there
      rw [Field.outcomeAt?, shape, source]
      show items[index]?.map _ = _
      rw [item]
      rfl
    | _ => cases there

/-- The value of a field has the value of the document at its place. -/
theorem value?_of_outcome (shape : f.shape = place.shape s)
    (given : Entries.lookup f.name document = some node)
    (there : place.node? node = some (.object d)) {overlay : Overlay} {v : Value}
    (outcome : f.outcome? document overlay = some (.ok v)) :
    ∃ r, s.examine d .empty .empty = .ok r ∧ place.value? v = some (.object r) := by
  rw [f.outcome?_of_source (source?_of_given given overlay), shape] at outcome
  have outcome := Option.some.inj outcome
  cases place with
  | whole =>
    obtain rfl := Option.some.inj there
    obtain ⟨r, result, rfl⟩ := (embed_eq_ok_iff _ _ _).mp outcome
    exact ⟨r, result, rfl⟩
  | item index =>
    cases node with
    | array items =>
      have item : items[index]? = some (.object d) := there
      obtain ⟨_, values, same, rfl, each⟩ := (examineArray_eq_ok_iff
        (fun i item w => s.examineNode_eq_ok_iff (itemPath f.name i) item w)
        (fun _ _ _ => Schema.isEmpty_of_examineNode_eq_error) _ v).mp
          (Shape.examine_objects s f.name _ ▸ outcome)
      obtain rfl := Json.array.inj (Source.node.inj same)
      obtain ⟨hi, found⟩ := List.getElem?_eq_some_iff.mp item
      have hv : index < values.length := each.length_eq ▸ hi
      obtain ⟨_, r, same, value, result⟩ := each.get hi hv
      obtain rfl := Json.object.inj (found.symm.trans same)
      exact ⟨r, result, List.getElem?_eq_some_iff.mpr ⟨hv, value⟩⟩
    | _ => cases there

/-- What is wrong with a value, as far as it is told at a place with a document, is what is wrong
with the document. -/
theorem shape_faulty_at_place_iff {name : String} (named : name ≠ "")
    (there : place.node? node = some (.object d)) (p : String) (e : Violation) :
    (PathWithin (place.path name) p ∧ (place.shape s).Faulty name (.node node) p e) ↔
      ∃ q, s.Faulty d q e ∧ p = Report.joinPath (place.path name) q := by
  have base := place.path_ne_empty named
  cases place with
  | whole =>
    obtain rfl := Option.some.inj there
    constructor
    · intro ⟨_, faulty⟩
      cases faulty with
      | notObject other => exact absurd rfl (other d)
      | embedded faulty => exact ⟨_, faulty, (Report.joinPath_of_ne_empty named).symm⟩
    · intro ⟨q, faulty, path⟩
      subst path
      refine ⟨.joinPath base q, ?_⟩
      rw [Report.joinPath_of_ne_empty base]
      exact .embedded faulty
  | item index =>
    cases node with
    | array items =>
      have item : items[index]? = some (.object d) := there
      constructor
      · intro ⟨within, faulty⟩
        -- The path is that of one item only, whatever is wrong with it.
        cases faulty with
        | notObjects other => exact absurd rfl (other items)
        | itemNotObject found other =>
          obtain rfl := index_eq_of_pathWithin within (.refl _)
          obtain rfl := Option.some.inj (item.symm.trans found)
          exact absurd rfl (other d)
        | itemEmbedded found faulty =>
          obtain rfl := index_eq_of_pathWithin within (.part _ _)
          obtain rfl := Json.object.inj (Option.some.inj (item.symm.trans found))
          exact ⟨_, faulty, (Report.joinPath_of_ne_empty base).symm⟩
      · intro ⟨q, faulty, path⟩
        subst path
        refine ⟨.joinPath base q, ?_⟩
        rw [Report.joinPath_of_ne_empty base]
        exact .itemEmbedded item faulty
    | _ => cases there

/-- The same of all fields of an input: at a place in one of them nothing is told of others. -/
theorem faulty_at_place_iff {fields : List Field} (distinct : (fields.map Field.name).Nodup)
    (declared : f ∈ fields) (shape : f.shape = place.shape s)
    (given : Entries.lookup f.name document = some node)
    (there : place.node? node = some (.object d)) (overlay : Overlay) (p : String) (e : Violation) :
    (PathWithin (place.path f.name) p ∧ ∃ g ∈ fields, g.Faulty document overlay p e) ↔
      ∃ q, s.Faulty d q e ∧ p = Report.joinPath (place.path f.name) q := by
  have source := source?_of_given given overlay
  rw [← shape_faulty_at_place_iff f.name_ok.1 there, ← shape]
  constructor
  · intro ⟨within, g, hg, faulty⟩
    have name := ((place.pathWithin_path f.name).trans within).name_eq f.name_ok g.name_ok
      faulty.pathWithin
    obtain rfl := List.inj_on_of_nodup_map distinct declared hg name
    cases faulty with
    | missing noMember =>
      rw [← Entries.lookup_eq_none_iff, given] at noMember
      cases noMember
    | present found faulty =>
      obtain rfl := Option.some.inj (source.symm.trans found)
      exact ⟨within, faulty⟩
  · intro ⟨within, faulty⟩
    exact ⟨within, f, declared, .present source faulty⟩

end Place

/-! ### Reports at a place -/

/-- What a report tells at a path and below it is what another report tells, its paths going on
from this path and each violation naming its path. -/
def Report.TellsAt (whole : Report) (path : String) (part : Report) : Prop :=
  ∀ p v, (PathWithin path p ∧ whole.get? p = some v) ↔
    ∃ q w, part.get? q = some w ∧ p = joinPath path q ∧
      v = ⟨w.code, w.message, some p, w.params⟩

theorem Report.Lists.tellsAt {whole part : Report} {path : String}
    {F G : String → Violation → Prop} (hw : whole.Lists F) (hp : part.Lists G)
    (same : ∀ p e, (PathWithin path p ∧ F p e) ↔ ∃ q, G q e ∧ p = joinPath path q) :
    whole.TellsAt path part := by
  intro p v
  constructor
  · intro ⟨within, found⟩
    obtain ⟨e, above, value⟩ := (hw p v).mp found
    obtain ⟨q, told, path⟩ := (same p e).mp ⟨within, above⟩
    exact ⟨q, e.withField q, (hp q _).mpr ⟨e, told, rfl⟩, path, value⟩
  · intro ⟨q, w, found, path, value⟩
    obtain ⟨e, told, rfl⟩ := (hp q w).mp found
    obtain ⟨within, above⟩ := (same p e).mpr ⟨q, told, path⟩
    exact ⟨within, (hw p v).mpr ⟨e, above, value⟩⟩

namespace Schema

/-- A document in its place is examined as it is validated alone, whatever overlay there is. It has
the value that it has alone, there and in the value of the field. If it has none alone, the field
has none either, and what is told at its place and below is what the report of the document alone
tells. An outer call whose keys are in order gives just this report, for its overlays. -/
theorem embedded_as_alone {outer : Schema} (built : outer.Built) {f : Field}
    (declared : f ∈ outer.fields) {s : Schema} {place : Place} (shape : f.shape = place.shape s)
    {document d : Document} {node : Json} (given : Entries.lookup f.name document = some node)
    (there : place.node? node = some (.object d)) {text : String} (read : IsDocument text d)
    (overlay : Overlay) :
    (∀ r, s.validate text [] = .ok r ↔
      f.outcomeAt? document overlay place = some (.ok (.object r))) ∧
    ((∃ e, s.validate text [] = .error e) ↔
      ∃ part, f.outcomeAt? document overlay place = some (.error part)) ∧
    (∀ v, f.outcome? document overlay = some (.ok v) →
      ∃ r, s.validate text [] = .ok r ∧ place.value? v = some (.object r)) ∧
    (∀ r, s.validate text [] = .ok r →
      (outer.fieldReport document overlay).TellsAt (place.path f.name) .empty) ∧
    (∀ e, s.validate text [] = .error e →
      (outer.fieldReport document overlay).TellsAt (place.path f.name) e) ∧
    ∀ outerText overlays, IsDocument outerText document →
      (∀ key e, ¬ outer.KeyFault document overlays key e) →
      ∀ report, outer.validate outerText overlays = .error report →
        report = outer.fieldReport document (mergeOverlays overlays).1 := by
  have alone := validate_alone (s := s) read
  have here := outcomeAt?_eq shape given there overlay
  have embedded : s ∈ f.schema? := by
    cases place <;> rw [Field.schema?, shape] <;> rfl
  have tells := tells_examine_embedded (built.within declared embedded) d
  have lists := fieldReport_lists built.distinct
    (fun g hg t ht members => tells_examine_embedded (built.within hg ht) members) document overlay
  have same := faulty_at_place_iff built.distinct.1 declared shape given there overlay
  rw [alone, here]
  refine ⟨fun r => ?_, ?_, ?_, ?_, ?_, ?_⟩
  · rw [Option.some.injEq, embed_eq_ok_iff]
    simp [eq_comm]
  · cases s.examine d .empty .empty <;> simp [embed]
  · exact fun v outcome => value?_of_outcome shape given there outcome
  · intro r result
    rw [result] at tells
    exact lists.tellsAt (Report.lists_empty.congr fun q e => iff_of_false id (tells q e)) same
  · intro e result
    rw [result] at tells
    exact lists.tellsAt tells same
  · intro outerText overlays outerRead clean report rejected
    rw [validate_of_no_keyFault built.distinct outerRead clean] at rejected
    exact ((Report.toResult_eq_error_iff _ _ _).mp rejected).2.symm

def sampleItems : Json := .array [.object [("id", .number ['7'])], .object [("", .null)]]

/-- The second of some items has an empty key, and an overlay has a text for all of them. -/
theorem embedded_as_alone_sampleOrder :
    sampleOrder.Built ∧ IsDocument "\x7b\"\":null\x7d" [("", .null)] ∧
      ∃ e, sampleItem.validate "\x7b\"\":null\x7d" [] = .error e ∧
        (sampleOrder.fieldReport [("items", sampleItems)] (.single "items" "7")).TellsAt
          "items[1]" e := by
  have read : IsDocument "\x7b\"\":null\x7d" [("", .null)] := .object rfl rfl
  have shape : Shape.objects sampleItem = (Place.item 1).shape sampleItem := rfl
  have given : Entries.lookup "items" [("items", sampleItems)] = some sampleItems := rfl
  have there : (Place.item 1).node? sampleItems = some (.object [("", .null)]) := rfl
  have told := embedded_as_alone sampleOrder_built (List.mem_cons_of_mem _ List.mem_cons_self)
    shape given there read (.single "items" "7")
  obtain ⟨e, rejected⟩ : ∃ e, sampleItem.validate "\x7b\"\":null\x7d" [] = .error e := ⟨_, rfl⟩
  exact ⟨sampleOrder_built, read, e, rejected, told.2.2.2.2.1 e rejected⟩

end Schema

end Intake
