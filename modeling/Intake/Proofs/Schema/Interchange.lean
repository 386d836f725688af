import Intake.Proofs.Schema.Arrangements
import Intake.Proofs.Schema.Unknown

/-!
# Members and texts

A scalar that is accepted in a document is accepted as well as the text of an overlay,
and the result is the same: for each kind the text of a JSON value is read as the value is.
-/

namespace Intake

/-- The text with which an overlay says a scalar. -/
def Json.scalarText? : Json → Option String
  | .bool value => some (if value then "true" else "false")
  | .number text => some (String.ofList text)
  | .string s => some s
  | .null | .array _ | .object _ => none

/-! ### Kinds -/

theorem IntKind.ofText_of_ofNumber {k : IntKind} {text : String} {n : k.Number}
    (read : k.ofNumber text = .ok n) : k.ofText text = .ok n := by
  unfold ofNumber at read
  split at read
  · cases read
  split at read
  · cases read
  split at read
  · cases read
  · next v parsed =>
    split at read
    · obtain rfl := Except.ok.inj read
      exact parsed
    · cases read

/-- What a JSON value is read as, its text is read as too. -/
theorem Kind.ofText_of_ofJson {k : Kind} {node : Json} {a : k.Carrier}
    (read : k.ofJson node = .ok a) :
    ∃ given, node.scalarText? = some given ∧ k.ofText given = .ok a := by
  cases k with
  | string =>
    cases node with
    | string s => exact ⟨s, rfl, read⟩
    | _ => cases read
  | bool =>
    cases node with
    | bool value =>
      obtain rfl := Except.ok.inj read
      cases value <;> exact ⟨_, rfl, rfl⟩
    | _ => cases read
  | int k =>
    cases node with
    | number text => exact ⟨_, rfl, IntKind.ofText_of_ofNumber read⟩
    | _ => cases read
  | float k =>
    cases node with
    | number text => exact ⟨_, rfl, read⟩
    | string s => exact ⟨s, rfl, read⟩
    | _ => cases read
  | timestamp =>
    cases node with
    | string s => exact ⟨s, rfl, read⟩
    | _ => cases read

theorem Element.Yields.asText {e : Element} {node : Json} {v : Value}
    (yields : e.Yields (.node node) v) :
    ∃ given, node.scalarText? = some given ∧ e.Yields (.text given) v := by
  obtain ⟨coerced, met⟩ := yields
  obtain ⟨given, text, read⟩ := Kind.ofText_of_ofJson coerced
  exact ⟨given, text, .intro read met⟩

/-! ### Inputs -/

def Document.without (key : String) (document : Document) : Document :=
  document.filter fun member => member.1 != key

theorem lookup_without (key name : String) (document : Document) :
    Entries.lookup name (Document.without key document) =
      if name = key then none else Entries.lookup name document := by
  have member := Entries.lookup_filter (fun name => name != key) name document
  simpa [Document.without] using member

theorem find?_mergeOverlays_cons (key given : String) (overlays : List Overlay) (name : String) :
    (mergeOverlays (.single key given :: overlays)).1.find? name =
      ((mergeOverlays overlays).1.find? name).or (if key = name then some given else none) := by
  simp only [mergeOverlays_eq, find?_foldl_mergeText, SortedMap.find?_empty, Option.or_none,
    List.flatMap_cons, List.reverse_append, Entries.lookup_append]
  rfl

namespace Schema

variable {s : Schema} {document : Document} {overlays : List Overlay}

theorem foldl_putUnknown_filter (s : Schema) (items : List (String × Option Value)) (o : Object) :
    items.foldl (fun o item => s.putUnknown o item.1 item.2) o =
      (items.filter fun item => !s.declares item.1).foldl
        (fun o item => s.putUnknown o item.1 item.2) o := by
  rw [List.foldl_filter]
  congr 1
  funext o item
  unfold putUnknown
  cases s.declares item.1 <;> rfl

theorem copyUnknown_congr {document' : Document} {overlay overlay' : Overlay}
    (members : document.filter (fun member => !s.declares member.1) =
      document'.filter fun member => !s.declares member.1)
    (texts : ∀ key, s.declares key = false → overlay.find? key = overlay'.find? key) (o : Object) :
    s.copyUnknown document overlay o = s.copyUnknown document' overlay' o := by
  have entries : overlay.entries.filter (fun item => !s.declares item.1) =
      overlay'.entries.filter fun item => !s.declares item.1 := by
    apply SortedMap.entries_eq_of_lookup _ _ (overlay.sorted.filter _) (overlay'.sorted.filter _)
    intro key
    rw [Entries.lookup_filter (fun key => !s.declares key),
      Entries.lookup_filter (fun key => !s.declares key)]
    cases declared : s.declares key with
    | true => rfl
    | false => exact texts key declared
  have items : (inputItems document overlay).filter (fun item => !s.declares item.1) =
      (inputItems document' overlay').filter fun item => !s.declares item.1 := by
    simp only [inputItems, List.filter_append, List.filter_map, Function.comp_def]
    rw [members, entries]
  rw [copyUnknown_eq_foldl, copyUnknown_eq_foldl, foldl_putUnknown_filter, items,
    ← foldl_putUnknown_filter]

/-! ### A member as a text -/

theorem examine_asText {f : Field} (scalar : f.isScalar = true) {node : Json} {v : Value}
    (result : f.shape.examine f.name (.node node) = .ok v) :
    ∃ given, node.scalarText? = some given ∧ f.shape.examine f.name (.text given) = .ok v := by
  unfold Field.isScalar at scalar
  split at scalar
  · next e shape =>
    rw [shape, Shape.examine, reportAt_eq_ok_iff, Element.read_eq_ok_iff] at result
    obtain ⟨given, text, yields⟩ := result.asText
    refine ⟨given, text, ?_⟩
    rw [shape, Shape.examine, reportAt_eq_ok_iff, Element.read_eq_ok_iff]
    exact yields
  · cases scalar

variable {name given : String}

theorem source?_moved (absent : (mergeOverlays overlays).1.find? name = none)
    (document : Document) (given key : String) :
    source? (Document.without name document)
        (mergeOverlays (.single name given :: overlays)).1 key =
      if key = name then some (.text given)
      else source? document (mergeOverlays overlays).1 key := by
  rw [source?, source?, lookup_without, find?_mergeOverlays_cons]
  by_cases same : key = name
  · subst same
    simp [absent]
  · simp [same, Ne.symm same]

/-- No key is at fault for it where a text stands for a scalar in place of a member. -/
theorem keyReport_moved (distinct : s.NamesDistinct)
    (clean : (s.structureReport document overlays).isEmpty = true) {f : Field}
    (declared : f ∈ s.fields) (scalar : f.isScalar = true)
    (absent : ¬ ∃ overlay ∈ overlays, f.name ∈ overlay.keys) (given : String) :
    (s.structureReport (Document.without f.name document)
      (.single f.name given :: overlays)).isEmpty = true := by
  obtain ⟨merging, texts, members⟩ := (s.keyReport_isEmpty_iff _ _ _).mp clean
  have apart := (mergeOverlays_isEmpty_iff overlays).mp merging
  refine (s.keyReport_isEmpty_iff _ _ _).mpr ⟨?_, ?_, ?_⟩
  · rw [mergeOverlays_isEmpty_iff, List.flatMap_cons, SortedMap.keys_single, List.singleton_append]
    refine List.nodup_cons.mpr ⟨fun again => absent ?_, apart⟩
    exact List.mem_flatMap.mp again
  · intro key has
    obtain ⟨overlay, among, has⟩ := (mem_keys_mergeOverlays _ key).mp has
    rcases List.mem_cons.mp among with single | among
    · subst single
      obtain rfl : key = f.name := List.mem_singleton.mp has
      have found := (field?_eq_some_iff distinct f.name f).mpr ⟨declared, rfl⟩
      rw [overlayKeyViolation?, found]
      simp [scalar]
    · exact texts key ((mem_keys_mergeOverlays overlays key).mpr ⟨overlay, among, has⟩)
  · intro key has
    obtain ⟨member, kept, rfl⟩ := List.mem_map.mp has
    obtain ⟨there, other⟩ := List.mem_filter.mp kept
    have other : f.name ≠ member.1 := fun same => by simp [same] at other
    have free := members member.1 (List.mem_map_of_mem there)
    rw [documentKeyViolation?_eq_none_iff] at free ⊢
    refine ⟨?_, free.2⟩
    rw [find?_mergeOverlays_cons, free.1, if_neg other]
    rfl

theorem examine_of_fine {overlay : Overlay}
    (fine : (s.fieldReport document overlay).isEmpty = true) {f : Field} (declared : f ∈ s.fields)
    {source : Source} (found : source? document overlay f.name = some source) :
    ∃ v, f.shape.examine f.name source = .ok v := by
  cases result : f.shape.examine f.name source with
  | ok v => exact ⟨v, rfl⟩
  | error report =>
    refine absurd ?_ ((s.fieldReport_isEmpty_iff _ _).mp fine f declared report)
    rw [f.outcome?_of_source found, result]

theorem outcome?_moved (distinct : s.NamesDistinct) {f : Field} (declared : f ∈ s.fields)
    {node : Json} {v : Value} (member : source? document (mergeOverlays overlays).1 f.name =
      some (.node node))
    (absent : (mergeOverlays overlays).1.find? f.name = none)
    (asNode : f.shape.examine f.name (.node node) = .ok v)
    (asText : f.shape.examine f.name (.text given) = .ok v) :
    ∀ g ∈ s.fields, g.outcome? document (mergeOverlays overlays).1 =
      g.outcome? (Document.without f.name document)
        (mergeOverlays (.single f.name given :: overlays)).1 := by
  have sources := source?_moved absent document given
  intro g hg
  by_cases same : g.name = f.name
  · obtain rfl := List.inj_on_of_nodup_map distinct.1 hg declared same
    rw [g.outcome?_of_source member, g.outcome?_of_source ((sources _).trans (if_pos rfl)), asNode,
      asText]
  · rw [Field.outcome?, Field.outcome?, sources, if_neg same]

theorem copyUnknown_moved (known : s.declares name = true) (document : Document) (o : Object) :
    s.copyUnknown document (mergeOverlays overlays).1 o =
      s.copyUnknown (Document.without name document)
        (mergeOverlays (.single name given :: overlays)).1 o := by
  apply copyUnknown_congr
  · rw [Document.without, List.filter_filter]
    apply List.filter_congr
    intro member _
    by_cases same : member.1 = name <;> simp [same, known]
  · intro key unknown
    have other : name ≠ key := fun same => by simp [← same, known] at unknown
    rw [find?_mergeOverlays_cons, if_neg other, Option.or_none]

/-- A scalar that is accepted as a member of the document is accepted as a text of the overlays, in
whichever of them it stands, and the result is the same. -/
theorem member_as_text {s : Schema} (built : s.Built) {text : String} {document : Document}
    (read : IsDocument text document) {overlays : List Overlay} {r : Object}
    (accepted : s.validate text overlays = .ok r) {f : Field} (declared : f ∈ s.fields)
    (scalar : f.isScalar = true) {node : Json}
    (member : Entries.lookup f.name document = some node) :
    ∃ given, node.scalarText? = some given ∧
      ∀ overlays', SameTexts overlays' (.single f.name given :: overlays) →
        s.outcome (Document.without f.name document) overlays' = .ok r ∧
        ∀ text', IsDocument text' (Document.without f.name document) →
          s.validate text' overlays' = .ok r := by
  rw [s.validate_eq_outcome read] at accepted
  obtain ⟨clean, fine, result⟩ := (s.examine_eq_ok_iff _ _ _ _).mp accepted
  have source : source? document (mergeOverlays overlays).1 f.name = some (.node node) := by
    rw [source?, member]
  -- The member is in the document, so no overlay has its key.
  have absent : (mergeOverlays overlays).1.find? f.name = none := by
    obtain ⟨-, -, members⟩ := (s.keyReport_isEmpty_iff _ _ _).mp clean
    have there : f.name ∈ document.map Prod.fst :=
      List.mem_map_of_mem (Entries.mem_of_lookup member)
    exact ((s.documentKeyViolation?_eq_none_iff _ _).mp (members _ there)).1
  have noText : ¬ ∃ overlay ∈ overlays, f.name ∈ overlay.keys := by
    rw [← mem_keys_mergeOverlays]
    exact (Entries.lookup_eq_none_iff _ _).mp absent
  obtain ⟨v, value⟩ := examine_of_fine fine declared source
  obtain ⟨given, asText, value'⟩ := examine_asText scalar value
  have outcomes := outcome?_moved built.distinct declared source absent value value'
  have moved : s.outcome (Document.without f.name document) (.single f.name given :: overlays) =
      .ok r := by
    refine (s.examine_eq_ok_iff _ _ _ _).mpr ⟨?_, ?_, ?_⟩
    · exact keyReport_moved built.distinct clean declared scalar noText given
    · rw [← fieldReport_congr outcomes]
      exact fine
    · have known : s.declares f.name = true := (s.declares_iff _).mpr ⟨f, declared, rfl⟩
      rw [completed, ← fieldValues_congr outcomes, ← copyUnknown_moved known]
      exact result
  refine ⟨given, asText, fun overlays' arranged => ?_⟩
  have outcome := (outcome_eq_of_sameTexts arranged s _).trans moved
  exact ⟨outcome, fun text' read' => (s.validate_eq_outcome read' overlays').trans outcome⟩

def sampleNamed : String := "\x7b\"name\":\"x\",\"switch\":\x7b\"on\":true\x7d\x7d"

def sampleUnnamed : String := "\x7b\"switch\":\x7b\"on\":true\x7d\x7d"

/-- The name goes from the document to the overlay that has the note already. -/
theorem member_as_text_sampleDevice :
    ∃ r, sampleDevice.validate sampleNamed [.single "note" "y"] = .ok r ∧
      sampleDevice.validate sampleUnnamed [⟨[("name", "x"), ("note", "y")], by decide⟩] =
        .ok r := by
  obtain ⟨built, strict, plain⟩ := sampleDevice_everywhere
  let switch : Json := .object [("on", .bool true)]
  have read : IsDocument sampleNamed [("name", .string "x"), ("switch", switch)] := .object rfl rfl
  have read' : IsDocument sampleUnnamed [("switch", switch)] := .object rfl rfl
  have stored : FieldsYield sampleDevice.fields
      (sourceAmong? [("name", .string "x"), ("switch", switch)] [.single "note" "y"])
      [("note", .string "y"), ("name", .string "x"), ("switch", .object ⟨[("on", .bool true)]⟩)] :=
    .present rfl (.scalar (.intro rfl (List.forall_mem_nil _)))
      (.present rfl (.scalar (.intro rfl (List.forall_mem_nil _)))
        (.present rfl (.object sampleSwitch_yields) .nil))
  have keys : sampleDevice.AcceptsKeys [("name", .string "x"), ("switch", switch)]
      [.single "note" "y"] := ⟨by decide, by decide, by decide, by decide⟩
  have accepted := (validate_eq_ok_iff built strict plain sampleNamed [.single "note" "y"] ⟨_⟩).mpr
    ⟨_, read, keys, stored⟩
  have declared : sampleDevice.fields[1] ∈ sampleDevice.fields := List.getElem_mem _
  obtain ⟨given, text, moved⟩ := member_as_text built read accepted declared rfl rfl
  obtain rfl := Option.some.inj text
  have arranged : SameTexts [⟨[("name", "x"), ("note", "y")], by decide⟩]
      [.single "name" "x", .single "note" "y"] := .refl _
  exact ⟨_, accepted, (moved _ arranged).2 _ read'⟩

end Schema

end Intake
