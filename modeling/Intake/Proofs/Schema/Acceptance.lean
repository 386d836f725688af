import Intake.Proofs.Schema.Values
import Intake.Value.Typed

/-!
# Accepted inputs

Which inputs a strict schema without qualified names accepts, and how the result
reads.
-/

namespace Intake

inductive IsDocument (text : String) : Document → Prop where
  | blank (blank : text.toList.all Text.isBlank = true) : IsDocument text []
  | object {members : Document} (notBlank : text.toList.all Text.isBlank = false)
      (read : Json.read text = .ok (.object members)) : IsDocument text members

theorem readDocument_eq_ok_iff (text : String) (document : Document) :
    readDocument text = .ok document ↔ IsDocument text document := by
  rw [readDocument]
  by_cases blank : text.toList.all Text.isBlank = true
  · rw [if_pos ((Text.trim_eq_nil_iff _).mpr blank)]
    constructor
    · intro h
      obtain rfl := Except.ok.inj h
      exact .blank blank
    · intro h
      cases h with
      | blank => rfl
      | object notBlank => simp [blank] at notBlank
  · rw [if_neg (mt (Text.trim_eq_nil_iff _).mp blank)]
    constructor
    · intro h
      split at h
      · next members read =>
        obtain rfl := Except.ok.inj h
        exact .object (by simpa using blank) read
      · cases h
      · cases h
    · intro h
      cases h with
      | blank h => exact absurd h blank
      | object _ read => rw [read]

def Shape.Conforms (shape : Shape) (source : Source) : Prop := ∃ v, shape.Yields source v

def Shape.valueType : Shape → ValueType
  | .scalar e => .scalar e.kind
  | .array e => .listOf (.scalar e.kind)
  | .object _ => .object
  | .objects _ => .listOf .object

structure Schema.AcceptsKeys (s : Schema) (document : Document) (overlays : List Overlay) :
    Prop where
  apart : (overlays.flatMap SortedMap.keys).Nodup
  notBoth : ∀ overlay ∈ overlays, ∀ key ∈ overlay.keys, key ∉ document.map Prod.fst
  declared : ∀ key ∈ document.map Prod.fst, ∃ f ∈ s.fields, f.name = key
  scalars : ∀ overlay ∈ overlays, ∀ key ∈ overlay.keys,
    ∃ f ∈ s.fields, f.name = key ∧ f.isScalar = true

/-- What an input must be for a strict schema to accept it. -/
structure Schema.Accepts (s : Schema) (document : Document) (overlays : List Overlay) : Prop
    extends s.AcceptsKeys document overlays where
  complete : ∀ f ∈ s.fields, f.required = true → sourceAmong? document overlays f.name ≠ none
  conform : ∀ f ∈ s.fields, ∀ source, sourceAmong? document overlays f.name = some source →
    f.shape.Conforms source

/-! ### Entries of a result -/

theorem exists_fieldsYield_iff (fields : List Field) (source? : String → Option Source) :
    (∃ entries, FieldsYield fields source? entries) ↔
      (∀ f ∈ fields, f.required = true → source? f.name ≠ none) ∧
        ∀ f ∈ fields, ∀ source, source? f.name = some source → f.shape.Conforms source := by
  induction fields with
  | nil =>
    constructor
    · intro _
      exact ⟨fun f hf => absurd hf List.not_mem_nil, fun f hf => absurd hf List.not_mem_nil⟩
    · intro _
      exact ⟨[], .nil⟩
  | cons f fields ih =>
    simp only [fieldsYield_cons_iff, List.forall_mem_cons]
    constructor
    · rintro ⟨entries, ⟨absent, optional, others⟩ | ⟨source, v, rest, found, yields, others, rfl⟩⟩
      · obtain ⟨complete, conform⟩ := ih.mp ⟨entries, others⟩
        exact ⟨⟨by simp [optional], complete⟩, by simp [absent], conform⟩
      · obtain ⟨complete, conform⟩ := ih.mp ⟨rest, others⟩
        refine ⟨⟨by simp [found], complete⟩, fun other same => ?_, conform⟩
        rw [found] at same
        exact Option.some.inj same ▸ ⟨v, yields⟩
    · rintro ⟨⟨present, complete⟩, first, conform⟩
      obtain ⟨rest, others⟩ := ih.mpr ⟨complete, conform⟩
      cases found : source? f.name with
      | none =>
        have optional : f.required = false := by
          by_contra required
          exact present (by simpa using required) found
        exact ⟨rest, .inl ⟨rfl, optional, others⟩⟩
      | some source =>
        obtain ⟨v, yields⟩ := first source found
        exact ⟨_, .inr ⟨source, v, rest, rfl, yields, others, rfl⟩⟩

namespace FieldsYield

variable {fields : List Field} {source? : String → Option Source} {entries : List (String × Value)}

theorem keys_eq (h : FieldsYield fields source? entries) :
    entries.map Prod.fst =
      (fields.filter fun f => (source? f.name).isSome).map Field.name := by
  induction fields generalizing entries with
  | nil =>
    cases h
    rfl
  | cons f fields ih =>
    rcases (fieldsYield_cons_iff _ _ _ _).mp h with
      ⟨absent, -, others⟩ | ⟨source, v, rest, found, -, others, rfl⟩
    · rw [ih others, List.filter_cons_of_neg (by simp [absent])]
    · rw [List.map_cons, ih others, List.filter_cons_of_pos (by simp [found]), List.map_cons]

theorem mem_of_present (h : FieldsYield fields source? entries) {f : Field} (hf : f ∈ fields)
    {source : Source} (found : source? f.name = some source) :
    ∃ v, (f.name, v) ∈ entries ∧ f.shape.Yields source v := by
  induction fields generalizing entries with
  | nil => exact absurd hf List.not_mem_nil
  | cons g fields ih =>
    rcases (fieldsYield_cons_iff _ _ _ _).mp h with
      ⟨absent, -, others⟩ | ⟨other, v, rest, present, yields, others, rfl⟩
    · rcases List.mem_cons.mp hf with rfl | hf
      · rw [found] at absent
        cases absent
      · exact ih others hf
    · rcases List.mem_cons.mp hf with rfl | hf
      · rw [found] at present
        obtain rfl := Option.some.inj present
        exact ⟨v, List.mem_cons_self, yields⟩
      · obtain ⟨w, hw, conforms⟩ := ih others hf
        exact ⟨w, List.mem_cons_of_mem _ hw, conforms⟩

end FieldsYield

/-! ### Typed reading -/

theorem ValueType.read?_listOf {t : ValueType} {R : Json → Value → Prop}
    (typed : ∀ item v, R item v → ∃ a, t.read? v = some a ∧ t.toValue a = v) {items : List Json}
    {values : List Value} (h : List.Forall₂ R items values) :
    ∃ as, (ValueType.listOf t).read? (.array values) = some as ∧
      (ValueType.listOf t).toValue as = .array values := by
  show ∃ as, values.mapM t.read? = some as ∧ Value.array (as.map t.toValue) = .array values
  induction h with
  | nil => exact ⟨[], rfl, rfl⟩
  | cons first _ ih =>
    obtain ⟨a, read, same⟩ := typed _ _ first
    obtain ⟨as, reads, sames⟩ := ih
    refine ⟨a :: as, by simp [read, reads], ?_⟩
    rw [List.map_cons, same, Value.array.inj sames]

theorem Element.Yields.read?_eq {e : Element} {source : Source} {v : Value}
    (h : e.Yields source v) :
    ∃ a, (ValueType.scalar e.kind).read? v = some a ∧ (ValueType.scalar e.kind).toValue a = v := by
  obtain ⟨-, -⟩ := h
  exact ⟨_, dif_pos rfl, rfl⟩

/-- A value of a shape is read as the type of the shape, and nothing of it is lost. -/
theorem Shape.Yields.read?_eq {shape : Shape} {source : Source} {v : Value}
    (h : shape.Yields source v) :
    ∃ a, shape.valueType.read? v = some a ∧ shape.valueType.toValue a = v := by
  cases h with
  | scalar read => exact read.read?_eq
  | array each => exact ValueType.read?_listOf (fun _ _ read => read.read?_eq) each
  | object => exact ⟨_, rfl, rfl⟩
  | objects each =>
    refine ValueType.read?_listOf (t := .object) ?_ ((Schema.yieldsEach_iff _ _ _).mp each)
    rintro item v ⟨members, o, -, rfl, -⟩
    exact ⟨o, rfl, rfl⟩

namespace Object

variable {o : Object} {t : ValueType} {name : String}

theorem getAs_of_absent (plain : '.' ∉ name.toList) (absent : o.find? name = none) :
    o.getAs t name = .ok none := by
  rw [getAs, get_of_dotFree o plain, absent]
  rfl

theorem getAs_of_entry {v : Value} {a : t.Carrier} (plain : '.' ∉ name.toList)
    (found : o.find? name = some v) (read : t.read? v = some a) :
    o.getAs t name = .ok (some a) := by
  rw [getAs, get_of_dotFree o plain, found]
  simp only [bind, Except.bind, read]
  rfl

end Object

/-! ### Acceptance -/

/-- Where the overlays share no key, nothing depends on how they are put together. -/
theorem source?_mergeOverlays {overlays : List Overlay}
    (apart : (overlays.flatMap SortedMap.keys).Nodup) (document : Document) :
    source? document (mergeOverlays overlays).1 = sourceAmong? document overlays := by
  have distinct : ((overlays.flatMap SortedMap.entries).map Prod.fst).Nodup := by
    rw [flatMap_entries_keys]
    exact apart
  funext name
  have text : (mergeOverlays overlays).1.find? name = overlays.findSome? (·.find? name) := by
    rw [mergeOverlays_eq, find?_foldl_mergeText, Entries.lookup_reverse distinct,
      Entries.lookup_flatMap, SortedMap.find?_empty, Option.or_none]
  unfold source? sourceAmong?
  cases Entries.lookup name document with
  | some json => rfl
  | none => exact congrArg (Option.map Source.text) text

namespace Schema

theorem keyReport_mergeOverlays_isEmpty_iff {s : Schema} (distinct : s.NamesDistinct)
    (strict : s.IsStrict) (document : Document) (overlays : List Overlay) :
    (s.keyReport document (mergeOverlays overlays).1 (mergeOverlays overlays).2).isEmpty = true ↔
      s.AcceptsKeys document overlays := by
  have overlayKey : ∀ key, s.overlayKeyViolation? key = none ↔
      ∃ f ∈ s.fields, f.name = key ∧ f.isScalar = true := by
    intro key
    rw [overlayKeyViolation?_eq_none_iff distinct, strict]
    constructor
    · rintro ⟨scalar, permissive | ⟨f, hf, same⟩⟩
      · cases permissive
      · exact ⟨f, hf, same, scalar f hf same⟩
    · rintro ⟨f, hf, rfl, scalar⟩
      refine ⟨fun g hg same => ?_, .inr ⟨f, hf, rfl⟩⟩
      exact List.inj_on_of_nodup_map distinct.1 hg hf same ▸ scalar
  have absent : ∀ key, (mergeOverlays overlays).1.find? key = none ↔
      ∀ overlay ∈ overlays, key ∉ overlay.keys := by
    intro key
    have present := mem_keys_mergeOverlays overlays key
    rw [SortedMap.find?, Entries.lookup_eq_none_iff]
    exact (not_congr present).trans (by simp)
  rw [keyReport_isEmpty_iff, mergeOverlays_isEmpty_iff]
  simp only [overlayKey, documentKeyViolation?_eq_none_iff, absent, mem_keys_mergeOverlays]
  constructor
  · rintro ⟨apart, scalars, documentKeys⟩
    refine ⟨apart, fun overlay ho key hk hm => ?_, fun key hm => ?_, fun overlay ho key hk => ?_⟩
    · exact (documentKeys key hm).1 overlay ho hk
    · rcases (documentKeys key hm).2 with permissive | declared
      · rw [strict] at permissive
        cases permissive
      · exact declared
    · exact scalars key ⟨overlay, ho, hk⟩
  · rintro ⟨apart, notBoth, declared, scalars⟩
    refine ⟨apart, ?_, fun key hm => ⟨fun overlay ho hk => ?_, .inr (declared key hm)⟩⟩
    · rintro key ⟨overlay, ho, hk⟩
      exact scalars overlay ho key hk
    · exact notBoth overlay ho key hk hm

theorem accepts_iff (s : Schema) (document : Document) (overlays : List Overlay) :
    s.Accepts document overlays ↔ s.AcceptsKeys document overlays ∧
      ∃ entries, FieldsYield s.fields (sourceAmong? document overlays) entries := by
  rw [exists_fieldsYield_iff]
  constructor
  · rintro ⟨keys, complete, conform⟩
    exact ⟨keys, complete, conform⟩
  · rintro ⟨keys, complete, conform⟩
    exact ⟨keys, complete, conform⟩

theorem validate_eq_ok_iff {s : Schema} (built : s.Built) (strict : s.Everywhere IsStrict)
    (plain : s.Everywhere IsPlain) (text : String) (overlays : List Overlay) (o : Object) :
    s.validate text overlays = .ok o ↔
      ∃ document, IsDocument text document ∧ s.AcceptsKeys document overlays ∧
        FieldsYield s.fields (sourceAmong? document overlays) o.entries := by
  have within : ∀ f ∈ s.fields, ∀ t ∈ f.schema?, t.Meets := fun f hf t ht =>
    meets (built.within hf ht) (strict.within hf ht) (plain.within hf ht)
  have examined : ∀ document,
      s.examine document (mergeOverlays overlays).1 (mergeOverlays overlays).2 = .ok o ↔
        s.AcceptsKeys document overlays ∧
          FieldsYield s.fields (sourceAmong? document overlays) o.entries := by
    intro document
    rw [examine_eq_ok_iff_fieldsYield built.distinct strict.here plain.here within,
      keyReport_mergeOverlays_isEmpty_iff built.distinct strict.here]
    apply and_congr_right
    intro keys
    rw [source?_mergeOverlays keys.apart]
  rw [validate_eq_ok_iff_examine]
  simp only [readDocument_eq_ok_iff, examined]

/-- What a strict schema without qualified names accepts, and the result: it has an entry for each
field that is present, in the order of the fields, with the value that the source of the field
yields. A field that is read as the type of its shape gives this value, and nothing exactly if it
is absent. -/
theorem validate_accepts {s : Schema} (built : s.Built) (strict : s.Everywhere IsStrict)
    (plain : s.Everywhere IsPlain) (text : String) (overlays : List Overlay) :
    ((∃ r, s.validate text overlays = .ok r) ↔
      ∃ document, IsDocument text document ∧ s.Accepts document overlays) ∧
    ∀ r, s.validate text overlays = .ok r → ∃ document, IsDocument text document ∧
      FieldsYield s.fields (sourceAmong? document overlays) r.entries ∧
      r.keys = (s.fields.filter fun f => (sourceAmong? document overlays f.name).isSome).map
        Field.name ∧
      ∀ f ∈ s.fields,
        (r.getAs f.shape.valueType f.name = .ok none ↔
          sourceAmong? document overlays f.name = none) ∧
        ∀ source, sourceAmong? document overlays f.name = some source →
          ∃ a, f.shape.Yields source (f.shape.valueType.toValue a) ∧
            r.getAs f.shape.valueType f.name = .ok (some a) := by
  constructor
  · constructor
    · rintro ⟨r, accepted⟩
      obtain ⟨document, isDocument, keys, yields⟩ :=
        (validate_eq_ok_iff built strict plain text overlays r).mp accepted
      exact ⟨document, isDocument, (s.accepts_iff _ _).mpr ⟨keys, r.entries, yields⟩⟩
    · rintro ⟨document, isDocument, accepts⟩
      obtain ⟨keys, entries, yields⟩ := (s.accepts_iff _ _).mp accepts
      exact ⟨⟨entries⟩, (validate_eq_ok_iff built strict plain text overlays ⟨entries⟩).mpr
        ⟨document, isDocument, keys, yields⟩⟩
  · intro r accepted
    obtain ⟨document, isDocument, keys, yields⟩ :=
      (validate_eq_ok_iff built strict plain text overlays r).mp accepted
    have order := yields.keys_eq
    have distinct : (r.entries.map Prod.fst).Nodup := by
      rw [order]
      exact built.distinct.1.sublist (List.filter_sublist.map _)
    have present : ∀ f ∈ s.fields, ∀ source, sourceAmong? document overlays f.name = some source →
        ∃ a, f.shape.Yields source (f.shape.valueType.toValue a) ∧
          r.getAs f.shape.valueType f.name = .ok (some a) := by
      intro f hf source found
      obtain ⟨v, hv, conforms⟩ := yields.mem_of_present hf found
      obtain ⟨a, read, rfl⟩ := conforms.read?_eq
      have stored : r.find? f.name = some (f.shape.valueType.toValue a) :=
        Entries.lookup_of_mem distinct hv
      exact ⟨a, conforms, Object.getAs_of_entry f.name_ok.dotFree stored read⟩
    refine ⟨document, isDocument, yields, order, fun f hf => ⟨?_, present f hf⟩⟩
    constructor
    · intro nothing
      by_contra some
      obtain ⟨source, found⟩ := Option.ne_none_iff_exists'.mp some
      obtain ⟨a, -, read⟩ := present f hf source found
      rw [nothing] at read
      cases read
    · intro absent
      have missing : r.find? f.name = none := by
        apply (Entries.lookup_eq_none_iff _ _).mpr
        rw [order, List.mem_map]
        rintro ⟨g, hg, same⟩
        have found := (List.mem_filter.mp hg).2
        rw [same, absent] at found
        cases found
      exact Object.getAs_of_absent f.name_ok.dotFree missing

def sampleSwitch : Schema :=
  ⟨[⟨"on", none, true, .scalar (.of .bool), by decide, qualified_none⟩], false⟩

theorem sampleSwitch_yields :
    sampleSwitch.Yields [("on", .bool true)] ⟨[("on", .bool true)]⟩ := by
  refine .intro (by simp [sampleSwitch]) (.present rfl (.scalar ?_) .nil)
  exact .intro rfl (List.forall_mem_nil _)

def sampleDevice : Schema :=
  ⟨[⟨"note", none, false, .scalar (.of .string), by decide, qualified_none⟩,
    ⟨"name", none, true, .scalar (.of .string), by decide, qualified_none⟩,
    ⟨"switch", none, true, .object sampleSwitch, by decide, qualified_none⟩], false⟩

theorem sampleDevice_everywhere :
    sampleDevice.Built ∧ sampleDevice.Everywhere IsStrict ∧ sampleDevice.Everywhere IsPlain := by
  have levels : ∀ {P : Schema → Prop}, P sampleSwitch → P sampleDevice →
      sampleDevice.Everywhere P := by
    intro P inner outer
    refine .intro outer fun f hf t ht => ?_
    simp only [sampleDevice, List.mem_cons, List.not_mem_nil, or_false] at hf
    rcases hf with rfl | rfl | rfl
    · cases ht
    · cases ht
    · obtain rfl := Option.some.inj ht
      refine .intro inner fun f hf t ht => ?_
      obtain rfl := List.mem_singleton.mp hf
      cases ht
  refine ⟨(built_iff _).mpr (levels ⟨by decide, by decide⟩ ⟨by decide, by decide⟩),
    levels rfl rfl, levels ?_ ?_⟩
  · simp [IsPlain, sampleSwitch]
  · simp [IsPlain, sampleDevice]

theorem validate_sampleDevice :
    (sampleDevice.Built ∧ sampleDevice.Everywhere IsStrict ∧ sampleDevice.Everywhere IsPlain) ∧
      ∃ r, sampleDevice.validate "\x7b\"switch\":\x7b\"on\":true\x7d\x7d"
          [⟨[("name", "x")], List.pairwise_singleton _ _⟩] = .ok r ∧
        r.getAs (.scalar .string) "note" = .ok none := by
  obtain ⟨built, strict, plain⟩ := sampleDevice_everywhere
  let overlays : List Overlay := [⟨[("name", "x")], List.pairwise_singleton _ _⟩]
  let document : Document := [("switch", .object [("on", .bool true)])]
  have read : IsDocument "\x7b\"switch\":\x7b\"on\":true\x7d\x7d" document := .object rfl rfl
  have switch : sampleSwitch.Yields [("on", .bool true)] ⟨[("on", .bool true)]⟩ := by
    refine .intro (by simp [sampleSwitch]) (.present rfl (.scalar ?_) .nil)
    exact .intro rfl (List.forall_mem_nil _)
  have stored : FieldsYield sampleDevice.fields (sourceAmong? document overlays)
      [("name", .string "x"), ("switch", .object ⟨[("on", .bool true)]⟩)] :=
    .absent rfl rfl (.present rfl (.scalar (.intro rfl (List.forall_mem_nil _)))
      (.present rfl (.object switch) .nil))
  have keys : sampleDevice.AcceptsKeys document overlays :=
    ⟨by decide, by decide, by decide, by decide⟩
  have accepts := validate_accepts built strict plain
    "\x7b\"switch\":\x7b\"on\":true\x7d\x7d" overlays
  obtain ⟨r, accepted⟩ := accepts.1.mpr ⟨document, read, (accepts_iff _ _ _).mpr ⟨keys, _, stored⟩⟩
  obtain ⟨document', read', -, -, fields⟩ := accepts.2 r accepted
  have same : document' = document := by
    rw [← readDocument_eq_ok_iff] at read read'
    exact Except.ok.inj (read'.symm.trans read)
  subst same
  exact ⟨⟨built, strict, plain⟩, r, accepted, (fields _ List.mem_cons_self).1.mpr rfl⟩

end Schema

end Intake
