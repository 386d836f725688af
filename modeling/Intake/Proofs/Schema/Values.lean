import Intake.Proofs.Value.Walks
import Intake.Proofs.Schema.Keys
import Intake.Proofs.Schema.Outcomes
import Mathlib.Data.List.Forall2

/-!
# Values of shapes

Which values the sources of an input give, as relations that follow the embedded
schemas to any depth and speak of no report and of no order of checks. At levels
that are strict and have no qualified names the examination gives just these.
-/

namespace Intake

/-- The source of a name among the overlays as they are given; the document comes before them. -/
def sourceAmong? (document : Document) (overlays : List Overlay) (name : String) : Option Source :=
  match Entries.lookup name document with
  | some json => some (.node json)
  | none => (overlays.findSome? (·.find? name)).map .text

/-! ### Values of shapes -/

/-- A source is coerced to a value that meets all constraints. -/
inductive Element.Yields (e : Element) (source : Source) : Value → Prop where
  | intro {a : e.kind.Carrier} (coerced : source.coerce e.kind = .ok a)
      (met : ∀ c ∈ e.constraints, c.violation? a = none) : e.Yields source (.scalar e.kind a)

mutual

inductive Shape.Yields : Shape → Source → Value → Prop where
  | scalar {e : Element} {source : Source} {v : Value} (read : e.Yields source v) :
      (Shape.scalar e).Yields source v
  | array {e : Element} {items : List Json} {values : List Value}
      (each : List.Forall₂ (fun item v => e.Yields (.node item) v) items values) :
      (Shape.array e).Yields (.node (.array items)) (.array values)
  | object {s : Schema} {members : Document} {o : Object} (embedded : s.Yields members o) :
      (Shape.object s).Yields (.node (.object members)) (.object o)
  | objects {s : Schema} {items : List Json} {values : List Value}
      (each : s.YieldsEach items values) :
      (Shape.objects s).Yields (.node (.array items)) (.array values)

/-- An embedded document has no key but those of fields, and gives the object. -/
inductive Schema.Yields : Schema → Document → Object → Prop where
  | intro {s : Schema} {document : Document} {o : Object}
      (declared : ∀ key ∈ document.map Prod.fst, ∃ f ∈ s.fields, f.name = key)
      (stored : FieldsYield s.fields (sourceAmong? document []) o.entries) : s.Yields document o

inductive Schema.YieldsEach : Schema → List Json → List Value → Prop where
  | nil {s : Schema} : s.YieldsEach [] []
  | cons {s : Schema} {members : Document} {o : Object} {items : List Json} {values : List Value}
      (first : s.Yields members o) (others : s.YieldsEach items values) :
      s.YieldsEach (.object members :: items) (.object o :: values)

/-- The fields that are present give the entries, in the order of the fields; no field that is
required is absent. -/
inductive FieldsYield : List Field → (String → Option Source) → List (String × Value) → Prop where
  | nil {source? : String → Option Source} : FieldsYield [] source? []
  | absent {f : Field} {fields : List Field} {source? : String → Option Source}
      {entries : List (String × Value)} (absent : source? f.name = none)
      (optional : f.required = false) (others : FieldsYield fields source? entries) :
      FieldsYield (f :: fields) source? entries
  | present {f : Field} {fields : List Field} {source? : String → Option Source} {source : Source}
      {v : Value} {entries : List (String × Value)} (found : source? f.name = some source)
      (conforms : f.shape.Yields source v) (others : FieldsYield fields source? entries) :
      FieldsYield (f :: fields) source? ((f.name, v) :: entries)

end

/-! ### The values that an examination gives -/

theorem Element.read_eq_ok_iff (e : Element) (source : Source) (v : Value) :
    e.read source = .ok v ↔ e.Yields source v := by
  rw [read_eq]
  cases coerced : source.coerce e.kind with
  | error fault =>
    constructor
    · intro h
      cases h
    · rintro ⟨found, -⟩
      rw [coerced] at found
      cases found
  | ok a =>
    have checked : e.check a = .ok v ↔
        (∀ c ∈ e.constraints, c.violation? a = none) ∧ .scalar e.kind a = v := by
      rw [check]
      cases first : e.constraints.findSome? (·.violation? a) with
      | some w => simpa [← List.findSome?_eq_none_iff] using fun none => by simp [first] at none
      | none => simpa using fun _ => List.findSome?_eq_none_iff.mp first
    show e.check a = .ok v ↔ _
    rw [checked]
    constructor
    · rintro ⟨met, rfl⟩
      exact .intro coerced met
    · rintro ⟨found, met⟩
      rw [coerced] at found
      obtain rfl := Except.ok.inj found
      exact ⟨met, rfl⟩

section Items

variable {path : String} {examine : String → Json → Except Report Value} {R : Json → Value → Prop}

/-- Items are examined one by one; nothing is wrong with them exactly if each has a value. -/
theorem examineItems_ok_iff
    (gives : ∀ i item v, examine (itemPath path i) item = .ok v ↔ R item v)
    (reasons : ∀ i item report, examine (itemPath path i) item = .error report →
      report.isEmpty = false) (items : List Json) (index : Nat) (found : Report × List Value)
    (values : List Value) :
    ((examineItems path examine index found items).1.isEmpty = true ∧
        (examineItems path examine index found items).2 = values) ↔
      found.1.isEmpty = true ∧ ∃ others, values = found.2 ++ others ∧
        List.Forall₂ R items others := by
  induction items generalizing index found with
  | nil =>
    simp only [examineItems, List.forall₂_nil_left_iff, exists_eq_right, List.append_nil]
    exact and_congr_right fun _ => eq_comm
  | cons item rest ih =>
    rw [examineItems, ih]
    cases outcome : examine (itemPath path index) item with
    | ok v =>
      have only : ∀ w, R item w ↔ w = v := by
        intro w
        rw [← gives index, outcome, Except.ok.injEq, eq_comm]
      simp only [noteItem, List.forall₂_cons_left_iff, only]
      constructor
      · rintro ⟨clean, others, rfl, each⟩
        exact ⟨clean, v :: others, by simp, v, others, rfl, each, rfl⟩
      · rintro ⟨clean, _, rfl, _, others, rfl, each, rfl⟩
        exact ⟨clean, others, by simp, each⟩
    | error report =>
      have reported := (Report.entries_ne_nil_iff _).mpr (reasons _ _ _ outcome)
      constructor
      · rintro ⟨clean, -⟩
        exact absurd clean (by simp [noteItem, Report.isEmpty_addAll _ (.inr reported)])
      · rintro ⟨-, _, -, each⟩
        obtain ⟨w, -, first, -, -⟩ := List.forall₂_cons_left_iff.mp each
        rw [← gives index, outcome] at first
        cases first

theorem examineArray_eq_ok_iff
    (gives : ∀ i item v, examine (itemPath path i) item = .ok v ↔ R item v)
    (reasons : ∀ i item report, examine (itemPath path i) item = .error report →
      report.isEmpty = false) (source : Source) (v : Value) :
    examineArray path examine source = .ok v ↔
      ∃ items values, source = .node (.array items) ∧ v = .array values ∧
        List.Forall₂ R items values := by
  unfold examineArray
  split
  · next items =>
    rw [Report.toResult_eq_ok_iff]
    constructor
    · rintro ⟨clean, rfl⟩
      obtain ⟨-, values, all, each⟩ :=
        (examineItems_ok_iff gives reasons items 0 _ _).mp ⟨clean, rfl⟩
      exact ⟨items, values, rfl, congrArg Value.array all, each⟩
    · rintro ⟨_, values, same, rfl, each⟩
      obtain rfl := Json.array.inj (Source.node.inj same)
      obtain ⟨clean, all⟩ := (examineItems_ok_iff gives reasons items 0 (.empty, []) values).mpr
        ⟨rfl, values, rfl, each⟩
      exact ⟨clean, congrArg Value.array all⟩
  · next other =>
    constructor
    · intro h
      cases h
    · rintro ⟨items, _, rfl, -⟩
      exact absurd rfl (other items)

end Items

/-! ### One level -/

namespace Schema

/-- The examination of embedded documents gives what they yield. -/
def Meets (s : Schema) : Prop :=
  ∀ document o, s.examine document .empty .empty = .ok o ↔ s.Yields document o

theorem yieldsEach_iff (s : Schema) (items : List Json) (values : List Value) :
    s.YieldsEach items values ↔
      List.Forall₂ (fun item v => ∃ members o, item = .object members ∧ v = .object o ∧
        s.Yields members o) items values := by
  constructor
  · intro h
    induction items generalizing values with
    | nil => cases h; exact .nil
    | cons item items ih =>
      cases h with
      | cons first others => exact .cons ⟨_, _, rfl, rfl, first⟩ (ih _ others)
  · intro h
    induction h with
    | nil => exact .nil
    | cons first _ ih =>
      obtain ⟨members, o, rfl, rfl, yields⟩ := first
      exact .cons yields ih

end Schema

/-- What a source gives to a field is what it yields, where this is so for what the field
embeds. -/
theorem Field.examine_eq_ok_iff {f : Field} (meets : ∀ t ∈ f.schema?, t.Meets) (source : Source)
    (v : Value) : f.shape.examine f.name source = .ok v ↔ f.shape.Yields source v := by
  obtain ⟨name, qualified?, required, shape, _, _⟩ := f
  show shape.examine name source = .ok v ↔ shape.Yields source v
  cases shape with
  | scalar e =>
    rw [Shape.examine, reportAt_eq_ok_iff, Element.read_eq_ok_iff]
    exact ⟨.scalar, fun h => by cases h; assumption⟩
  | array e =>
    have gives : ∀ (i : Nat) (item : Json) (v : Value),
        reportAt (itemPath name i) (e.read (.node item)) = .ok v ↔ e.Yields (.node item) v := by
      intro i item v
      rw [reportAt_eq_ok_iff, Element.read_eq_ok_iff]
    rw [Shape.examine, examineArray_eq_ok_iff gives fun _ _ _ => isEmpty_of_reportAt_eq_error]
    constructor
    · rintro ⟨items, values, rfl, rfl, each⟩
      exact .array each
    · intro h
      cases h with
      | array each => exact ⟨_, _, rfl, rfl, each⟩
  | object s =>
    have embedded : s.Meets := meets s rfl
    unfold Shape.examine
    constructor
    · intro h
      split at h
      · obtain ⟨o, given, rfl⟩ := (embed_eq_ok_iff _ _ _).mp h
        exact .object ((embedded _ _).mp given)
      · cases h
    · intro h
      cases h with
      | object yields => exact (embed_eq_ok_iff _ _ _).mpr ⟨_, (embedded _ _).mpr yields, rfl⟩
  | objects s =>
    have embedded : s.Meets := meets s rfl
    rw [Shape.examine_objects, examineArray_eq_ok_iff
      (fun i item v => s.examineNode_eq_ok_iff (itemPath name i) item v)
      fun _ _ _ => Schema.isEmpty_of_examineNode_eq_error]
    simp only [embedded _ _, ← s.yieldsEach_iff]
    constructor
    · rintro ⟨items, values, rfl, rfl, each⟩
      exact .objects each
    · intro h
      cases h with
      | objects each => exact ⟨_, _, rfl, rfl, each⟩

/-! ### Fields -/

theorem fieldsYield_cons_iff (f : Field) (fields : List Field) (source? : String → Option Source)
    (entries : List (String × Value)) :
    FieldsYield (f :: fields) source? entries ↔
      (source? f.name = none ∧ f.required = false ∧ FieldsYield fields source? entries) ∨
      ∃ source v rest, source? f.name = some source ∧ f.shape.Yields source v ∧
        FieldsYield fields source? rest ∧ entries = (f.name, v) :: rest := by
  constructor
  · intro h
    cases h with
    | absent absent optional others => exact .inl ⟨absent, optional, others⟩
    | present found conforms others => exact .inr ⟨_, _, _, found, conforms, others, rfl⟩
  · intro h
    rcases h with ⟨absent, optional, others⟩ | ⟨source, v, rest, found, conforms, others, rfl⟩
    · exact .absent absent optional others
    · exact .present found conforms others

theorem fieldsYield_iff_stored {fields : List Field} {document : Document} {overlay : Overlay}
    (plain : ∀ f ∈ fields, f.qualified? = none)
    (meets : ∀ f ∈ fields, ∀ t ∈ f.schema?, t.Meets) (entries : List (String × Value)) :
    FieldsYield fields (source? document overlay) entries ↔
      (∀ f ∈ fields, ∀ report, f.outcome? document overlay ≠ some (.error report)) ∧
        fields.filterMap (Field.stored? document overlay) = entries := by
  induction fields generalizing entries with
  | nil =>
    constructor
    · intro h
      cases h
      exact ⟨fun f hf => absurd hf List.not_mem_nil, rfl⟩
    · rintro ⟨-, rfl⟩
      exact .nil
  | cons f fields ih =>
    have others := ih (fun g hg => plain g (List.mem_cons_of_mem f hg))
      (fun g hg => meets g (List.mem_cons_of_mem f hg))
    have name : f.uniqueName = f.name := by rw [Field.uniqueName, plain f List.mem_cons_self]; rfl
    rw [fieldsYield_cons_iff, List.forall_mem_cons]
    cases found : source? document overlay f.name with
    | none =>
      have outcome := f.outcome?_of_no_source found
      cases required : f.required with
      | true =>
        rw [required, if_pos rfl] at outcome
        simp [outcome, reportAt]
      | false =>
        rw [required, if_neg Bool.false_ne_true] at outcome
        have stored : f.stored? document overlay = none := by rw [Field.stored?, outcome]
        rw [List.filterMap_cons_none stored]
        simp [outcome, others]
    | some source =>
      have outcome := f.outcome?_of_source found
      have gives := f.examine_eq_ok_iff (meets f List.mem_cons_self) source
      cases result : f.shape.examine f.name source with
      | error report =>
        -- An outcome that is a report excludes every value, and so either side.
        have nothing : ∀ v, ¬ f.shape.Yields source v := by
          intro v yields
          rw [← gives, result] at yields
          cases yields
        simp [outcome, result, nothing]
      | ok v =>
        have only : ∀ w, f.shape.Yields source w ↔ w = v := by
          intro w
          rw [← gives, result, Except.ok.injEq, eq_comm]
        have stored : f.stored? document overlay = some (f.name, v) := by
          rw [Field.stored?, outcome, result, name]
        rw [List.filterMap_cons_some stored, outcome, result]
        constructor
        · intro h
          rcases h with ⟨absent, -, -⟩ | ⟨other, w, rest, same, yields, more, rfl⟩
          · cases absent
          · obtain rfl := Option.some.inj same
            obtain ⟨fine, rfl⟩ := (others rest).mp more
            obtain rfl := (only w).mp yields
            exact ⟨⟨by simp, fine⟩, rfl⟩
        · rintro ⟨⟨-, fine⟩, rfl⟩
          exact .inr ⟨source, v, _, rfl, (only v).mpr rfl, (others _).mpr ⟨fine, rfl⟩, rfl⟩

/-! ### Schemas -/

theorem sourceAmong?_nil (document : Document) :
    sourceAmong? document [] = source? document .empty := by
  funext name
  unfold sourceAmong? source?
  cases Entries.lookup name document <;> rfl

namespace Schema

theorem entries_fieldValues {s : Schema} (distinct : s.NamesDistinct) (plain : s.IsPlain)
    (document : Document) (overlay : Overlay) :
    (s.fieldValues document overlay).entries =
      s.fields.filterMap (Field.stored? document overlay) := by
  have names : s.fields.map Field.uniqueName = s.fields.map Field.name := by
    apply List.map_congr_left
    intro f hf
    rw [Field.uniqueName, plain f hf]
    rfl
  have sublist := keys_stored_sublist s.fields document overlay
  rw [names] at sublist
  rw [fieldValues, examineFields_values]
  apply Object.foldl_putAt_of_dotFree
  · intro name hm
    obtain ⟨f, -, rfl⟩ := List.mem_map.mp (sublist.subset hm)
    exact f.name_ok.dotFree
  · exact distinct.1.sublist sublist

theorem examine_eq_ok_iff_fieldsYield {s : Schema} (distinct : s.NamesDistinct)
    (strict : s.IsStrict) (plain : s.IsPlain) (meets : ∀ f ∈ s.fields, ∀ t ∈ f.schema?, t.Meets)
    (document : Document) (overlay : Overlay) (merging : Report) (o : Object) :
    s.examine document overlay merging = .ok o ↔
      (s.keyReport document overlay merging).isEmpty = true ∧
        FieldsYield s.fields (source? document overlay) o.entries := by
  rw [examine_eq_ok_iff, fieldReport_isEmpty_iff, fieldsYield_iff_stored plain meets,
    ← entries_fieldValues distinct plain, completed_of_strict strict]
  have ext : s.fieldValues document overlay = o ↔
      (s.fieldValues document overlay).entries = o.entries := by
    cases o
    cases s.fieldValues document overlay
    simp
  rw [ext]

/-- An embedded document is examined with the value that it yields, whatever its schema embeds. -/
theorem meets {s : Schema} (built : s.Built) (strict : s.Everywhere IsStrict)
    (plain : s.Everywhere IsPlain) : s.Meets := by
  induction s using level_induction with
  | level s ih =>
    have within : ∀ f ∈ s.fields, ∀ t ∈ f.schema?, t.Meets := fun f hf t ht =>
      ih f hf t ht (built.within hf ht) (strict.within hf ht) (plain.within hf ht)
    have strict : s.permissive = false := strict.here
    intro document o
    have keys : (s.keyReport document .empty .empty).isEmpty = true ↔
        ∀ key ∈ document.map Prod.fst, ∃ f ∈ s.fields, f.name = key := by
      have empty : Report.empty.isEmpty = true := rfl
      have none : SortedMap.keys (.empty : Overlay) = [] := rfl
      rw [keyReport_isEmpty_iff, none]
      simp [documentKeyViolation?_eq_none_iff, empty, strict]
    rw [examine_eq_ok_iff_fieldsYield built.distinct strict plain.here within, keys,
      ← sourceAmong?_nil]
    constructor
    · rintro ⟨declared, stored⟩
      exact .intro declared stored
    · rintro ⟨declared, stored⟩
      exact ⟨declared, stored⟩

end Schema

end Intake
