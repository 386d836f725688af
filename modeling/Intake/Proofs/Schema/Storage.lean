import Intake.Proofs.Schema.Values
import Intake.Proofs.Value.Storing

/-!
# Storage of field values

The values of all fields go into one object, each under the unique name of its
field. Which of them are still there, after each field and in the result.
-/

namespace Intake

/-! ### Values of strict schemas -/

theorem mem_examineItems {path : String} {examine : String → Json → Except Report Value}
    {items : List Json} {index : Nat} {found : Report × List Value} {v : Value}
    (h : v ∈ (examineItems path examine index found items).2) :
    v ∈ found.2 ∨ ∃ i item, examine (itemPath path i) item = .ok v := by
  induction items generalizing index found with
  | nil => exact .inl h
  | cons item rest ih =>
    rw [examineItems] at h
    cases outcome : examine (itemPath path index) item with
    | error report =>
      rw [outcome] at h
      simpa only [noteItem] using ih h
    | ok w =>
      rw [outcome] at h
      rcases ih h with before | later
      · rcases List.mem_append.mp before with before | here
        · exact .inl before
        · obtain rfl := List.mem_singleton.mp here
          exact .inr ⟨index, item, outcome⟩
      · exact .inr later

/-- A property of all scalars, of the arrays of values that have it, and of the objects in which
values that have it are stored, each under a name of leaf names. -/
structure Value.Hereditary (P : Value → Prop) : Prop where
  scalar : ∀ kind a, P (.scalar kind a)
  array : ∀ items : List Value, (∀ v ∈ items, P v) → P (.array items)
  storing : ∀ items : List (String × Value),
    (∀ item ∈ items, (∀ key ∈ pathOf item.1, IsLeafName key) ∧ P item.2) →
      P (.object (.storing items))

theorem Value.DotFree.hereditary : Value.Hereditary Value.DotFree where
  scalar _ _ := .scalar
  array _ each := .array each
  storing _ each := Object.dotFree_storing fun item hi => (each item hi).2

section Hereditary

variable {P : Value → Prop}

theorem Value.Hereditary.of_examineArray (hereditary : Value.Hereditary P) {path : String}
    {examine : String → Json → Except Report Value} {source : Source} {v : Value}
    (each : ∀ i item w, examine (itemPath path i) item = .ok w → P w)
    (h : examineArray path examine source = .ok v) : P v := by
  unfold examineArray at h
  split at h
  · obtain ⟨-, rfl⟩ := (Report.toResult_eq_ok_iff _ _ _).mp h
    refine hereditary.array _ fun w hw => ?_
    obtain ⟨i, item, outcome⟩ := (mem_examineItems hw).resolve_left List.not_mem_nil
    exact each i item w outcome
  · cases h

theorem Value.Hereditary.of_read (hereditary : Value.Hereditary P) {e : Element} {path : String}
    {source : Source} {v : Value} (h : reportAt path (e.read source) = .ok v) : P v := by
  rw [reportAt_eq_ok_iff, Element.read_eq_ok_iff] at h
  cases h
  exact hereditary.scalar _ _

namespace Schema

def Gives (P : Value → Prop) (s : Schema) : Prop :=
  ∀ document overlay merging o, s.examine document overlay merging = .ok o → P (.object o)

theorem Gives.embed {s : Schema} (h : s.Gives P) {path : String} {members : Document}
    {v : Value} (outcome : Intake.embed path (s.examine members .empty .empty) = .ok v) :
    P v := by
  obtain ⟨o, result, rfl⟩ := (embed_eq_ok_iff _ _ _).mp outcome
  exact h _ _ _ _ result

def GivesDotFree (s : Schema) : Prop :=
  ∀ document overlay merging o, s.examine document overlay merging = .ok o →
    (Value.object o).DotFree

end Schema

theorem Field.gives {f : Field} (hereditary : Value.Hereditary P)
    (h : ∀ t ∈ f.schema?, t.Gives P) {source : Source} {v : Value}
    (outcome : f.shape.examine f.name source = .ok v) : P v := by
  obtain ⟨name, qualified?, required, shape, _, _⟩ := f
  cases shape with
  | scalar e =>
    rw [Shape.examine] at outcome
    exact hereditary.of_read outcome
  | array e =>
    rw [Shape.examine] at outcome
    exact hereditary.of_examineArray (fun _ _ _ => hereditary.of_read) outcome
  | object s =>
    unfold Shape.examine at outcome
    split at outcome
    · exact (h s rfl).embed outcome
    · cases outcome
  | objects s =>
    rw [Shape.examine_objects] at outcome
    refine hereditary.of_examineArray (fun i item w result => ?_) outcome
    obtain ⟨members, o, -, rfl, examined⟩ := (s.examineNode_eq_ok_iff _ _ _).mp result
    exact h s rfl _ _ _ _ examined

end Hereditary

theorem Field.leafNames_uniqueName (f : Field) : ∀ key ∈ pathOf f.uniqueName, IsLeafName key := by
  cases qualified : f.qualified? with
  | none =>
    rw [Field.uniqueName, qualified, Option.getD_none, pathOf,
      segments_of_dotFree f.name_ok.dotFree]
    intro key hk
    exact List.mem_singleton.mp hk ▸ f.name_ok
  | some q =>
    rw [Field.uniqueName, qualified, Option.getD_some]
    exact f.qualified_ok q qualified

theorem Field.stored?_eq_some_iff {f : Field} {document : Document} {overlay : Overlay}
    {item : String × Value} :
    f.stored? document overlay = some item ↔
      ∃ source, source? document overlay f.name = some source ∧
        f.shape.examine f.name source = .ok item.2 ∧ item.1 = f.uniqueName := by
  obtain ⟨key, value⟩ := item
  rw [stored?, outcome?]
  cases source? document overlay f.name with
  | none => cases f.required <;> simp [reportAt]
  | some source =>
    cases outcome : f.shape.examine f.name source with
    | error report => simp [outcome]
    | ok v => simp [outcome, and_comm, eq_comm]

namespace Schema

theorem values_examineFields (fields : List Field) (document : Document) (overlay : Overlay) :
    (examineFields fields document overlay .none).values =
      .storing (fields.filterMap (Field.stored? document overlay)) :=
  examineFields_values fields document overlay .none

theorem gives_stored {P : Value → Prop} (hereditary : Value.Hereditary P) {s : Schema}
    (h : ∀ f ∈ s.fields, ∀ t ∈ f.schema?, t.Gives P) (document : Document) (overlay : Overlay) :
    ∀ item ∈ s.fields.filterMap (Field.stored? document overlay),
      (∀ key ∈ pathOf item.1, IsLeafName key) ∧ P item.2 := by
  intro item hi
  obtain ⟨f, hf, stored⟩ := List.mem_filterMap.mp hi
  obtain ⟨source, -, outcome, name⟩ := Field.stored?_eq_some_iff.mp stored
  exact ⟨name ▸ f.leafNames_uniqueName, f.gives hereditary (h f hf) outcome⟩

theorem dotFree_stored {s : Schema} (h : ∀ f ∈ s.fields, ∀ t ∈ f.schema?, t.GivesDotFree)
    (document : Document) (overlay : Overlay) :
    ∀ item ∈ s.fields.filterMap (Field.stored? document overlay), item.2.DotFree :=
  fun item hi => (gives_stored Value.DotFree.hereditary h document overlay item hi).2

/-- What is handed down from values to what is made of them holds of all that a strict schema
gives. -/
theorem gives_of_strict {P : Value → Prop} (hereditary : Value.Hereditary P) {s : Schema}
    (strict : s.Everywhere IsStrict) : s.Gives P := by
  induction s using level_induction with
  | level s ih =>
    have within : ∀ f ∈ s.fields, ∀ t ∈ f.schema?, t.Gives P :=
      fun f hf t ht => ih f hf t ht (strict.within hf ht)
    intro document overlay merging o accepted
    obtain ⟨-, -, rfl⟩ := (s.examine_eq_ok_iff _ _ _ _).mp accepted
    rw [completed_of_strict strict.here, fieldValues, values_examineFields]
    exact hereditary.storing _ (gives_stored hereditary within document overlay)

theorem givesDotFree {s : Schema} (strict : s.Everywhere IsStrict) : s.GivesDotFree :=
  gives_of_strict Value.DotFree.hereditary strict

end Schema

/-! ### Kept values -/

/-- A field that is present has a value, and an object has it under the unique name of the
field. -/
def Field.Kept (f : Field) (document : Document) (overlay : Overlay) (o : Object) : Prop :=
  ∀ source, source? document overlay f.name = some source →
    ∃ v, f.shape.examine f.name source = .ok v ∧ o.Holds (f.uniqueName, v)

namespace Schema

/-- After each field all values so far are kept exactly if each is spared by the later ones. -/
theorem kept_iff_pairwise {s : Schema} (strict : s.Everywhere IsStrict) {document : Document}
    {overlay : Overlay} (clean : (s.fieldReport document overlay).isEmpty = true) :
    (∀ earlier later, s.fields = earlier ++ later → ∀ f ∈ earlier,
        f.Kept document overlay (examineFields earlier document overlay .none).values) ↔
      (s.fields.filterMap (Field.stored? document overlay)).Pairwise Object.Spared := by
  have plain := dotFree_stored (fun f hf t ht => givesDotFree (strict.within hf ht)) document overlay
  rw [← Object.holds_storing_iff plain]
  constructor
  · intro kept stored prefixed item hi
    -- The first items that are stored are those of the first fields.
    obtain ⟨rest, split⟩ := prefixed
    obtain ⟨earlier, later, fields, rfl, -⟩ := List.filterMap_eq_append_iff.mp split.symm
    obtain ⟨f, hf, found⟩ := List.mem_filterMap.mp hi
    obtain ⟨source, present, outcome, name⟩ := Field.stored?_eq_some_iff.mp found
    obtain ⟨v, same, holds⟩ := kept earlier later fields f hf source present
    rw [outcome] at same
    rw [values_examineFields, ← Except.ok.inj same, ← name] at holds
    exact holds
  · intro held earlier later fields f hf source present
    have declared : f ∈ s.fields := fields ▸ List.mem_append_left later hf
    have noReport := (s.fieldReport_isEmpty_iff document overlay).mp clean f declared
    rw [f.outcome?_of_source present] at noReport
    cases outcome : f.shape.examine f.name source with
    | error report => exact absurd (congrArg some outcome) (noReport report)
    | ok v =>
      refine ⟨v, rfl, ?_⟩
      rw [values_examineFields]
      apply held
      · rw [fields, List.filterMap_append]
        exact List.prefix_append _ _
      · exact List.mem_filterMap.mpr
          ⟨f, hf, Field.stored?_eq_some_iff.mpr ⟨source, present, outcome, rfl⟩⟩

/-- Where no unique name leads into another, no value is lost. -/
theorem kept_of_apart {s : Schema} (strict : s.Everywhere IsStrict)
    (apart : s.fields.Pairwise fun f g => ¬ pathOf f.uniqueName <+: pathOf g.uniqueName ∧
      ¬ pathOf g.uniqueName <+: pathOf f.uniqueName) {document : Document} {overlay : Overlay}
    {merging : Report} {r : Object} (accepted : s.examine document overlay merging = .ok r) :
    ∀ f ∈ s.fields, f.Kept document overlay r := by
  obtain ⟨-, clean, rfl⟩ := (s.examine_eq_ok_iff _ _ _ _).mp accepted
  rw [completed_of_strict strict.here]
  refine (kept_iff_pairwise strict clean).mpr ?_ s.fields [] (List.append_nil _).symm
  rw [List.pairwise_filterMap]
  refine apart.imp fun {f g} parted item hi item' hi' => ?_
  obtain ⟨_, -, -, name⟩ := Field.stored?_eq_some_iff.mp hi
  obtain ⟨_, -, -, name'⟩ := Field.stored?_eq_some_iff.mp hi'
  apply Object.spared_of_apart
  · rw [name, name']
    exact parted.1
  · rw [name, name']
    exact parted.2

/-- When no value of an input is lost. Every field that is present has a value; all of them are
read back under their unique names, from the result and after each field before, exactly if each
value that is stored is spared by all that are stored after it. -/
theorem kept_iff_spared {s : Schema} (strict : s.Everywhere IsStrict) {text : String}
    {overlays : List Overlay} {r : Object} (accepted : s.validate text overlays = .ok r) :
    ∃ document overlay, readDocument text = .ok document ∧ overlay = (mergeOverlays overlays).1 ∧
      (((∀ f ∈ s.fields, f.Kept document overlay r) ∧
        ∀ earlier later, s.fields = earlier ++ later → ∀ f ∈ earlier,
          f.Kept document overlay (examineFields earlier document overlay .none).values) ↔
        (s.fields.filterMap (Field.stored? document overlay)).Pairwise Object.Spared) := by
  obtain ⟨document, read, accepted⟩ := (s.validate_eq_ok_iff_examine _ _ _).mp accepted
  obtain ⟨-, clean, rfl⟩ := (s.examine_eq_ok_iff _ _ _ _).mp accepted
  refine ⟨document, _, read, rfl, ?_⟩
  rw [← kept_iff_pairwise strict clean, completed_of_strict strict.here]
  constructor
  · exact And.right
  · exact fun kept => ⟨kept s.fields [] (List.append_nil _).symm, kept⟩

def sampleInner (name : String) (ok : IsLeafName name) : Schema :=
  ⟨[⟨name, none, true, .scalar (.of .string), ok, qualified_none⟩], false⟩

/-- An object that is stored under its own name, and one that is stored under another. -/
def sampleStored (qualified : String) (ok : IsQualifiedName qualified) : Schema :=
  ⟨[⟨"a", none, true, .object (sampleInner "k" (by decide)), by decide, qualified_none⟩,
    ⟨"b", some qualified, true, .object (sampleInner "m" (by decide)), by decide,
      qualified_some ok⟩], false⟩

def sampleDocument : Document :=
  [("a", .object [("k", .string "x")]), ("b", .object [("m", .string "y")])]

def sampleText : String := "\x7b\"a\":\x7b\"k\":\"x\"\x7d,\"b\":\x7b\"m\":\"y\"\x7d\x7d"

theorem sampleStored_everywhere (qualified : String) (ok : IsQualifiedName qualified) :
    (sampleStored qualified ok).Built ∧ (sampleStored qualified ok).Everywhere IsStrict := by
  have levels : ∀ {P : Schema → Prop}, (∀ name ok, P (sampleInner name ok)) →
      P (sampleStored qualified ok) → (sampleStored qualified ok).Everywhere P := by
    intro P inner here
    have within : ∀ name ok, (sampleInner name ok).Everywhere P := by
      intro name ok
      refine .intro (inner name ok) fun f hf t ht => ?_
      obtain rfl := List.mem_singleton.mp hf
      cases ht
    refine .intro here fun f hf t ht => ?_
    simp only [sampleStored, List.mem_cons, List.not_mem_nil, or_false] at hf
    rcases hf with rfl | rfl
    · exact Option.some.inj ht ▸ within _ _
    · exact Option.some.inj ht ▸ within _ _
  refine ⟨(built_iff _).mpr (levels ?_ ⟨?_, ?_⟩), levels (fun _ _ => rfl) rfl⟩
  · exact fun name ok => ⟨List.nodup_singleton name, .nil⟩
  · show ["a", "b"].Nodup
    decide
  · show [qualified].Nodup
    exact List.nodup_singleton qualified

theorem read_sampleText : readDocument sampleText = .ok sampleDocument := rfl

theorem validate_sampleStored (qualified : String) (ok : IsQualifiedName qualified) :
    (sampleStored qualified ok).validate sampleText [] =
      .ok ((sampleStored qualified ok).fieldValues sampleDocument .empty) :=
  validate_eq_ok_of_clean read_sampleText rfl rfl rfl

theorem kept_sampleStored :
    (sampleStored "t.a" (by decide)).Everywhere IsStrict ∧
      ∃ document r, readDocument sampleText = .ok document ∧
        (sampleStored "t.a" (by decide)).validate sampleText [] = .ok r ∧
        ∀ f ∈ (sampleStored "t.a" (by decide)).fields, f.Kept document (mergeOverlays []).1 r := by
  obtain ⟨-, strict⟩ := sampleStored_everywhere "t.a" (by decide)
  have accepted := validate_sampleStored "t.a" (by decide)
  obtain ⟨document, _, read, rfl, kept⟩ := kept_iff_spared strict accepted
  obtain rfl : sampleDocument = document := Except.ok.inj (read_sampleText.symm.trans read)
  have apart : Object.Spared ("a", .object ⟨[("k", .string "x")]⟩)
      ("t.a", .object ⟨[("m", .string "y")]⟩) := Object.spared_of_apart (by decide) (by decide)
  refine ⟨strict, sampleDocument, _, read, accepted, (kept.mpr ?_).1⟩
  show [("a", Value.object ⟨[("k", .string "x")]⟩),
    ("t.a", .object ⟨[("m", .string "y")]⟩)].Pairwise Object.Spared
  simpa using apart

/-- No two fields share a name or a qualified name, but the object of the second field takes the
place of that of the first. -/
theorem not_kept_sampleStored :
    (sampleStored "a" (by decide)).Built ∧ (sampleStored "a" (by decide)).Everywhere IsStrict ∧
      ∃ document r, readDocument sampleText = .ok document ∧
        (sampleStored "a" (by decide)).validate sampleText [] = .ok r ∧
        ¬ ∀ f ∈ (sampleStored "a" (by decide)).fields, f.Kept document (mergeOverlays []).1 r := by
  obtain ⟨built, strict⟩ := sampleStored_everywhere "a" (by decide)
  refine ⟨built, strict, sampleDocument, _, read_sampleText,
    validate_sampleStored "a" (by decide), ?_⟩
  intro kept
  obtain ⟨v, stored, x, found, keeps⟩ :=
    kept _ List.mem_cons_self (.node (.object [("k", .string "x")])) rfl
  obtain rfl : Value.object ⟨[("k", .string "x")]⟩ = v := Except.ok.inj stored
  have read : ((sampleStored "a" (by decide)).fieldValues sampleDocument .empty).get "a" =
      .ok (some (.object ⟨[("m", .string "y")]⟩)) := rfl
  obtain rfl : x = .object ⟨[("m", .string "y")]⟩ :=
    Option.some.inj (Except.ok.inj (found.symm.trans read))
  obtain ⟨o, same, entries⟩ := keeps
  obtain rfl := Value.object.inj same
  have lost : (none : Option Value) = some (.string "x") := entries "k" (.string "x") rfl
  cases lost

end Schema

end Intake
