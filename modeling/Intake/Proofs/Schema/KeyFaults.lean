import Intake.Proofs.Schema.Acceptance
import Intake.Proofs.Schema.Faults

/-!
# Faults of the keys of an input

Which keys of an input are at fault and with what, told from the keys of the document,
the overlays and the fields, with no order of checks. The report on the keys has
exactly these faults as its entries. An input without them is looked at field by
field, with all that its overlays say.
-/

namespace Intake

/-! ### Keys of several overlays -/

theorem SortedMap.contains_iff {α : Type} (m : SortedMap α) (key : String) :
    m.contains key = true ↔ key ∈ m.keys := by
  have absent := Entries.lookup_eq_none_iff key m.entries
  rw [contains, Option.isSome_iff_ne_none, find?, Ne, absent, not_not]
  rfl

theorem SortedMap.not_contains_iff {α : Type} (m : SortedMap α) (key : String) :
    m.contains key = false ↔ key ∉ m.keys := by
  rw [← m.contains_iff, Bool.not_eq_true]

def SortedMap.single {α : Type} (key : String) (value : α) : SortedMap α :=
  ⟨[(key, value)], List.pairwise_singleton _ _⟩

@[simp] theorem SortedMap.keys_single {α : Type} (key : String) (value : α) :
    (single key value).keys = [key] := rfl

/-- A key that several overlays have stands as often among all keys. -/
theorem count_flatMap_keys (overlays : List Overlay) (key : String) :
    (overlays.flatMap SortedMap.keys).count key = overlays.countP (·.contains key) := by
  induction overlays with
  | nil => rfl
  | cons overlay overlays ih =>
    have once : overlay.keys.count key = if overlay.contains key then 1 else 0 := by
      split
      · next h => exact List.count_eq_one_of_mem overlay.nodup_keys ((overlay.contains_iff key).mp h)
      · next h => exact List.count_eq_zero.mpr fun mem => h ((overlay.contains_iff key).mpr mem)
    rw [List.flatMap_cons, List.count_append, List.countP_cons, ih, once, Nat.add_comm]

theorem contains_foldl_mergeText (items : List (String × String)) (key : String) :
    (items.foldl mergeText (.empty, .empty)).1.contains key = true ↔ key ∈ items.map Prod.fst := by
  have found := find?_foldl_mergeText items (.empty, .empty) key
  rw [SortedMap.find?_empty, Option.or_none] at found
  rw [SortedMap.contains, found, Option.isSome_iff_ne_none, Ne, Entries.lookup_eq_none_iff, not_not,
    List.map_reverse, List.mem_reverse]

theorem get?_foldl_mergeText (items : List (String × String)) (key : String) :
    (items.foldl mergeText (.empty, .empty)).2.get? key =
      if 2 ≤ (items.map Prod.fst).count key then
        some ⟨"conflict", s!"duplicated parameter '{key}'", some key, []⟩
      else none := by
  induction items using List.reverseRecOn with
  | nil => rfl
  | append_singleton items item ih =>
    have seen := contains_foldl_mergeText items item.1
    rw [List.foldl_append, List.foldl_cons, List.foldl_nil, mergeText, List.map_append,
      List.count_append, List.map_singleton, List.count_singleton]
    by_cases same : item.1 = key
    · subst same
      by_cases before : item.1 ∈ items.map Prod.fst
      · have often : 0 < (items.map Prod.fst).count item.1 := List.count_pos_iff.mpr before
        have twice : 2 ≤ (items.map Prod.fst).count item.1 + 1 := by omega
        simp [seen.mpr before, Report.get?_add, twice, Violation.of, Violation.withField]
      · have never : (items.map Prod.fst).count item.1 = 0 := List.count_eq_zero.mpr before
        simp [mt seen.mp before, ih, never]
    · have other : (item.1 == key) = false := beq_false_of_ne same
      have kept : ∀ (r : Report) (v : Violation), (r.add item.1 v).get? key = r.get? key := by
        intro r v
        rw [Report.get?_add, if_neg same]
      simp only [other, Bool.false_eq_true, if_false, Nat.add_zero, ← ih]
      split
      · exact kept _ _
      · rfl

/-- What is wrong with the overlays before anything else is looked at: the keys that several of
them have. -/
theorem get?_mergeOverlays (overlays : List Overlay) (key : String) :
    (mergeOverlays overlays).2.get? key =
      if 2 ≤ overlays.countP (·.contains key) then
        some ⟨"conflict", s!"duplicated parameter '{key}'", some key, []⟩
      else none := by
  rw [mergeOverlays_eq, get?_foldl_mergeText, flatMap_entries_keys, count_flatMap_keys]

/-- Where the overlays share no key, all that they say is said by the merged one, and nothing
else. -/
theorem find?_mergeOverlays {overlays : List Overlay}
    (apart : (overlays.flatMap SortedMap.keys).Nodup) (key text : String) :
    (mergeOverlays overlays).1.find? key = some text ↔
      ∃ overlay ∈ overlays, overlay.find? key = some text := by
  have distinct : ((overlays.flatMap SortedMap.entries).map Prod.fst).Nodup := by
    rw [flatMap_entries_keys]
    exact apart
  rw [mergeOverlays_eq, find?_foldl_mergeText, Entries.lookup_reverse distinct,
    SortedMap.find?_empty, Option.or_none]
  constructor
  · intro found
    obtain ⟨overlay, given, mem⟩ := List.mem_flatMap.mp (Entries.mem_of_lookup found)
    exact ⟨overlay, given, (overlay.find?_eq_some_iff key text).mpr mem⟩
  · intro found
    obtain ⟨overlay, given, text⟩ := found
    have mem := (overlay.find?_eq_some_iff _ _).mp text
    exact Entries.lookup_of_mem distinct (List.mem_flatMap.mpr ⟨overlay, given, mem⟩)

/-! ### Faults -/

namespace Schema

/-- What is wrong with a key, be it of the document or of overlays. What a key is at fault with
besides does not count. -/
inductive KeyFault (s : Schema) (document : Document) (overlays : List Overlay) (key : String) :
    Violation → Prop where
  /-- The document and an overlay have the key. -/
  | shared (member : key ∈ document.map Prod.fst)
      (text : ∃ overlay ∈ overlays, key ∈ overlay.keys) :
      s.KeyFault document overlays key
        ⟨"conflict", s!"duplicate parameter in params and json '{key}'", none, []⟩
  | unknownMember (member : key ∈ document.map Prod.fst)
      (noText : ¬ ∃ overlay ∈ overlays, key ∈ overlay.keys) (strict : s.permissive = false)
      (undeclared : ∀ f ∈ s.fields, f.name ≠ key) :
      s.KeyFault document overlays key ⟨"unknown_field", s!"unknown json field '{key}'", none, []⟩
  /-- An overlay has a text for a field that takes none. -/
  | notScalar (noMember : key ∉ document.map Prod.fst)
      (text : ∃ overlay ∈ overlays, key ∈ overlay.keys) {f : Field} (declared : f ∈ s.fields)
      (name : f.name = key) (shape : f.isScalar = false) :
      s.KeyFault document overlays key
        ⟨"invalid_parameter", s!"parameter '{key}' is mapped to an embedded object or array", none,
          []⟩
  | unknownText (noMember : key ∉ document.map Prod.fst)
      (text : ∃ overlay ∈ overlays, key ∈ overlay.keys) (strict : s.permissive = false)
      (undeclared : ∀ f ∈ s.fields, f.name ≠ key) :
      s.KeyFault document overlays key ⟨"unknown_field", s!"unknown parameter '{key}'", none, []⟩
  /-- Several overlays have the key, and nothing else is wrong with it. -/
  | repeated (noMember : key ∉ document.map Prod.fst)
      (scalar : ∀ f ∈ s.fields, f.name = key → f.isScalar = true)
      (known : s.permissive = true ∨ ∃ f ∈ s.fields, f.name = key)
      (twice : 2 ≤ overlays.countP (·.contains key)) :
      s.KeyFault document overlays key ⟨"conflict", s!"duplicated parameter '{key}'", none, []⟩

variable {s : Schema} {document : Document} {overlays : List Overlay} {key : String}

theorem given_of_twice (twice : 2 ≤ overlays.countP (·.contains key)) :
    ∃ overlay ∈ overlays, key ∈ overlay.keys := by
  have some : 0 < overlays.countP (·.contains key) := by omega
  obtain ⟨overlay, given, has⟩ := List.countP_pos_iff.mp some
  exact ⟨overlay, given, (overlay.contains_iff key).mp has⟩

theorem get?_mergeOverlays_of_not_given (absent : ¬ ∃ overlay ∈ overlays, key ∈ overlay.keys) :
    (mergeOverlays overlays).2.get? key = none := by
  rw [get?_mergeOverlays, if_neg fun twice => absent (given_of_twice twice)]

def structureReport (s : Schema) (document : Document) (overlays : List Overlay) : Report :=
  s.keyReport document (mergeOverlays overlays).1 (mergeOverlays overlays).2

/-- A key of the document counts as such; else a text counts by itself, and only then together with
the texts that other overlays have. -/
theorem get?_structureReport (s : Schema) (document : Document) (overlays : List Overlay)
    (key : String) :
    (s.structureReport document overlays).get? key =
      match (if key ∈ document.map Prod.fst then
        s.documentKeyViolation? (mergeOverlays overlays).1 key else none) with
      | some v => some (v.withField key)
      | none =>
        match (if key ∈ (mergeOverlays overlays).1.keys then s.overlayKeyViolation? key else none) with
        | some v => some (v.withField key)
        | none => (mergeOverlays overlays).2.get? key := by
  have keys := get?_reportKeys (s.documentKeyViolation? (mergeOverlays overlays).1)
    (document.map Prod.fst)
    (reportKeys s.overlayKeyViolation? (mergeOverlays overlays).1.keys (mergeOverlays overlays).2) key
  rw [get?_reportKeys s.overlayKeyViolation?] at keys
  exact keys

/-- Each fault is reported, and no other one of the key takes its place. -/
theorem KeyFault.get?_eq {e : Violation} (distinct : s.NamesDistinct)
    (fault : s.KeyFault document overlays key e) :
    (s.structureReport document overlays).get? key = some (e.withField key) := by
  have merged := mem_keys_mergeOverlays overlays key
  rw [get?_structureReport]
  cases fault with
  | shared member text =>
    have has := (SortedMap.contains_iff _ _).mpr (merged.mpr text)
    rw [if_pos member, documentKeyViolation?, if_pos has]
    rfl
  | unknownMember member noText strict undeclared =>
    have lacks := (SortedMap.not_contains_iff _ _).mpr (mt merged.mp noText)
    have missing : s.field? key = none := (field?_eq_none_iff s key).mpr undeclared
    rw [if_pos member, documentKeyViolation?, lacks, strict, declares, missing]
    rfl
  | notScalar noMember text declared name shape =>
    have found := (field?_eq_some_iff distinct key _).mpr ⟨declared, name⟩
    rw [if_neg noMember, if_pos (merged.mpr text), overlayKeyViolation?, found]
    simp only [shape, Bool.false_eq_true, if_false]
    rfl
  | unknownText noMember text strict undeclared =>
    have missing : s.field? key = none := (field?_eq_none_iff s key).mpr undeclared
    rw [if_neg noMember, if_pos (merged.mpr text), overlayKeyViolation?, missing]
    simp only [strict, Bool.false_eq_true, if_false]
    rfl
  | repeated noMember scalar known twice =>
    have fine := (overlayKeyViolation?_eq_none_iff distinct key).mpr ⟨scalar, known⟩
    rw [if_neg noMember, if_pos (merged.mpr (given_of_twice twice)), fine, get?_mergeOverlays,
      if_pos twice]
    rfl

/-- No other key is reported. -/
theorem get?_structureReport_eq_none (distinct : s.NamesDistinct)
    (clean : ∀ e, ¬ s.KeyFault document overlays key e) :
    (s.structureReport document overlays).get? key = none := by
  have merged := mem_keys_mergeOverlays overlays key
  rw [get?_structureReport]
  by_cases member : key ∈ document.map Prod.fst
  · have noText : ¬ ∃ overlay ∈ overlays, key ∈ overlay.keys :=
      fun text => clean _ (.shared member text)
    have lacks : (mergeOverlays overlays).1.find? key = none :=
      (Entries.lookup_eq_none_iff _ _).mpr (mt merged.mp noText)
    have known : s.permissive = true ∨ ∃ f ∈ s.fields, f.name = key := by
      by_contra unknown
      push Not at unknown
      exact clean _ (.unknownMember member noText (Bool.eq_false_iff.mpr unknown.1) unknown.2)
    have fine := (s.documentKeyViolation?_eq_none_iff _ key).mpr ⟨lacks, known⟩
    rw [if_pos member, fine, if_neg (mt merged.mp noText)]
    exact get?_mergeOverlays_of_not_given noText
  · rw [if_neg member]
    by_cases text : ∃ overlay ∈ overlays, key ∈ overlay.keys
    · have scalar : ∀ f ∈ s.fields, f.name = key → f.isScalar = true := by
        intro f declared name
        by_contra shape
        exact clean _ (.notScalar member text declared name (Bool.eq_false_iff.mpr shape))
      have known : s.permissive = true ∨ ∃ f ∈ s.fields, f.name = key := by
        by_contra unknown
        push Not at unknown
        exact clean _ (.unknownText member text (Bool.eq_false_iff.mpr unknown.1) unknown.2)
      have fine := (overlayKeyViolation?_eq_none_iff distinct key).mpr ⟨scalar, known⟩
      have once : ¬ 2 ≤ overlays.countP (·.contains key) :=
        fun twice => clean _ (.repeated member scalar known twice)
      rw [if_pos (merged.mpr text), fine]
      dsimp only
      rw [get?_mergeOverlays, if_neg once]
    · rw [if_neg (mt merged.mp text)]
      exact get?_mergeOverlays_of_not_given text

theorem structureReport_lists (distinct : s.NamesDistinct) (document : Document)
    (overlays : List Overlay) :
    (s.structureReport document overlays).Lists (s.KeyFault document overlays) := by
  intro key v
  constructor
  · intro found
    by_contra noFault
    have clean : ∀ e, ¬ s.KeyFault document overlays key e := by
      intro e fault
      have same := fault.get?_eq distinct
      rw [found] at same
      exact noFault ⟨e, fault, Option.some.inj same⟩
    rw [get?_structureReport_eq_none distinct clean] at found
    cases found
  · intro ⟨e, fault, same⟩
    rw [same]
    exact fault.get?_eq distinct

theorem KeyFault.field?_eq {e : Violation} (fault : s.KeyFault document overlays key e) :
    e.field? = none := by
  cases fault <;> rfl

/-- A key has one fault at most. -/
theorem KeyFault.unique {e e' : Violation} (distinct : s.NamesDistinct)
    (fault : s.KeyFault document overlays key e) (fault' : s.KeyFault document overlays key e') :
    e = e' := by
  have same := (structureReport_lists distinct document overlays).same_of_path fault fault'
  have noField := fault.field?_eq
  have noField' := fault'.field?_eq
  cases e
  cases e'
  simp_all [Violation.withField]

theorem validate_of_document (s : Schema) {text : String} (read : IsDocument text document)
    (overlays : List Overlay) :
    s.validate text overlays =
      if (s.structureReport document overlays).isEmpty then
        (s.fieldReport document (mergeOverlays overlays).1).toResult
          (s.completed document (mergeOverlays overlays).1)
      else .error (s.structureReport document overlays) := by
  rw [validate_eq, (readDocument_eq_ok_iff _ _).mpr read]
  exact examine_eq _ _ _ _

theorem validate_of_no_keyFault {text : String} (distinct : s.NamesDistinct)
    (read : IsDocument text document) (clean : ∀ key e, ¬ s.KeyFault document overlays key e) :
    s.validate text overlays =
      (s.fieldReport document (mergeOverlays overlays).1).toResult
        (s.completed document (mergeOverlays overlays).1) := by
  have empty := (structureReport_lists distinct document overlays).isEmpty_iff.mpr clean
  rw [s.validate_of_document read, if_pos empty]

/-- The report on the keys of an input has exactly their faults as entries, one for each key. If
there is any, it is the result of the validation, and nothing is said of fields. If there is none,
the result is that of the fields, which find in the merged overlay all that the overlays say. -/
theorem validate_keyFaults {s : Schema} (built : s.Built) {text : String} {overlays : List Overlay}
    {document : Document} (read : IsDocument text document) :
    (∀ key v, (s.structureReport document overlays).get? key = some v ↔
      ∃ e, s.KeyFault document overlays key e ∧ v = ⟨e.code, e.message, some key, e.params⟩) ∧
    (∀ key e e', s.KeyFault document overlays key e → s.KeyFault document overlays key e' →
      e = e') ∧
    ((∃ key e, s.KeyFault document overlays key e) →
      s.validate text overlays = .error (s.structureReport document overlays)) ∧
    ((∀ key e, ¬ s.KeyFault document overlays key e) →
      (∀ key given, (mergeOverlays overlays).1.find? key = some given ↔
        ∃ overlay ∈ overlays, overlay.find? key = some given) ∧
      s.validate text overlays =
        (s.fieldReport document (mergeOverlays overlays).1).toResult
          (s.completed document (mergeOverlays overlays).1)) := by
  have lists := structureReport_lists built.distinct document overlays
  refine ⟨lists, fun key e e' => KeyFault.unique built.distinct, ?_, ?_⟩
  · intro ⟨key, e, fault⟩
    have reported : ¬ (s.structureReport document overlays).isEmpty = true :=
      fun empty => lists.isEmpty_iff.mp empty key e fault
    rw [s.validate_of_document read, if_neg reported]
  · intro clean
    have empty : (s.structureReport document overlays).isEmpty = true :=
      lists.isEmpty_iff.mpr clean
    obtain ⟨merging, -, -⟩ := (s.keyReport_isEmpty_iff _ _ _).mp empty
    have apart := (mergeOverlays_isEmpty_iff overlays).mp merging
    exact ⟨find?_mergeOverlays apart, validate_of_no_keyFault built.distinct read clean⟩

/-- A key that the document lacks, that the schema does not know and that two overlays have. -/
theorem validate_keyFaults_sampleOrder :
    sampleOrder.Built ∧ IsDocument "\x7b\"tags\":[]\x7d" [("tags", .array [])] ∧
      ∃ report, sampleOrder.validate "\x7b\"tags\":[]\x7d"
          [⟨[("items", "a"), ("page", "b"), ("tags", "c")], by decide⟩, .single "page" "d"] =
            .error report ∧
        report.get? "page" =
          some ⟨"unknown_field", "unknown parameter 'page'", some "page", []⟩ := by
  let overlays : List Overlay :=
    [⟨[("items", "a"), ("page", "b"), ("tags", "c")], by decide⟩, .single "page" "d"]
  have read : IsDocument "\x7b\"tags\":[]\x7d" [("tags", .array [])] := .object rfl rfl
  have fault : sampleOrder.KeyFault [("tags", .array [])] overlays "page"
      ⟨"unknown_field", "unknown parameter 'page'", none, []⟩ :=
    .unknownText (by simp) ⟨_, List.mem_cons_self, by decide⟩ rfl (by decide)
  obtain ⟨reported, -, rejected, -⟩ := @validate_keyFaults _ sampleOrder_built _ overlays _ read
  exact ⟨sampleOrder_built, read, _, rejected ⟨_, _, fault⟩, (reported _ _).mpr ⟨_, fault, rfl⟩⟩

end Schema

end Intake
