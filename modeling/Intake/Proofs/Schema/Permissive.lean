import Intake.Proofs.Schema.Arrangements
import Intake.Proofs.Schema.Unknown

/-!
# Letting keys through

A schema that lets unknown keys through finds the same wrong with an input as the strict
schema with the input without them, as long as no unknown key is given twice. Where there
are no unknown keys the two do not differ.
-/

namespace Intake

namespace Schema

/-- No unknown key stands in several overlays, or in the document and in an overlay. -/
structure UnknownApart (s : Schema) (document : Document) (overlays : List Overlay) : Prop where
  once : ∀ key, s.declares key = false → ¬ 2 ≤ overlays.countP (·.contains key)
  notBoth : ∀ key, s.declares key = false → key ∈ document.map Prod.fst →
    ∀ overlay ∈ overlays, key ∉ overlay.keys

structure KnowsKeys (s : Schema) (document : Document) (overlays : List Overlay) : Prop where
  members : ∀ key ∈ document.map Prod.fst, s.declares key = true
  texts : ∀ overlay ∈ overlays, ∀ key ∈ overlay.keys, s.declares key = true

variable {s : Schema} {document : Document} {overlays : List Overlay} {key : String}

/-! ### Keys -/

theorem mem_keys_declaredMembers (s : Schema) (document : Document) (key : String) :
    key ∈ (s.declaredMembers document).map Prod.fst ↔
      key ∈ document.map Prod.fst ∧ s.declares key = true := by
  simp only [declaredMembers, List.mem_map, List.mem_filter]
  constructor
  · rintro ⟨member, ⟨given, declared⟩, rfl⟩
    exact ⟨⟨member, given, rfl⟩, declared⟩
  · rintro ⟨⟨member, given, rfl⟩, declared⟩
    exact ⟨member, ⟨given, declared⟩, rfl⟩

theorem contains_declaredTexts (s : Schema) (overlay : Overlay) (key : String) :
    (s.declaredTexts overlay).contains key = (overlay.contains key && s.declares key) := by
  rw [Bool.eq_iff_iff, SortedMap.contains_iff, keys_declaredTexts, Bool.and_eq_true,
    SortedMap.contains_iff]

theorem countP_declaredTexts (s : Schema) (overlays : List Overlay) (key : String) :
    (overlays.map s.declaredTexts).countP (·.contains key) =
      if s.declares key then overlays.countP (·.contains key) else 0 := by
  rw [List.countP_map]
  simp only [Function.comp_def, contains_declaredTexts]
  cases s.declares key <;> simp

theorem get?_structureReport_of_declared (declared : s.declares key = true) :
    (s.allowUnknown.structureReport document overlays).get? key =
      (s.structureReport (s.declaredMembers document) (overlays.map s.declaredTexts)).get? key := by
  obtain ⟨f, found⟩ := Option.isSome_iff_exists.mp declared
  have found' : s.allowUnknown.field? key = some f := found
  have declared' : s.allowUnknown.declares key = true := declared
  have texts := s.keys_declaredTexts (mergeOverlays overlays).1 key
  simp only [get?_structureReport, mem_keys_declaredMembers, mergeOverlays_declaredTexts, texts,
    documentKeyViolation?, overlayKeyViolation?, contains_declaredTexts, get?_mergeOverlays,
    countP_declaredTexts, found, found', declared, declared', and_true, Bool.and_true,
    Bool.not_true, Bool.and_false]
  rfl

theorem get?_structureReport_of_unknown (apart : s.UnknownApart document overlays)
    (unknown : s.declares key = false) :
    (s.allowUnknown.structureReport document overlays).get? key = none := by
  have missing : s.field? key = none := by simpa [declares] using unknown
  have absent : s.allowUnknown.field? key = none := missing
  have text : s.allowUnknown.overlayKeyViolation? key = none := by
    rw [overlayKeyViolation?, absent]
    rfl
  have member : key ∈ document.map Prod.fst →
      s.allowUnknown.documentKeyViolation? (mergeOverlays overlays).1 key = none := by
    intro given
    have lacks : (mergeOverlays overlays).1.contains key = false := by
      rw [SortedMap.not_contains_iff, mem_keys_mergeOverlays]
      rintro ⟨overlay, among, has⟩
      exact apart.notBoth key unknown given overlay among has
    rw [documentKeyViolation?, lacks]
    rfl
  have merging : (mergeOverlays overlays).2.get? key = none := by
    rw [get?_mergeOverlays, if_neg (apart.once key unknown)]
  rw [get?_structureReport]
  by_cases given : key ∈ document.map Prod.fst <;> simp [given, member, text, merging]

theorem structureReport_allowUnknown (apart : s.UnknownApart document overlays) :
    s.allowUnknown.structureReport document overlays =
      s.structureReport (s.declaredMembers document) (overlays.map s.declaredTexts) := by
  apply Report.ext_get?
  intro key
  cases declared : s.declares key with
  | true => exact get?_structureReport_of_declared declared
  | false =>
    -- The other input does not even have the key.
    have merging : (mergeOverlays (overlays.map s.declaredTexts)).2.get? key = none := by
      rw [get?_mergeOverlays, countP_declaredTexts, declared]
      rfl
    rw [get?_structureReport_of_unknown apart declared]
    simp [get?_structureReport, mem_keys_declaredMembers, mergeOverlays_declaredTexts,
      keys_declaredTexts, merging, declared]

/-! ### Inputs without unknown keys -/

theorem KnowsKeys.unknownApart (knows : s.KnowsKeys document overlays) :
    s.UnknownApart document overlays := by
  constructor
  · intro key unknown twice
    obtain ⟨overlay, among, has⟩ := given_of_twice twice
    rw [knows.texts overlay among key has] at unknown
    cases unknown
  · intro key unknown member
    rw [knows.members key member] at unknown
    cases unknown

theorem KnowsKeys.declaredMembers_eq (knows : s.KnowsKeys document overlays) :
    s.declaredMembers document = document := by
  apply List.filter_eq_self.mpr
  intro member given
  exact knows.members member.1 (List.mem_map_of_mem given)

theorem KnowsKeys.declaredTexts_eq (knows : s.KnowsKeys document overlays) :
    overlays.map s.declaredTexts = overlays := by
  have whole : ∀ overlay ∈ overlays, s.declaredTexts overlay = overlay := by
    intro overlay among
    obtain ⟨entries, sorted⟩ := overlay
    have all : entries.filter (fun item => s.declares item.1) = entries := by
      apply List.filter_eq_self.mpr
      intro item given
      exact knows.texts _ among item.1 (List.mem_map_of_mem given)
    simp only [declaredTexts, all]
  exact (List.map_congr_left whole).trans (List.map_id overlays)

theorem KnowsKeys.completed_eq (knows : s.KnowsKeys document overlays) :
    s.completed document (mergeOverlays overlays).1 =
      s.fieldValues document (mergeOverlays overlays).1 := by
  have merged := s.mergeOverlays_declaredTexts overlays
  rw [knows.declaredTexts_eq] at merged
  have copy := s.copyUnknown_declared document (mergeOverlays overlays).1
    (s.fieldValues document (mergeOverlays overlays).1)
  rw [knows.declaredMembers_eq, ← merged] at copy
  unfold completed
  split
  · exact copy
  · rfl

/-! ### The schema that lets keys through -/

theorem outcome_eq_error_iff (s : Schema) (document : Document) (overlays : List Overlay)
    (report : Report) :
    s.outcome document overlays = .error report ↔
      if (s.structureReport document overlays).isEmpty then
        (s.fieldReport document (mergeOverlays overlays).1).isEmpty = false ∧
          s.fieldReport document (mergeOverlays overlays).1 = report
      else s.structureReport document overlays = report := by
  rw [outcome_eq]
  split
  · exact Report.toResult_eq_error_iff _ _ _
  · exact ⟨Except.error.inj, congrArg _⟩

/-- The schema that lets unknown keys through rejects an input exactly if the schema rejects what
is left of it without them, and with the same report, where no unknown key is given twice. The
outcomes are the same, results included, where there is no unknown key. -/
theorem allowUnknown_relaxes (s : Schema) {text : String} {document : Document}
    (read : IsDocument text document) (overlays : List Overlay) :
    (s.UnknownApart document overlays → ∀ report,
      s.allowUnknown.validate text overlays = .error report ↔
        s.outcome (s.declaredMembers document) (overlays.map s.declaredTexts) = .error report) ∧
    (∀ text', IsDocument text' (s.declaredMembers document) →
      s.validate text' (overlays.map s.declaredTexts) =
        s.outcome (s.declaredMembers document) (overlays.map s.declaredTexts)) ∧
    (s.KnowsKeys document overlays →
      s.allowUnknown.validate text overlays = s.validate text overlays) := by
  have fields : s.allowUnknown.fieldReport document (mergeOverlays overlays).1 =
      s.fieldReport document (mergeOverlays overlays).1 := rfl
  refine ⟨?_, fun text' read' => s.validate_eq_outcome read' _, ?_⟩
  · intro apart report
    rw [validate_eq_outcome _ read, outcome_eq_error_iff, outcome_eq_error_iff,
      structureReport_allowUnknown apart, fields, mergeOverlays_declaredTexts,
      fieldReport_declared]
  · intro knows
    have keys := structureReport_allowUnknown knows.unknownApart
    rw [knows.declaredMembers_eq, knows.declaredTexts_eq] at keys
    have known : s.allowUnknown.KnowsKeys document overlays := ⟨knows.members, knows.texts⟩
    rw [validate_eq_outcome _ read, validate_eq_outcome _ read, outcome_eq, outcome_eq, keys,
      fields, known.completed_eq, knows.completed_eq]
    rfl

def samplePages : String := "\x7b\"note\":[],\"page\":1\x7d"

/-- The note is a list and an overlay has a text for the switch; the pages are let through. A blank
document with a name has no unknown key. -/
theorem allowUnknown_relaxes_sampleDevice :
    ∃ document, IsDocument samplePages document ∧
      IsDocument "\x7b\"note\":[]\x7d" (sampleDevice.declaredMembers document) ∧
      sampleDevice.UnknownApart document [.single "pages" "2", .single "switch" "on"] ∧
      ∃ report, sampleDevice.allowUnknown.validate samplePages
          [.single "pages" "2", .single "switch" "on"] = .error report ∧
        sampleDevice.validate "\x7b\"note\":[]\x7d"
          ([.single "pages" "2", .single "switch" "on"].map sampleDevice.declaredTexts) =
            .error report ∧
        sampleDevice.allowUnknown.validate "" [.single "name" "a"] =
          sampleDevice.validate "" [.single "name" "a"] := by
  let document : Document := [("note", .array []), ("page", .number ['1'])]
  let overlays : List Overlay := [.single "pages" "2", .single "switch" "on"]
  have read : IsDocument samplePages document := .object rfl rfl
  have read' : IsDocument "\x7b\"note\":[]\x7d" (sampleDevice.declaredMembers document) :=
    .object rfl rfl
  have once : ∀ key, ¬ 2 ≤ overlays.countP (·.contains key) := by
    intro key twice
    have keys : (overlays.flatMap SortedMap.keys).Nodup := by decide
    have most := List.nodup_iff_count_le_one.mp keys key
    rw [count_flatMap_keys] at most
    omega
  have apart : sampleDevice.UnknownApart document overlays := by
    refine ⟨fun key _ => once key, fun key _ => ?_⟩
    have disjoint : ∀ k ∈ document.map Prod.fst, ∀ overlay ∈ overlays, k ∉ overlay.keys := by decide
    exact disjoint key
  obtain ⟨rejects, restricted, -⟩ := allowUnknown_relaxes sampleDevice read overlays
  obtain ⟨report, rejected⟩ :
      ∃ report, sampleDevice.allowUnknown.validate samplePages overlays = .error report := ⟨_, rfl⟩
  have known : sampleDevice.KnowsKeys [] [.single "name" "a"] := ⟨by decide, by decide⟩
  have blank : IsDocument "" [] := .blank rfl
  obtain ⟨-, -, same⟩ := allowUnknown_relaxes sampleDevice blank [.single "name" "a"]
  exact ⟨document, read, read', apart, report, rejected,
    (restricted _ read').trans ((rejects apart report).mp rejected), same known⟩

end Schema

end Intake
