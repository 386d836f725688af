import Intake.Proofs.Schema.OverlayFaults

/-!
# Arrangements of overlays

The texts of overlays may be split among maps and ordered in any way: the outcome of a
validation is the same. Where a key has several texts the merged overlay does depend on
their order, but then no text is looked at.
-/

namespace Intake

/-- The maps say the same texts for the same keys, each as often. -/
def SameTexts (overlays overlays' : List Overlay) : Prop :=
  (overlays.flatMap SortedMap.entries).Perm (overlays'.flatMap SortedMap.entries)

namespace SameTexts

variable {overlays overlays' : List Overlay}

theorem keys_perm (same : SameTexts overlays overlays') :
    (overlays.flatMap SortedMap.keys).Perm (overlays'.flatMap SortedMap.keys) := by
  rw [← flatMap_entries_keys, ← flatMap_entries_keys]
  exact same.map Prod.fst

theorem merging_eq (same : SameTexts overlays overlays') :
    (mergeOverlays overlays).2 = (mergeOverlays overlays').2 := by
  apply Report.ext_get?
  intro key
  rw [get?_mergeOverlays, get?_mergeOverlays, ← count_flatMap_keys, ← count_flatMap_keys,
    same.keys_perm.count_eq key]

theorem mem_keys_iff (same : SameTexts overlays overlays') (key : String) :
    key ∈ (mergeOverlays overlays).1.keys ↔ key ∈ (mergeOverlays overlays').1.keys := by
  rw [mem_keys_mergeOverlays, mem_keys_mergeOverlays, ← List.mem_flatMap, ← List.mem_flatMap]
  exact same.keys_perm.mem_iff

theorem merged_eq (same : SameTexts overlays overlays')
    (apart : (overlays.flatMap SortedMap.keys).Nodup) :
    (mergeOverlays overlays).1 = (mergeOverlays overlays').1 := by
  have apart' := same.keys_perm.nodup_iff.mp apart
  have said : ∀ (given : List Overlay) (key text : String),
      (∃ overlay ∈ given, overlay.find? key = some text) ↔
        (key, text) ∈ given.flatMap SortedMap.entries := by
    intro given key text
    simp only [SortedMap.find?_eq_some_iff, List.mem_flatMap]
  apply SortedMap.ext_find?
  intro key
  apply Option.ext
  intro text
  rw [find?_mergeOverlays apart, find?_mergeOverlays apart', said, said]
  exact same.mem_iff

end SameTexts

namespace Schema

/-- What comes of a document with overlays, whatever text the document is read from. -/
def outcome (s : Schema) (document : Document) (overlays : List Overlay) : Except Report Object :=
  s.examine document (mergeOverlays overlays).1 (mergeOverlays overlays).2

theorem validate_eq_outcome (s : Schema) {text : String} {document : Document}
    (read : IsDocument text document) (overlays : List Overlay) :
    s.validate text overlays = s.outcome document overlays := by
  rw [validate_eq, (readDocument_eq_ok_iff _ _).mpr read]
  rfl

theorem outcome_eq (s : Schema) (document : Document) (overlays : List Overlay) :
    s.outcome document overlays =
      if (s.structureReport document overlays).isEmpty then
        (s.fieldReport document (mergeOverlays overlays).1).toResult
          (s.completed document (mergeOverlays overlays).1)
      else .error (s.structureReport document overlays) :=
  s.examine_eq document _ _

/-- The report on the keys looks at the keys of the merged overlay, not at its texts. -/
theorem structureReport_eq_of_sameTexts {overlays overlays' : List Overlay}
    (same : SameTexts overlays overlays') (s : Schema) (document : Document) :
    s.structureReport document overlays = s.structureReport document overlays' := by
  have contains : ∀ key, (mergeOverlays overlays).1.contains key =
      (mergeOverlays overlays').1.contains key := by
    intro key
    rw [Bool.eq_iff_iff, SortedMap.contains_iff, SortedMap.contains_iff]
    exact same.mem_keys_iff key
  apply Report.ext_get?
  intro key
  simp only [get?_structureReport, documentKeyViolation?, contains key, same.mem_keys_iff key,
    same.merging_eq]

theorem outcome_eq_of_sameTexts {overlays overlays' : List Overlay}
    (same : SameTexts overlays overlays') (s : Schema) (document : Document) :
    s.outcome document overlays = s.outcome document overlays' := by
  have reports := structureReport_eq_of_sameTexts same s document
  rw [outcome_eq, outcome_eq, ← reports]
  by_cases clean : (s.structureReport document overlays).isEmpty = true
  · obtain ⟨merging, -, -⟩ := (s.keyReport_isEmpty_iff _ _ _).mp clean
    have merged := same.merged_eq ((mergeOverlays_isEmpty_iff overlays).mp merging)
    rw [if_pos clean, if_pos clean, merged]
  · rw [if_neg clean, if_neg clean]

/-- The outcome depends on the texts of the overlays alone, not on how they are arranged. -/
theorem validate_eq_of_sameTexts (s : Schema) (text : String) {overlays overlays' : List Overlay}
    (same : SameTexts overlays overlays') :
    s.validate text overlays = s.validate text overlays' := by
  cases result : readDocument text with
  | error v =>
    rw [validate_of_no_document result, validate_of_no_document result, same.merging_eq]
  | ok document =>
    have read := (readDocument_eq_ok_iff text document).mp result
    rw [s.validate_eq_outcome read, s.validate_eq_outcome read]
    exact outcome_eq_of_sameTexts same s document

/-- A key with two texts, which are told in one order and in the other. -/
theorem validate_eq_of_sameTexts_sampleDevice :
    SameTexts [⟨[("name", "a"), ("note", "x")], by decide⟩, .single "note" "y"]
        [.single "note" "y", .single "name" "a", .single "note" "x"] ∧
      sampleDevice.validate "" [⟨[("name", "a"), ("note", "x")], by decide⟩, .single "note" "y"] =
        sampleDevice.validate "" [.single "note" "y", .single "name" "a", .single "note" "x"] := by
  have same : SameTexts [⟨[("name", "a"), ("note", "x")], by decide⟩, .single "note" "y"]
      [.single "note" "y", .single "name" "a", .single "note" "x"] := by
    unfold SameTexts
    decide
  exact ⟨same, validate_eq_of_sameTexts sampleDevice "" same⟩

end Schema

end Intake
