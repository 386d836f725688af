import Intake.Proofs.Report.Listing
import Intake.Proofs.Schema.Levels
import Intake.Schema.Keys
import Mathlib.Data.List.Induction

/-!
# Checked keys

What the check of the keys of an input reports, key by key, and when it reports
nothing. The same for the overlays that are put together before it.
-/

namespace Intake

/-! ### Overlays -/

def mergeText (merged : Overlay × Report) (item : String × String) : Overlay × Report :=
  (merged.1.insert item.1 item.2,
    if merged.1.contains item.1 then
      merged.2.add item.1 (.of "conflict" s!"duplicated parameter '{item.1}'")
    else merged.2)

theorem mergeOverlays_eq (overlays : List Overlay) :
    mergeOverlays overlays =
      (overlays.flatMap SortedMap.entries).foldl mergeText (.empty, .empty) := rfl

theorem find?_foldl_mergeText (items : List (String × String)) (merged : Overlay × Report)
    (key : String) :
    (items.foldl mergeText merged).1.find? key =
      (Entries.lookup key items.reverse).or (merged.1.find? key) := by
  induction items using List.reverseRecOn with
  | nil => rfl
  | append_singleton items item ih =>
    rw [List.foldl_append, List.foldl_cons, List.foldl_nil, mergeText, SortedMap.find?_insert, ih,
      List.reverse_append, List.reverse_singleton, List.singleton_append, Entries.lookup]
    split <;> simp

theorem isEmpty_foldl_mergeText (items : List (String × String)) (merged : Overlay × Report) :
    (items.foldl mergeText merged).2.isEmpty = true ↔
      merged.2.isEmpty = true ∧ (items.map Prod.fst).Nodup ∧
        ∀ key ∈ items.map Prod.fst, merged.1.find? key = none := by
  induction items generalizing merged with
  | nil => simp
  | cons item items ih =>
    obtain ⟨key, text⟩ := item
    rw [List.foldl_cons, ih, List.map_cons, List.nodup_cons]
    simp only [mergeText, SortedMap.find?_insert, SortedMap.contains, List.forall_mem_cons]
    by_cases h : merged.1.find? key = none
    · simp only [h, Option.isSome_none, Bool.false_eq_true, if_false, true_and]
      constructor
      · rintro ⟨hr, distinct, fresh⟩
        refine ⟨hr, ⟨fun hm => by simpa using fresh key hm, distinct⟩, fun k hk => ?_⟩
        have := fresh k hk
        split at this
        · cases this
        · exact this
      · rintro ⟨hr, ⟨hm, distinct⟩, fresh⟩
        refine ⟨hr, distinct, fun k hk => ?_⟩
        rw [if_neg (fun e : key = k => hm (e ▸ hk))]
        exact fresh k hk
    · simp [h, Option.isSome_iff_ne_none.mpr h, Report.isEmpty_add]

theorem flatMap_entries_keys (overlays : List Overlay) :
    (overlays.flatMap SortedMap.entries).map Prod.fst = overlays.flatMap SortedMap.keys := by
  rw [List.map_flatMap]
  rfl

theorem mergeOverlays_isEmpty_iff (overlays : List Overlay) :
    (mergeOverlays overlays).2.isEmpty = true ↔ (overlays.flatMap SortedMap.keys).Nodup := by
  have empty : (Report.empty).isEmpty = true := rfl
  rw [mergeOverlays_eq, isEmpty_foldl_mergeText, flatMap_entries_keys]
  simp [empty]

theorem mem_keys_mergeOverlays (overlays : List Overlay) (key : String) :
    key ∈ (mergeOverlays overlays).1.keys ↔ ∃ overlay ∈ overlays, key ∈ overlay.keys := by
  have present : ∀ m : Overlay, key ∈ m.keys ↔ m.find? key ≠ none := by
    intro m
    rw [Ne, SortedMap.find?, Entries.lookup_eq_none_iff, not_not]
    rfl
  rw [present, mergeOverlays_eq, find?_foldl_mergeText, SortedMap.find?_empty, Option.or_none, Ne,
    Entries.lookup_eq_none_iff, not_not, List.map_reverse, List.mem_reverse, flatMap_entries_keys,
    List.mem_flatMap]

/-! ### Keys -/

namespace Schema

theorem reportKeys_append (violation? : String → Option Violation) (keys : List String)
    (key : String) (report : Report) :
    reportKeys violation? (keys ++ [key]) report =
      match violation? key with
      | some v => (reportKeys violation? keys report).add key v
      | none => reportKeys violation? keys report := by
  cases h : violation? key <;> simp [reportKeys, h]

theorem get?_reportKeys (violation? : String → Option Violation) (keys : List String)
    (report : Report) (path : String) :
    (reportKeys violation? keys report).get? path =
      match (if path ∈ keys then violation? path else none) with
      | some v => some (v.withField path)
      | none => report.get? path := by
  induction keys using List.reverseRecOn with
  | nil => rfl
  | append_singleton keys key ih =>
    rw [reportKeys_append]
    by_cases hk : key = path
    · subst hk
      cases h : violation? key with
      | none => simp [ih, h]
      | some v => simp [Report.get?_add]
    · cases h : violation? key with
      | none => simp [ih, Ne.symm hk]
      | some v => simp [ih, Report.get?_add, hk, Ne.symm hk]

theorem reportKeys_isEmpty_iff (violation? : String → Option Violation) (keys : List String)
    (report : Report) :
    (reportKeys violation? keys report).isEmpty = true ↔
      report.isEmpty = true ∧ ∀ key ∈ keys, violation? key = none := by
  simp only [Report.isEmpty_iff, get?_reportKeys]
  constructor
  · intro h
    have clean : ∀ key ∈ keys, violation? key = none := by
      intro key hk
      have := h key
      rw [if_pos hk] at this
      cases hv : violation? key with
      | none => rfl
      | some v => simp [hv] at this
    refine ⟨fun p => ?_, clean⟩
    have := h p
    split at this
    · cases this
    · exact this
  · rintro ⟨hr, clean⟩ p
    by_cases hp : p ∈ keys
    · simp [hp, clean p hp, hr p]
    · simp [hp, hr p]

theorem keyReport_isEmpty_iff (s : Schema) (document : Document) (overlay : Overlay)
    (merging : Report) :
    (s.keyReport document overlay merging).isEmpty = true ↔
      merging.isEmpty = true ∧ (∀ key ∈ overlay.keys, s.overlayKeyViolation? key = none) ∧
        ∀ key ∈ document.map Prod.fst, s.documentKeyViolation? overlay key = none := by
  rw [keyReport, reportKeys_isEmpty_iff, reportKeys_isEmpty_iff, and_assoc]

theorem documentKeyViolation?_eq_none_iff (s : Schema) (overlay : Overlay) (key : String) :
    s.documentKeyViolation? overlay key = none ↔
      overlay.find? key = none ∧ (s.permissive = true ∨ ∃ f ∈ s.fields, f.name = key) := by
  rw [← declares_iff, documentKeyViolation?, SortedMap.contains]
  cases overlay.find? key <;> cases s.permissive <;> cases s.declares key <;> simp

theorem overlayKeyViolation?_eq_none_iff {s : Schema} (h : s.NamesDistinct) (key : String) :
    s.overlayKeyViolation? key = none ↔
      (∀ f ∈ s.fields, f.name = key → f.isScalar = true) ∧
        (s.permissive = true ∨ ∃ f ∈ s.fields, f.name = key) := by
  rw [overlayKeyViolation?]
  cases hf : s.field? key with
  | some f =>
    obtain ⟨mem, rfl⟩ := (field?_eq_some_iff h key f).mp hf
    have only : ∀ g ∈ s.fields, g.name = f.name → g = f := fun g hg e =>
      List.inj_on_of_nodup_map h.1 hg mem e
    cases hs : f.isScalar with
    | true =>
      have scalar : ∀ g ∈ s.fields, g.name = f.name → g.isScalar = true :=
        fun g hg e => only g hg e ▸ hs
      simpa [hs] using ⟨scalar, Or.inr ⟨f, mem, rfl⟩⟩
    | false =>
      simp only [hs, Bool.false_eq_true, if_false, reduceCtorEq, false_iff, not_and]
      exact fun all => absurd (all f mem rfl) (by simp [hs])
  | none =>
    have absent := (field?_eq_none_iff s key).mp hf
    cases s.permissive <;> simp +contextual [absent]

end Schema

end Intake
