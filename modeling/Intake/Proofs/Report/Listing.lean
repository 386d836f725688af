import Intake.Proofs.Entries
import Intake.Report
import Mathlib.Data.List.Nodup

/-!
# What a report lists

A report lists some violations at some paths: it has these entries and no other.
Putting reports together keeps all of both as long as they share no path.
-/

namespace Intake

namespace SortedMap

variable {α : Type}

theorem nodup_keys (m : SortedMap α) : m.keys.Nodup := Entries.nodup_of_sorted m.sorted

theorem isEmpty_iff (m : SortedMap α) : m.isEmpty = true ↔ ∀ key, m.find? key = none := by
  rw [isEmpty, List.isEmpty_iff]
  constructor
  · intro h key
    simp [find?, h, Entries.lookup]
  · intro h
    have none_mem : ∀ e ∈ m.entries, False := by
      rintro ⟨key, value⟩ he
      have found := (m.find?_eq_some_iff key value).mpr he
      rw [h key] at found
      exact Option.some_ne_none value found.symm
    exact List.eq_nil_iff_forall_not_mem.mpr none_mem

end SortedMap

namespace Report

theorem mem_entries_iff (r : Report) (p : String) (v : Violation) :
    (p, v) ∈ r.entries ↔ r.get? p = some v :=
  (r.violations.find?_eq_some_iff p v).symm

theorem isEmpty_iff (r : Report) : r.isEmpty = true ↔ ∀ p, r.get? p = none :=
  r.violations.isEmpty_iff

theorem ext_get? {r r' : Report} (h : ∀ p, r.get? p = r'.get? p) : r = r' := by
  obtain ⟨violations⟩ := r
  obtain ⟨violations'⟩ := r'
  exact congrArg Report.mk (SortedMap.ext_find? violations violations' h)

theorem isEmpty_add (r : Report) (path : String) (v : Violation) :
    (r.add path v).isEmpty = false := by
  rw [Bool.eq_false_iff]
  intro h
  simpa [get?_add] using (isEmpty_iff _).mp h path

theorem addAll_cons (r : Report) (item : String × Violation) (items : List (String × Violation)) :
    r.addAll (item :: items) = (r.add item.1 item.2).addAll items := rfl

theorem get?_addAll_eq (r : Report) (items : List (String × Violation)) (p : String) :
    (r.addAll items).get? p =
      ((Entries.lookup p items.reverse).map (·.withField p)).or (r.get? p) := by
  induction items generalizing r with
  | nil => rfl
  | cons item items ih =>
    obtain ⟨path, v⟩ := item
    rw [addAll_cons, ih, get?_add, List.reverse_cons, Entries.lookup_append, Option.map_or,
      Option.or_assoc]
    congr 1
    by_cases same : path = p
    · simp [Entries.lookup, same]
    · simp [Entries.lookup, same]

theorem get?_addAll {items : List (String × Violation)} (h : (items.map Prod.fst).Nodup)
    (r : Report) (p : String) (v : Violation) :
    (r.addAll items).get? p = some v ↔
      (∃ e, (p, e) ∈ items ∧ v = e.withField p) ∨
        p ∉ items.map Prod.fst ∧ r.get? p = some v := by
  rw [get?_addAll_eq, Entries.lookup_reverse h]
  cases found : Entries.lookup p items with
  | none =>
    have absent := (Entries.lookup_eq_none_iff p items).mp found
    have unlisted : ∀ e, (p, e) ∉ items := fun e he => absent (List.mem_map_of_mem he)
    simp [absent, unlisted]
  | some w =>
    have mem := Entries.mem_of_lookup found
    have listed : p ∈ items.map Prod.fst := List.mem_map_of_mem mem
    have only : ∀ e, (p, e) ∈ items ↔ e = w := fun e =>
      ⟨fun he => Option.some.inj ((Entries.lookup_of_mem h he).symm.trans found), (· ▸ mem)⟩
    simp [listed, only, eq_comm]

theorem isEmpty_addAll {items : List (String × Violation)} (r : Report)
    (h : r.isEmpty = false ∨ items ≠ []) : (r.addAll items).isEmpty = false := by
  induction items generalizing r with
  | nil => exact h.resolve_right (· rfl)
  | cons item items ih => exact ih _ (.inl (isEmpty_add r _ _))

theorem entries_ne_nil_iff (r : Report) : r.entries ≠ [] ↔ r.isEmpty = false := by
  simp [entries, isEmpty, SortedMap.isEmpty]

theorem toResult_eq_ok_iff {α : Type} (r : Report) (v w : α) :
    r.toResult v = .ok w ↔ r.isEmpty = true ∧ v = w := by
  rw [toResult]
  split <;> simp_all

theorem toResult_eq_error_iff {α : Type} (r r' : Report) (v : α) :
    r.toResult v = .error r' ↔ r.isEmpty = false ∧ r = r' := by
  rw [toResult]
  split <;> simp_all

/-! ### Reports as lists of violations -/

/-- The report has an entry for each of the given violations, under its path, and no other. -/
def Lists (r : Report) (F : String → Violation → Prop) : Prop :=
  ∀ p v, r.get? p = some v ↔ ∃ e, F p e ∧ v = e.withField p

variable {r part : Report} {F G : String → Violation → Prop}

theorem lists_empty : empty.Lists fun _ _ => False := by
  simp [Lists]

theorem Lists.congr (h : r.Lists F) (same : ∀ p e, F p e ↔ G p e) : r.Lists G := by
  simpa only [Lists, same] using h

theorem Lists.isEmpty_iff (h : r.Lists F) : r.isEmpty = true ↔ ∀ p e, ¬ F p e := by
  rw [Report.isEmpty_iff]
  constructor
  · intro none p e he
    have found := (h p _).mpr ⟨e, he, rfl⟩
    simp [none p] at found
  · intro none p
    rw [Option.eq_none_iff_forall_ne_some]
    intro v hv
    obtain ⟨e, he, _⟩ := (h p v).mp hv
    exact none p e he

/-- Violations listed under one path differ at most in the path that they name. -/
theorem Lists.same_of_path (h : r.Lists F) {p : String} {e e' : Violation} (he : F p e)
    (he' : F p e') : e.withField p = e'.withField p := by
  have found := (h p _).mpr ⟨e, he, rfl⟩
  rw [(h p _).mpr ⟨e', he', rfl⟩] at found
  exact (Option.some.inj found).symm

theorem lists_add_empty (path : String) (w : Violation) :
    (empty.add path w).Lists fun p e => p = path ∧ e = w := by
  intro p v
  rw [get?_add, get?_empty]
  by_cases hp : path = p
  · subst hp
    simp [eq_comm]
  · simp [hp, Ne.symm hp]

/-- Nothing is lost where two reports without a common path are put together. -/
theorem Lists.addAll (hr : r.Lists F) (hpart : part.Lists G)
    (apart : ∀ p e e', F p e → G p e' → False) :
    (r.addAll part.entries).Lists fun p e => F p e ∨ G p e := by
  intro p v
  have listed : p ∈ part.entries.map Prod.fst ↔ ∃ e, G p e := by
    constructor
    · rintro hp
      obtain ⟨⟨_, w⟩, hw, rfl⟩ := List.mem_map.mp hp
      obtain ⟨e, he, _⟩ := (hpart _ _).mp ((part.mem_entries_iff _ _).mp hw)
      exact ⟨e, he⟩
    · rintro ⟨e, he⟩
      exact List.mem_map_of_mem ((part.mem_entries_iff p _).mpr ((hpart p _).mpr ⟨e, he, rfl⟩))
  have distinct : (part.entries.map Prod.fst).Nodup := part.violations.nodup_keys
  rw [get?_addAll distinct, listed, hr p v]
  simp only [mem_entries_iff, hpart p _]
  constructor
  · rintro (⟨w, ⟨e, he, rfl⟩, rfl⟩ | ⟨_, e, he, rfl⟩)
    · exact ⟨e, .inr he, rfl⟩
    · exact ⟨e, .inl he, rfl⟩
  · rintro ⟨e, he | he, rfl⟩
    · exact .inr ⟨fun ⟨e', he'⟩ => apart p e e' he he', e, he, rfl⟩
    · exact .inl ⟨_, ⟨e, he, rfl⟩, rfl⟩

/-! ### Paths of parts -/

theorem joinPath_of_ne_empty {whole part : String} (h : whole ≠ "") :
    joinPath whole part = if part = "" then whole else whole ++ "." ++ part :=
  if_neg h

theorem joinPath_injective {whole : String} (h : whole ≠ "") {p q : String}
    (same : joinPath whole p = joinPath whole q) : p = q := by
  simp only [joinPath_of_ne_empty h] at same
  have longer : ∀ part : String, whole ≠ whole ++ "." ++ part := by
    intro part e
    have := congrArg String.length e
    simp only [String.length_append, show ".".length = 1 from rfl] at this
    omega
  split at same <;> split at same
  · simp_all
  · exact absurd same (longer q)
  · exact absurd same.symm (longer p)
  · simpa [← String.toList_inj] using same

/-- The entries of a part all stay within the whole, their paths prefixed and nothing else changed. -/
theorem Lists.mergeNested (h : part.Lists G) {whole : String} (hw : whole ≠ "") :
    (empty.mergeNested whole part).Lists fun p e => ∃ q, G q e ∧ p = joinPath whole q := by
  have distinct : ((part.entriesWithin whole).map Prod.fst).Nodup := by
    have paths : (part.entriesWithin whole).map Prod.fst = part.paths.map (joinPath whole) := by
      simp [entriesWithin, Report.paths, SortedMap.keys, entries]
    rw [paths]
    exact part.violations.nodup_keys.map fun _ _ => joinPath_injective hw
  intro p v
  rw [Report.mergeNested, get?_addAll distinct]
  simp only [entriesWithin, List.mem_map, Prod.exists, Prod.mk.injEq, mem_entries_iff, h _ _,
    get?_empty, reduceCtorEq, and_false, or_false]
  constructor
  · rintro ⟨w, ⟨q, w', ⟨e, he, rfl⟩, rfl, rfl⟩, rfl⟩
    exact ⟨e, ⟨q, he, rfl⟩, rfl⟩
  · rintro ⟨e, ⟨q, he, rfl⟩, rfl⟩
    exact ⟨_, ⟨q, _, ⟨e, he, rfl⟩, rfl, rfl⟩, rfl⟩

end Report

end Intake
