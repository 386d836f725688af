import Intake.SortedMap
import Mathlib.Data.List.Induction
import Mathlib.Data.List.Nodup

/-!
# Entries with distinct keys

Look-ups in lists that are put together from maps, filtered, renamed or read backwards, the last of
several writes under one key, and entries that are put under a new key or twice under one.
-/

namespace Intake

namespace Entries

variable {α : Type}

theorem lookup_reverse {es : List (String × α)} (distinct : (es.map Prod.fst).Nodup)
    (key : String) : lookup key es.reverse = lookup key es := by
  have reversed : (es.reverse.map Prod.fst).Nodup := by
    rw [List.map_reverse]
    exact List.nodup_reverse.mpr distinct
  apply Option.ext
  intro value
  constructor
  · intro h
    exact lookup_of_mem distinct (List.mem_reverse.mp (mem_of_lookup h))
  · intro h
    exact lookup_of_mem reversed (List.mem_reverse.mpr (mem_of_lookup h))

theorem lookup_flatMap (key : String) (maps : List (SortedMap α)) :
    lookup key (maps.flatMap SortedMap.entries) = maps.findSome? (·.find? key) := by
  induction maps with
  | nil => rfl
  | cons m maps ih =>
    rw [List.flatMap_cons, lookup_append, ih, List.findSome?_cons]
    show ((m.find? key).or _) = _
    cases m.find? key <;> rfl

theorem lookup_filter (keep : String → Bool) (key : String) (es : List (String × α)) :
    lookup key (es.filter fun e => keep e.1) = if keep key then lookup key es else none := by
  induction es with
  | nil => simp [lookup]
  | cons e es ih =>
    by_cases kept : keep e.1 = true
    · rw [List.filter_cons_of_pos (p := fun e : String × α => keep e.1) kept, lookup, lookup, ih]
      by_cases same : e.1 = key
      · rw [if_pos same, if_pos same, ← same, if_pos kept]
      · rw [if_neg same, if_neg same]
    · rw [List.filter_cons_of_neg (p := fun e : String × α => keep e.1) kept, ih, lookup]
      by_cases same : e.1 = key
      · rw [← same, if_neg kept, if_neg kept]
      · rw [if_neg same]

theorem lookup_map_of_injective {rename : String → String} (injective : rename.Injective)
    (key : String) (es : List (String × α)) :
    lookup (rename key) (es.map fun e => (rename e.1, e.2)) = lookup key es := by
  induction es with
  | nil => rfl
  | cons e es ih =>
    rw [List.map_cons, lookup, lookup, ih]
    simp only [injective.eq_iff]

theorem lookup_map_of_ne {rename : String → String} {key : String} {es : List (String × α)}
    (other : ∀ k ∈ es.map Prod.fst, rename k ≠ key) :
    lookup key (es.map fun e => (rename e.1, e.2)) = none := by
  rw [lookup_eq_none_iff]
  simpa using other

/-- The value is the last that was written under the key. -/
def LastWrite (writes : List (String × α)) (key : String) (value : α) : Prop :=
  ∃ before after, writes = before ++ (key, value) :: after ∧ key ∉ after.map Prod.fst

theorem lookup_reverse_eq_none_iff (key : String) (writes : List (String × α)) :
    lookup key writes.reverse = none ↔ key ∉ writes.map Prod.fst := by
  rw [lookup_eq_none_iff, List.map_reverse, List.mem_reverse]

theorem lastWrite_iff (writes : List (String × α)) (key : String) (value : α) :
    LastWrite writes key value ↔ lookup key writes.reverse = some value := by
  constructor
  · rintro ⟨before, after, rfl, last⟩
    have none_after := (lookup_reverse_eq_none_iff key after).mpr last
    simp [lookup_append, lookup, none_after]
  · intro found
    induction writes using List.reverseRecOn with
    | nil => cases found
    | append_singleton writes write ih =>
      obtain ⟨k, v⟩ := write
      rw [List.reverse_concat, lookup] at found
      split at found
      · next same =>
        subst same
        obtain rfl := Option.some.inj found
        exact ⟨writes, [], rfl, List.not_mem_nil⟩
      · next other =>
        obtain ⟨before, after, rfl, last⟩ := ih found
        refine ⟨before, after ++ [(k, v)], by simp, ?_⟩
        rw [List.map_append, List.mem_append, not_or]
        exact ⟨last, by simpa using Ne.symm other⟩

theorem put_of_not_mem {es : List (String × α)} {key : String} (h : key ∉ es.map Prod.fst)
    (value : α) : put key value es = es ++ [(key, value)] := by
  induction es with
  | nil => rfl
  | cons e es ih =>
    rw [List.map_cons, List.mem_cons, not_or] at h
    rw [put, if_neg (Ne.symm h.1), ih h.2]
    rfl

theorem nodup_put {es : List (String × α)} (distinct : (es.map Prod.fst).Nodup) (key : String)
    (value : α) : ((put key value es).map Prod.fst).Nodup := by
  rw [keys_put]
  split
  · exact distinct
  · next new =>
    rw [← List.concat_eq_append]
    exact distinct.concat new

theorem mem_put {key : String} {value : α} {es : List (String × α)} {e : String × α}
    (h : e ∈ put key value es) : e = (key, value) ∨ e ∈ es := by
  induction es with
  | nil => exact .inl (List.mem_singleton.mp h)
  | cons a es ih =>
    rw [put] at h
    split at h
    · next same =>
      rcases List.mem_cons.mp h with rfl | h
      · exact .inl (same ▸ rfl)
      · exact .inr (List.mem_cons_of_mem a h)
    · rcases List.mem_cons.mp h with rfl | h
      · exact .inr List.mem_cons_self
      · exact (ih h).imp_right (List.mem_cons_of_mem a)

theorem put_put (key : String) (v w : α) (es : List (String × α)) :
    put key w (put key v es) = put key w es := by
  induction es with
  | nil => simp [put]
  | cons e es ih =>
    obtain ⟨k, u⟩ := e
    rw [put, put]
    by_cases same : k = key
    · rw [if_pos same, if_pos same, put, if_pos same]
    · rw [if_neg same, if_neg same, put, if_neg same, ih]

end Entries

end Intake
