/-!
# Keyed entries

Lists of entries keyed by text: look-up, which is that of lists of pairs, and
replacement that keeps the place an entry already has.
-/

namespace Intake.Entries

variable {α : Type}

/-- The value stored under `key`; the first entry for it counts. -/
def lookup (key : String) : List (String × α) → Option α
  | [] => none
  | (k, v) :: rest => if k = key then some v else lookup key rest

/-- The entries with `value` under `key`: in its place if it has one, else at the end. -/
def put (key : String) (value : α) : List (String × α) → List (String × α)
  | [] => [(key, value)]
  | (k, v) :: rest => if k = key then (k, value) :: rest else (k, v) :: put key value rest

theorem lookup_eq_list_lookup (key : String) (es : List (String × α)) :
    lookup key es = es.lookup key := by
  induction es with
  | nil => rfl
  | cons e es ih =>
    obtain ⟨k, v⟩ := e
    rw [lookup, List.lookup_cons, ih]
    by_cases same : k = key
    · simp [same]
    · simp [same, beq_false_of_ne (Ne.symm same)]

theorem lookup_eq_none_iff (key : String) (es : List (String × α)) :
    lookup key es = none ↔ key ∉ es.map Prod.fst := by
  rw [lookup_eq_list_lookup, List.lookup_eq_none_iff]
  simp only [bne_iff_ne, List.mem_map, not_exists, not_and]
  exact forall₂_congr fun e he => ne_comm

theorem lookup_append (key : String) (es fs : List (String × α)) :
    lookup key (es ++ fs) = (lookup key es).or (lookup key fs) := by
  simp only [lookup_eq_list_lookup, List.lookup_append]

theorem mem_of_lookup {es : List (String × α)} {key : String} {value : α}
    (h : lookup key es = some value) : (key, value) ∈ es := by
  rw [lookup_eq_list_lookup, List.lookup_eq_some_iff] at h
  obtain ⟨before, after, rfl, -⟩ := h
  exact List.mem_append_right before List.mem_cons_self

theorem lookup_of_mem {es : List (String × α)} (distinct : (es.map Prod.fst).Nodup) {key : String}
    {value : α} (h : (key, value) ∈ es) : lookup key es = some value := by
  obtain ⟨before, after, rfl⟩ := List.append_of_mem h
  rw [List.map_append, List.map_cons, List.nodup_append] at distinct
  rw [lookup_eq_list_lookup, List.lookup_eq_some_iff]
  refine ⟨before, after, rfl, fun e he => ?_⟩
  simpa using (distinct.2.2 e.1 (List.mem_map_of_mem he) key List.mem_cons_self).symm

theorem lookup_eq_some_iff {es : List (String × α)} (distinct : (es.map Prod.fst).Nodup)
    (key : String) (value : α) : lookup key es = some value ↔ (key, value) ∈ es :=
  ⟨mem_of_lookup, lookup_of_mem distinct⟩

theorem nodup_of_sorted {es : List (String × α)} (sorted : es.Pairwise fun a b => a.1 < b.1) :
    (es.map Prod.fst).Nodup := by
  refine List.pairwise_map.mpr (sorted.imp fun before same => ?_)
  rw [same] at before
  exact String.lt_irrefl _ before

theorem lookup_put (key k : String) (value : α) (es : List (String × α)) :
    lookup k (put key value es) = if key = k then some value else lookup k es := by
  induction es with
  | nil => simp [put, lookup]
  | cons e es ih =>
    obtain ⟨k', v⟩ := e
    rw [put]
    split
    · next h => subst h; by_cases h : k' = k <;> simp [lookup, h]
    · next h =>
      rw [lookup, ih, lookup]
      by_cases hk : k' = k
      · subst hk; simp [Ne.symm h]
      · simp [hk]

/-- Replacing an entry keeps the keys in their places; a new key goes to the end. -/
theorem keys_put (key : String) (value : α) (es : List (String × α)) :
    (put key value es).map Prod.fst =
      if key ∈ es.map Prod.fst then es.map Prod.fst else es.map Prod.fst ++ [key] := by
  induction es with
  | nil => simp [put]
  | cons e es ih =>
    obtain ⟨k, v⟩ := e
    rw [put]
    split
    · next h => simp [h]
    · next h =>
      rw [List.map_cons, ih, List.map_cons]
      by_cases hk : key ∈ es.map Prod.fst
      · rw [if_pos hk, if_pos (List.mem_cons_of_mem _ hk)]
      · rw [if_neg hk, if_neg (fun e => (List.mem_cons.mp e).elim (Ne.symm h) hk)]
        rfl

end Intake.Entries
