import Intake.Entries

/-!
# Maps in key order

A finite map from texts that lists its entries by strictly increasing key. Keys
are ordered by code point, which is the order of their bytes in UTF-8. Two maps
with the same look-ups are equal (`SortedMap.ext_find?`).
-/

namespace Intake

structure SortedMap (α : Type) where
  entries : List (String × α)
  sorted : entries.Pairwise (fun a b => a.1 < b.1)

namespace SortedMap

open Entries (lookup)

variable {α : Type}

def insertEntry (key : String) (value : α) : List (String × α) → List (String × α)
  | [] => [(key, value)]
  | (k, v) :: rest =>
    if key < k then (key, value) :: (k, v) :: rest
    else if key = k then (key, value) :: rest
    else (k, v) :: insertEntry key value rest

theorem mem_insertEntry {key : String} {value : α} {es : List (String × α)} {e : String × α}
    (h : e ∈ insertEntry key value es) : e = (key, value) ∨ e ∈ es := by
  induction es with
  | nil => simpa [insertEntry] using h
  | cons a es ih =>
    obtain ⟨k, v⟩ := a
    rw [insertEntry] at h
    split at h
    · simpa using h
    · split at h
      · simp only [List.mem_cons] at h ⊢
        exact h.elim Or.inl (fun h => Or.inr (Or.inr h))
      · simp only [List.mem_cons] at h ⊢
        exact h.elim (fun h => Or.inr (Or.inl h)) (fun h => (ih h).elim Or.inl (fun h => Or.inr (Or.inr h)))

theorem sorted_insertEntry (key : String) (value : α) (es : List (String × α))
    (h : es.Pairwise (fun a b => a.1 < b.1)) :
    (insertEntry key value es).Pairwise (fun a b => a.1 < b.1) := by
  induction es with
  | nil => simp [insertEntry]
  | cons a es ih =>
    obtain ⟨k, v⟩ := a
    rw [List.pairwise_cons] at h
    rw [insertEntry]
    split
    · next hlt =>
      refine List.pairwise_cons.mpr ⟨?_, List.pairwise_cons.mpr h⟩
      intro e he
      rcases List.mem_cons.mp he with rfl | he
      · exact hlt
      · exact String.lt_trans hlt (h.1 e he)
    · split
      · next heq => subst heq; exact List.pairwise_cons.mpr h
      · next hlt hne =>
        refine List.pairwise_cons.mpr ⟨?_, ih h.2⟩
        intro e he
        rcases mem_insertEntry he with rfl | he
        · exact Std.lt_of_le_of_ne (Std.not_lt.mp hlt) (fun e => hne e.symm)
        · exact h.1 e he

theorem lookup_insertEntry (key k : String) (value : α) (es : List (String × α)) :
    lookup k (insertEntry key value es) = if key = k then some value else lookup k es := by
  induction es with
  | nil => simp [insertEntry, lookup]
  | cons a es ih =>
    obtain ⟨k', v⟩ := a
    rw [insertEntry]
    split
    · simp [lookup]
    · split
      · next heq => subst heq; by_cases h : key = k <;> simp [lookup, h]
      · next hlt hne =>
        rw [lookup, ih, lookup]
        by_cases h : k' = k
        · subst h; simp [hne]
        · simp [h]

def empty : SortedMap α := ⟨[], List.Pairwise.nil⟩

def find? (m : SortedMap α) (key : String) : Option α := lookup key m.entries

def contains (m : SortedMap α) (key : String) : Bool := (m.find? key).isSome

/-- The map with `value` under `key`, in place of an earlier value for it. -/
def insert (m : SortedMap α) (key : String) (value : α) : SortedMap α :=
  ⟨insertEntry key value m.entries, sorted_insertEntry key value m.entries m.sorted⟩

def keys (m : SortedMap α) : List String := m.entries.map Prod.fst

def size (m : SortedMap α) : Nat := m.entries.length

def isEmpty (m : SortedMap α) : Bool := m.entries.isEmpty

/-- The map of a list of pairs. Of two pairs with one key the later counts. -/
def ofList (pairs : List (String × α)) : SortedMap α :=
  pairs.foldl (fun m p => m.insert p.1 p.2) empty

@[simp] theorem find?_empty (key : String) : (empty : SortedMap α).find? key = none := rfl

theorem find?_insert (m : SortedMap α) (key k : String) (value : α) :
    (m.insert key value).find? k = if key = k then some value else m.find? k :=
  lookup_insertEntry key k value m.entries

/-- What a look-up finds is an entry, and every entry is found. -/
theorem find?_eq_some_iff (m : SortedMap α) (key : String) (value : α) :
    m.find? key = some value ↔ (key, value) ∈ m.entries :=
  Entries.lookup_eq_some_iff (Entries.nodup_of_sorted m.sorted) key value

theorem entries_eq_of_lookup (es fs : List (String × α)) (he : es.Pairwise (fun a b => a.1 < b.1))
    (hf : fs.Pairwise (fun a b => a.1 < b.1)) (h : ∀ k, lookup k es = lookup k fs) : es = fs := by
  induction es generalizing fs with
  | nil =>
    cases fs with
    | nil => rfl
    | cons b fs => have := h b.1; simp [lookup] at this
  | cons a es ih =>
    cases fs with
    | nil => have := h a.1; simp [lookup] at this
    | cons b fs =>
      have ha : a ∈ b :: fs := Entries.mem_of_lookup ((h a.1).symm.trans (by simp [lookup]))
      have hb : b ∈ a :: es := Entries.mem_of_lookup ((h b.1).trans (by simp [lookup]))
      rw [List.pairwise_cons] at he hf
      have hab : a = b := by
        rcases List.mem_cons.mp ha with e | ha
        · exact e
        · rcases List.mem_cons.mp hb with e | hb
          · exact e.symm
          · exact absurd (String.lt_trans (hf.1 _ ha) (he.1 _ hb)) (String.lt_irrefl _)
      subst hab
      refine congrArg (a :: ·) (ih fs he.2 hf.2 (fun k => ?_))
      have hk := h k
      by_cases e : a.1 = k
      · subst e
        have none_of (gs : List (String × α)) (hg : ∀ g ∈ gs, a.1 < g.1) : lookup a.1 gs = none := by
          rw [Entries.lookup_eq_none_iff, List.mem_map]
          rintro ⟨g, mem, same⟩
          exact String.lt_irrefl _ (same ▸ hg g mem)
        rw [none_of es he.1, none_of fs hf.1]
      · simpa [lookup, e] using hk

/-- Maps with the same look-ups are equal. -/
theorem ext_find? (m n : SortedMap α) (h : ∀ k, m.find? k = n.find? k) : m = n := by
  have := entries_eq_of_lookup m.entries n.entries m.sorted n.sorted h
  cases m; cases n; simp_all

end SortedMap

end Intake
