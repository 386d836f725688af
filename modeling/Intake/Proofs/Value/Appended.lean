import Intake.Proofs.Value.Walks
import Intake.Value.Flatten
import Mathlib.Data.List.Induction

/-!
# Objects with more entries

What is read from an object behind whose entries others have been appended. Keys of
the others may be any texts: at a path they come before a walk through the object,
and in its flat view they take the place of what the object has there.
-/

namespace Intake

theorem SortedMap.find?_ofList {α : Type} (pairs : List (String × α)) (key : String) :
    (SortedMap.ofList pairs).find? key = Entries.lookup key pairs.reverse := by
  rw [ofList]
  induction pairs using List.reverseRecOn with
  | nil => rfl
  | append_singleton pairs pair ih =>
    rw [List.foldl_append, List.foldl_cons, List.foldl_nil, find?_insert, ih, List.reverse_append,
      List.reverse_singleton, List.singleton_append, Entries.lookup]

theorem SortedMap.find?_ofList_append {α : Type} (before after : List (String × α)) (key : String) :
    (SortedMap.ofList (before ++ after)).find? key =
      ((SortedMap.ofList after).find? key).or ((SortedMap.ofList before).find? key) := by
  simp only [find?_ofList, List.reverse_append, Entries.lookup_append]

theorem leavesOfEntries_append (path : String) (es fs : List (String × Value)) :
    leavesOfEntries path (es ++ fs) = leavesOfEntries path es ++ leavesOfEntries path fs := by
  induction es with
  | nil => rfl
  | cons e es ih => rw [List.cons_append, leavesOfEntries, leavesOfEntries, ih, List.append_assoc]

namespace Object

def append (o c : Object) : Object := ⟨o.entries ++ c.entries⟩

theorem find?_append (o c : Object) (key : String) :
    (o.append c).find? key = (o.find? key).or (c.find? key) :=
  Entries.lookup_append key o.entries c.entries

theorem find?_eq_none_of_not_mem {o : Object} {key : String} (h : key ∉ o.keys) :
    o.find? key = none := (Entries.lookup_eq_none_iff _ _).mpr h

theorem find?_eq_none_or {o c : Object} (apart : ∀ key ∈ c.keys, key ∉ o.keys) (key : String) :
    o.find? key = none ∨ c.find? key = none := by
  by_cases h : key ∈ c.keys
  · exact .inl (find?_eq_none_of_not_mem (apart key h))
  · exact .inr (find?_eq_none_of_not_mem h)

/-- The entries of an object that another one does not have. -/
def beyond (c o : Object) : Object := ⟨c.entries.filter fun item => !o.contains item.1⟩

theorem beyond_apart (c o : Object) : ∀ key ∈ (c.beyond o).keys, key ∉ o.keys := by
  intro key hk hm
  obtain ⟨item, hi, rfl⟩ := List.mem_map.mp hk
  have fresh := (List.mem_filter.mp hi).2
  have absent : o.find? item.1 = none := by simpa [contains] using fresh
  exact (Entries.lookup_eq_none_iff _ _).mp absent hm

theorem find?_beyond (c o : Object) (key : String) :
    (c.beyond o).find? key = if o.contains key then none else c.find? key := by
  have filtered := Entries.lookup_filter (fun key => !o.contains key) key c.entries
  rw [find?, beyond, filtered, find?]
  cases o.contains key <;> rfl

theorem contains_append_beyond (o c : Object) (key : String) :
    (o.append (c.beyond o)).contains key = (o.contains key || c.contains key) := by
  rw [contains, find?_append, find?_beyond, contains, contains]
  cases o.find? key <;> simp

theorem put_of_not_contains {o : Object} {key : String} (new : o.contains key = false)
    (value : Value) : o.put key value = ⟨o.entries ++ [(key, value)]⟩ := by
  have absent : o.find? key = none := by simpa [contains] using new
  exact congrArg Object.mk
    (Entries.put_of_not_mem ((Entries.lookup_eq_none_iff _ _).mp absent) value)

theorem beyond_put_of_contains {c o : Object} {key : String} {value : Value}
    (own : o.contains key = true) (new : c.contains key = false) :
    (c.put key value).beyond o = c.beyond o := by
  rw [put_of_not_contains new, beyond, beyond, List.filter_append]
  simp [own]

theorem append_beyond_put {o c : Object} {key : String} (free : o.contains key = false)
    (new : c.contains key = false) (value : Value) :
    (o.append (c.beyond o)).put key value = o.append ((c.put key value).beyond o) := by
  have absent : (o.append (c.beyond o)).contains key = false := by
    rw [contains_append_beyond, free, new]
    rfl
  rw [put_of_not_contains absent, put_of_not_contains new]
  simp [append, beyond, free]

theorem flatten_append (o c : Object) (path : String) :
    (o.append c).flatten.find? path = (c.flatten.find? path).or (o.flatten.find? path) := by
  have leaves : (o.append c).leaves "" = o.leaves "" ++ c.leaves "" := by
    obtain ⟨es⟩ := o
    obtain ⟨fs⟩ := c
    exact leavesOfEntries_append "" es fs
  rw [flatten, leaves, SortedMap.find?_ofList_append]
  rfl

theorem walk_nil (o : Object) (first : String) :
    (Value.object o).walk first [] = .ok (o.find? first) := rfl

theorem walk_cons (o : Object) (first next : String) (rest : List String) :
    (Value.object o).walk first (next :: rest) =
      match o.find? (Text.joinDots first (next :: rest)) with
      | some found => .ok (some found)
      | none =>
        match o.find? first with
        | none => .ok none
        | some w => w.walk next rest := by
  rw [Value.walk, Value.verbatim?, Value.child]
  cases o.find? (Text.joinDots first (next :: rest)) with
  | some found => rfl
  | none => cases o.find? first <;> rfl

theorem walk_append {o c : Object} (plain : ∀ key ∈ o.keys, '.' ∉ key.toList)
    (apart : ∀ key ∈ c.keys, key ∉ o.keys) (first : String) (rest : List String) :
    (Value.object (o.append c)).walk first rest =
      match (Value.object c).walk first rest with
      | .ok none => (Value.object o).walk first rest
      | found => found := by
  have separate := find?_eq_none_or apart first
  cases rest with
  | nil =>
    rw [walk_nil, walk_nil, walk_nil, find?_append]
    rcases separate with absent | absent
    · rw [absent, Option.none_or]
      cases c.find? first <;> rfl
    · rw [absent, Option.or_none]
  | cons next rest =>
    have dotted : '.' ∈ (Text.joinDots first (next :: rest)).toList := by simp [Text.joinDots]
    -- The object itself has no key with a dot, so only what is appended can be found verbatim.
    have whole : o.find? (Text.joinDots first (next :: rest)) = none :=
      find?_eq_none_of_not_mem fun hm => plain _ hm dotted
    rw [walk_cons, walk_cons, walk_cons, find?_append, find?_append, whole, Option.none_or]
    cases c.find? (Text.joinDots first (next :: rest)) with
    | some found => rfl
    | none =>
      rcases separate with absent | absent
      · rw [absent, Option.none_or]
        cases c.find? first with
        | none => rfl
        | some w =>
          show w.walk next rest = match w.walk next rest with
            | .ok none => .ok none
            | found => found
          split
          · assumption
          · rfl
      · rw [absent, Option.or_none]

/-- What is appended is found first. Only where it has nothing at a path the value is that of the
object itself. -/
theorem get_append {o c : Object} (plain : ∀ key ∈ o.keys, '.' ∉ key.toList)
    (apart : ∀ key ∈ c.keys, key ∉ o.keys) (path : String) :
    (o.append c).get path =
      match c.get path with
      | .ok none => o.get path
      | found => found := by
  have walks := walk_append plain apart (Text.segments path).1 (Text.segments path).2
  have unfold_get : ∀ o : Object, o.get path = ((Value.object o).walk (Text.segments path).1
      (Text.segments path).2).mapError (.badPath · path) := fun _ => rfl
  rw [unfold_get, unfold_get, unfold_get, walks]
  cases (Value.object c).walk (Text.segments path).1 (Text.segments path).2 with
  | error fault => rfl
  | ok found => cases found <;> rfl

theorem get_append_eq_iff {o c : Object} (plain : ∀ key ∈ o.keys, '.' ∉ key.toList)
    (apart : ∀ key ∈ c.keys, key ∉ o.keys) (path : String) :
    (o.append c).get path = o.get path ↔ c.get path = .ok none ∨ c.get path = o.get path := by
  rw [get_append plain apart]
  cases c.get path with
  | error misuse => simp
  | ok found => cases found <;> simp

theorem flatten_append_eq_iff (o c : Object) (path : String) :
    (o.append c).flatten.find? path = o.flatten.find? path ↔
      c.flatten.find? path = none ∨ c.flatten.find? path = o.flatten.find? path := by
  rw [flatten_append]
  cases c.flatten.find? path <;> simp

end Object

end Intake
