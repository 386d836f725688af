import Intake.Proofs.Calendar.ReadBack
import Intake.Proofs.Json.ReadBack
import Intake.Proofs.Numeral.Integers
import Intake.Value.Json
import Mathlib.Data.List.Forall2

/-!
# Written values

The tree of a value in JSON, and what is read again from its text. All kinds but the floats
have a form of their own, and it is read as the same scalar.
-/

namespace Intake

/-! ### What stands in a value -/

inductive Value.Has (k : Kind) (a : k.Carrier) : Value → Prop where
  | scalar : Has k a (.scalar k a)
  | item {items : List Value} {v : Value} (among : v ∈ items) (has : Has k a v) :
      Has k a (.array items)
  | entry {o : Object} {key : String} {v : Value} (among : (key, v) ∈ o.entries)
      (has : Has k a v) : Has k a (.object o)

/-- The local years of all timestamps are written with four digits. -/
def Value.FourDigitYears (v : Value) : Prop :=
  ∀ t : Calendar.Timestamp, v.Has .timestamp t → 0 ≤ t.date.year ∧ t.date.year ≤ 9999

theorem itemsToJson_eq_map (items : List Value) : itemsToJson items = items.map Value.toJson := by
  induction items with
  | nil => rfl
  | cons item items ih => rw [itemsToJson, ih, List.map_cons]

theorem entriesToJson_eq_map (entries : List (String × Value)) :
    entriesToJson entries = entries.map fun entry => (entry.1, entry.2.toJson) := by
  induction entries with
  | nil => rfl
  | cons entry entries ih =>
    obtain ⟨key, v⟩ := entry
    rw [entriesToJson, ih, List.map_cons]

theorem Object.toJson_eq (o : Object) : o.toJson = .object (entriesToJson o.entries) := by
  obtain ⟨entries⟩ := o
  rw [Object.toJson]

theorem lookup_entriesToJson (entries : List (String × Value)) (key : String) :
    Entries.lookup key (entriesToJson entries) = (Entries.lookup key entries).map Value.toJson := by
  induction entries with
  | nil => rfl
  | cons entry entries ih =>
    obtain ⟨name, v⟩ := entry
    rw [entriesToJson, Entries.lookup, Entries.lookup, ih]
    split <;> rfl

/-! ### Scalars -/

namespace Kind

/-- The kinds whose values have one text each: all but the floats. -/
def IsExact (k : Kind) : Prop := ∀ float, k ≠ .float float

variable {k : Kind}

/-- What is written for a scalar is read as the scalar. -/
theorem ofJson_toJson (exact : k.IsExact) {a : k.Carrier}
    (years : (Value.scalar k a).FourDigitYears) : k.ofJson (k.toJson a) = .ok a := by
  cases k with
  | string => rfl
  | bool => rfl
  | int k =>
    show k.ofNumber (String.ofList (Numeral.integerText a.value).toList) = .ok a
    rw [String.ofList_toList]
    exact k.ofNumber_integerText a
  | float k => exact absurd rfl (exact k)
  | timestamp =>
    have read := a.read?_toJsonText (years a .scalar)
    simp [toJson, ofJson, ofText, read]

theorem legible_toJson (exact : k.IsExact) (a : k.Carrier) :
    (k.toJson a).Legible := by
  cases k with
  | string => exact .string
  | bool => exact .bool
  | int k => exact .number (Json.readNumberText_integerText a.value)
  | float k => exact absurd rfl (exact k)
  | timestamp => exact .string

theorem toJson_flat (exact : k.IsExact) (a : k.Carrier) :
    (∀ room, (k.toJson a).Within room) ∧ (k.toJson a).inOrder = k.toJson a := by
  cases k with
  | string => exact ⟨fun _ => .string, rfl⟩
  | bool => exact ⟨fun _ => .bool, rfl⟩
  | int k => exact ⟨fun _ => .number, rfl⟩
  | float k => exact absurd rfl (exact k)
  | timestamp => exact ⟨fun _ => .string, rfl⟩

end Kind

/-! ### Values that are read back -/

theorem exists_of_forall₂ {R : Json → Value → Prop} {items : List Json} {values : List Value}
    (each : List.Forall₂ R items values) : ∀ v ∈ values, ∃ item ∈ items, R item v := by
  induction each with
  | nil => exact List.forall_mem_nil _
  | @cons item v items values first _ ih =>
    refine List.forall_mem_cons.mpr ⟨⟨item, List.mem_cons_self, first⟩, fun w hw => ?_⟩
    obtain ⟨other, among, related⟩ := ih w hw
    exact ⟨other, List.mem_cons_of_mem item among, related⟩

/-- What is written for a value can be read in the room, and what is read is what is wanted. -/
structure Value.Rereads (v : Value) (room : Nat) (wanted : Json → Prop) : Prop where
  legible : v.toJson.Legible
  within : v.toJson.Within room
  found : wanted v.toJson.inOrder

theorem Value.Rereads.imp {v : Value} {room : Nat} {P Q : Json → Prop} (h : v.Rereads room P)
    (imp : ∀ node, P node → Q node) : v.Rereads room Q :=
  ⟨h.legible, h.within, imp _ h.found⟩

theorem Value.rereads_array {R : Json → Value → Prop} {values : List Value} {room : Nat}
    (each : ∀ v ∈ values, v.Rereads room (R · v)) :
    (Value.array values).Rereads (room + 1) fun node =>
      ∃ items, node = .array items ∧ List.Forall₂ R items values := by
  refine ⟨?_, ?_, ?_⟩
  all_goals rw [Value.toJson, itemsToJson_eq_map]
  · refine .array fun item mem => ?_
    obtain ⟨v, hv, rfl⟩ := List.mem_map.mp mem
    exact (each v hv).legible
  · refine .array fun item mem => ?_
    obtain ⟨v, hv, rfl⟩ := List.mem_map.mp mem
    exact (each v hv).within
  · refine ⟨_, rfl, ?_⟩
    rw [Json.itemsInOrder_eq_map, List.map_map, List.forall₂_map_left_iff, List.forall₂_same]
    exact fun v hv => (each v hv).found

/-- The members of a written object are looked up as the entries of the object. -/
theorem Value.rereads_object {entries : List (String × Value)}
    (distinct : (entries.map Prod.fst).Nodup) {room : Nat}
    (names : ∀ entry ∈ entries, entry.1 ≠ Json.Reader.numberKey)
    (each : ∀ entry ∈ entries, ∃ wanted, entry.2.Rereads room wanted) :
    (Value.object ⟨entries⟩).Rereads (room + 1) fun node => ∃ members, node = .object members ∧
      ∀ key, Entries.lookup key members =
        (Entries.lookup key entries).map fun v : Value => v.toJson.inOrder := by
  have told : ∀ member ∈ entriesToJson entries, ∃ entry ∈ entries, member.1 = entry.1 ∧
      member.2 = entry.2.toJson := by
    rw [entriesToJson_eq_map]
    intro member mem
    obtain ⟨entry, among, rfl⟩ := List.mem_map.mp mem
    exact ⟨entry, among, rfl, rfl⟩
  have keys : ((entriesToJson entries).map Prod.fst).Nodup := by
    rw [entriesToJson_eq_map, List.map_map]
    exact distinct
  refine ⟨.object ?_ ?_, .object ?_, _, rfl, fun key => ?_⟩
  · intro member mem
    obtain ⟨entry, among, -, node⟩ := told member mem
    obtain ⟨wanted, rereads⟩ := each entry among
    rw [node]
    exact rereads.legible
  · intro member first
    obtain ⟨entry, among, key, -⟩ := told member (List.mem_of_mem_head? first)
    rw [key]
    exact names entry among
  · intro member mem
    obtain ⟨entry, among, -, node⟩ := told member mem
    obtain ⟨wanted, rereads⟩ := each entry among
    rw [node]
    exact rereads.within
  · rw [Json.lookup_inOrder keys, lookup_entriesToJson, Option.map_map]
    rfl

end Intake
