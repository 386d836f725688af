import Intake.Proofs.Value.Storing
import Intake.Value.Edit

/-!
# Objects with distinct keys of one kind

An invariant of the objects inside a value that are reached through objects alone: no two of
their keys are equal, and all are of one kind. It is kept by every way of putting a value in an
object. Objects that are made entry by entry are exactly those whose keys are distinct and have no
dots.
-/

namespace Intake

/-- All objects that are reached through objects have distinct keys, each of a kind. -/
inductive Value.Keyed (ok : String → Prop) : Value → Prop where
  | leaf {v : Value} (plain : v.isObject = false) : Keyed ok v
  | object {o : Object} (distinct : o.keys.Nodup) (named : ∀ key ∈ o.keys, ok key)
      (within : ∀ e ∈ o.entries, Keyed ok e.2) : Keyed ok (.object o)

namespace Value.Keyed

variable {ok : String → Prop} {o : Object} {v value : Value} {key first : String}
  {rest : List String}

theorem here (h : (Value.object o).Keyed ok) : o.keys.Nodup ∧ ∀ key ∈ o.keys, ok key := by
  cases h with
  | leaf plain => cases plain
  | object distinct named _ => exact ⟨distinct, named⟩

theorem within (h : (Value.object o).Keyed ok) : ∀ e ∈ o.entries, e.2.Keyed ok := by
  cases h with
  | leaf plain => cases plain
  | object _ _ within => exact within

theorem of_find? (h : (Value.object o).Keyed ok) (found : o.find? key = some v) : v.Keyed ok :=
  h.within _ (Entries.mem_of_lookup found)

theorem imp {ok' : String → Prop} (weaker : ∀ key, ok key → ok' key) (h : v.Keyed ok) :
    v.Keyed ok' := by
  induction h with
  | leaf plain => exact .leaf plain
  | object distinct named _ ih => exact .object distinct (fun key hk => weaker key (named key hk)) ih

theorem empty : (Value.object .empty).Keyed ok :=
  .object .nil (fun _ hk => absurd hk List.not_mem_nil) fun _ he => absurd he List.not_mem_nil

theorem put (h : (Value.object o).Keyed ok) (named : ok key) (hv : value.Keyed ok) :
    (Value.object (o.put key value)).Keyed ok := by
  obtain ⟨distinct, all⟩ := h.here
  have keys := o.keys_put key value
  refine .object (Entries.nodup_put distinct key value) ?_ ?_
  · intro k hk
    rw [keys] at hk
    split at hk
    · exact all k hk
    · rcases List.mem_append.mp hk with hk | hk
      · exact all k hk
      · exact List.mem_singleton.mp hk ▸ named
  · intro e he
    rcases Entries.mem_put he with rfl | he
    · exact hv
    · exact h.within e he

theorem inner (h : (Value.object o).Keyed ok) (key : String) :
    (Value.object (o.inner key)).Keyed ok := by
  unfold Object.inner
  split
  · next found => exact h.of_find? found
  · exact .empty

theorem putNested (h : (Value.object o).Keyed ok) (named : ∀ key ∈ first :: rest, ok key)
    (hv : value.Keyed ok) : (Value.object (o.putNested first rest value)).Keyed ok := by
  induction rest generalizing o first with
  | nil => exact h.put (named first List.mem_cons_self) hv
  | cons next rest ih =>
    obtain ⟨here, later⟩ := List.forall_mem_cons.mp named
    rw [Object.putNested_cons]
    exact h.put here (ih (h.inner first) later)

theorem storing {items : List (String × Value)}
    (h : ∀ item ∈ items, (∀ key ∈ pathOf item.1, ok key) ∧ item.2.Keyed ok) :
    (Value.object (Object.storing items)).Keyed ok := by
  induction items using List.reverseRecOn with
  | nil => exact .empty
  | append_singleton items item ih =>
    obtain ⟨named, hv⟩ := h item (by simp)
    rw [Object.storing_concat]
    exact (ih fun other ho => h other (List.mem_append_left _ ho)).putNested named hv

end Value.Keyed

/-! ### Objects made entry by entry -/

/-- The objects that are made from the empty one by adding and updating entries, with scalars,
arrays and objects made in the same way. -/
inductive Value.Made : Value → Prop where
  | leaf {v : Value} (plain : v.isObject = false) : Made v
  | empty : Made (.object .empty)
  | add {o o' : Object} {key : String} {v : Value} (made : Made (.object o)) (value : Made v)
      (added : o.add key v = .ok o') : Made (.object o')
  | update {o o' : Object} {key : String} {v : Value} (made : Made (.object o)) (value : Made v)
      (updated : o.update key v = .ok o') : Made (.object o')

namespace Object

theorem add_eq_ok_iff {o o' : Object} {key : String} {v : Value} :
    o.add key v = .ok o' ↔ '.' ∉ key.toList ∧ o.contains key = false ∧ o' = o.put key v := by
  rw [add]
  by_cases dotted : '.' ∈ key.toList
  · simp [dotted]
  · cases o.contains key <;> simp [dotted, eq_comm]

theorem update_eq_ok_iff {o o' : Object} {key : String} {v : Value} :
    o.update key v = .ok o' ↔ o.contains key = true ∧ o' = o.put key v := by
  rw [update]
  cases o.contains key <;> simp [eq_comm]

theorem contains_iff {o : Object} {key : String} : o.contains key = true ↔ key ∈ o.keys := by
  have absent := Entries.lookup_eq_none_iff key o.entries
  rw [contains, find?, Option.isSome_iff_ne_none, ne_eq, absent, not_not]
  rfl

end Object

theorem Value.Made.keyed {v : Value} (h : v.Made) : v.Keyed fun key => '.' ∉ key.toList := by
  induction h with
  | leaf plain => exact .leaf plain
  | empty => exact .empty
  | add _ _ added ihObject ihValue =>
    obtain ⟨plain, -, rfl⟩ := Object.add_eq_ok_iff.mp added
    exact ihObject.put plain ihValue
  | update _ _ updated ihObject ihValue =>
    obtain ⟨present, rfl⟩ := Object.update_eq_ok_iff.mp updated
    exact ihObject.put (ihObject.here.2 _ (Object.contains_iff.mp present)) ihValue

theorem Value.Made.of_entries {entries : List (String × Value)}
    (distinct : (entries.map Prod.fst).Nodup) (plain : ∀ e ∈ entries, '.' ∉ e.1.toList)
    (each : ∀ e ∈ entries, e.2.Made) : (Value.object ⟨entries⟩).Made := by
  -- The entries are added one by one, the last one last: its key is not there before.
  induction entries using List.reverseRecOn with
  | nil => exact .empty
  | append_singleton entries e ih =>
    rw [List.map_append] at distinct
    obtain ⟨earlier, -, apart⟩ := List.nodup_append.mp distinct
    have new : e.1 ∉ (Object.mk entries).keys :=
      fun hm => apart e.1 hm e.1 (List.mem_singleton_self _) rfl
    have absent : (Object.mk entries).contains e.1 = false :=
      Bool.eq_false_iff.mpr fun present => new (Object.contains_iff.mp present)
    have added : (Object.mk entries).add e.1 e.2 = .ok ⟨entries ++ [e]⟩ :=
      Object.add_eq_ok_iff.mpr ⟨plain e (by simp), absent,
        (congrArg Object.mk (Entries.put_of_not_mem new e.2)).symm⟩
    have made := ih earlier (fun other ho => plain other (List.mem_append_left _ ho))
      fun other ho => each other (List.mem_append_left _ ho)
    exact made.add (each e (by simp)) added

/-- What is made entry by entry is what has distinct keys without dots. -/
theorem Value.made_iff (v : Value) : v.Made ↔ v.Keyed fun key => '.' ∉ key.toList := by
  refine ⟨Made.keyed, fun h => ?_⟩
  induction h with
  | leaf plain => exact .leaf plain
  | @object o distinct named _ ih =>
    obtain ⟨entries⟩ := o
    exact .of_entries distinct (fun e he => named e.1 (List.mem_map_of_mem he)) ih

end Intake
