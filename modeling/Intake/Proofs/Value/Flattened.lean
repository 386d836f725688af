import Intake.Proofs.Report.Listing
import Intake.Proofs.Value.Appended
import Intake.Proofs.Value.Storing
import Mathlib.Data.List.Perm.Basic

/-!
# Flat views of stored values

A value that is put where nothing is adds its own leaves to the flat view of an object and
changes no other. So the flat view of values that are stored under names none of which leads
into another has the leaves of each of them, and nothing else.
-/

namespace Intake

/-! ### Maps of pairs with distinct keys -/

theorem SortedMap.entries_ofList_perm {α : Type} {pairs : List (String × α)}
    (distinct : (pairs.map Prod.fst).Nodup) : (SortedMap.ofList pairs).entries.Perm pairs := by
  have sorted := (SortedMap.ofList pairs).nodup_keys
  refine (List.perm_ext_iff_of_nodup sorted.of_map distinct.of_map).mpr fun pair => ?_
  rw [← find?_eq_some_iff, find?_ofList, Entries.lookup_reverse distinct]
  exact ⟨Entries.mem_of_lookup, Entries.lookup_of_mem distinct⟩

/-! ### Paths of leaves -/

theorem foldl_entryPath_of_ne_empty {path : String} (named : path ≠ "") (first : String)
    (rest : List String) :
    (first :: rest).foldl entryPath path = path ++ "." ++ Text.joinDots first rest := by
  induction rest generalizing path first with
  | nil => exact if_neg named
  | cons next rest ih =>
    have step : entryPath path first = path ++ "." ++ first := if_neg named
    have longer : path ++ "." ++ first ≠ "" := by
      intro same
      have lengths := congrArg String.length same
      simp [show ".".length = 1 from rfl] at lengths
    rw [List.foldl_cons, step, ih longer, Text.joinDots]
    simp only [String.append_assoc]

theorem foldl_entryPath_pathOf {name : String} (named : (Text.segments name).1 ≠ "") :
    (pathOf name).foldl entryPath "" = name := by
  have joined := Text.joinDots_segments name
  rw [pathOf, List.foldl_cons, entryPath, if_pos rfl]
  cases rest : (Text.segments name).2 with
  | nil =>
    rw [rest] at joined
    exact joined
  | cons next more =>
    rw [rest] at joined
    rw [foldl_entryPath_of_ne_empty named]
    exact joined

namespace Object

/-! ### Free places -/

/-- Whether nothing is at a path of an object, and nothing but objects on the way. -/
def Free : Object → String → List String → Prop
  | o, first, [] => o.find? first = none
  | o, first, next :: rest =>
    ∀ v, o.find? first = some v → ∃ inner, v = .object inner ∧ inner.Free next rest

theorem free_empty (first : String) (rest : List String) : empty.Free first rest := by
  cases rest with
  | nil => rfl
  | cons next rest =>
    intro v found
    cases found

theorem Free.inner {o : Object} {first next : String} {rest : List String}
    (free : o.Free first (next :: rest)) : (o.inner first).Free next rest := by
  unfold Object.inner
  split
  · next found =>
    obtain ⟨inner, same, free⟩ := free _ found
    exact Value.object.inj same ▸ free
  · exact free_empty next rest

theorem Free.congr {o o' : Object} {first : String} {rest : List String}
    (free : o.Free first rest) (same : o'.find? first = o.find? first) : o'.Free first rest := by
  cases rest with
  | nil => exact same.trans free
  | cons next rest => exact fun v found => free v (same ▸ found)

/-- A place stays free when a value is put at a path that parts from it. -/
theorem Free.putNested {o : Object} {first first' : String} {rest rest' : List String}
    (free : o.Free first rest) (value : Value) (apart : ¬ first :: rest <+: first' :: rest')
    (apart' : ¬ first' :: rest' <+: first :: rest) :
    (o.putNested first' rest' value).Free first rest := by
  induction rest generalizing o first first' rest' with
  | nil =>
    have other : first' ≠ first := by
      intro same
      exact apart (same ▸ List.prefix_append [first'] rest')
    exact free.congr (o.find?_putNested_other other rest' value)
  | cons next rest ih =>
    by_cases same : first' = first
    · subst same
      cases rest' with
      | nil => exact absurd (List.prefix_append [first'] _) apart'
      | cons next' rest' =>
        intro v found
        rw [find?_putNested_cons] at found
        refine ⟨_, (Option.some.inj found).symm, ih free.inner ?_ ?_⟩
        · exact fun pre => apart (List.cons_prefix_cons.mpr ⟨rfl, pre⟩)
        · exact fun pre => apart' (List.cons_prefix_cons.mpr ⟨rfl, pre⟩)
    · exact free.congr (o.find?_putNested_other same rest' value)

/-! ### Leaves -/

/-- An entry that has all leaves of what was under its key, and some more, adds just these. -/
theorem leaves_put_perm (o : Object) (key : String) (v : Value) (path : String)
    {extra : List (String × Value)}
    (grown : (v.leaves (entryPath path key)).Perm
      ((o.find? key).elim [] (·.leaves (entryPath path key)) ++ extra)) :
    ((o.put key v).leaves path).Perm (o.leaves path ++ extra) := by
  obtain ⟨entries⟩ := o
  show (leavesOfEntries path (Entries.put key v entries)).Perm (leavesOfEntries path entries ++ extra)
  replace grown : (v.leaves (entryPath path key)).Perm
    ((Entries.lookup key entries).elim [] (·.leaves (entryPath path key)) ++ extra) := grown
  induction entries with
  | nil =>
    rw [Entries.put, leavesOfEntries.eq_2, leavesOfEntries.eq_1, List.append_nil]
    exact grown
  | cons e entries ih =>
    obtain ⟨k, w⟩ := e
    rw [Entries.lookup] at grown
    rw [Entries.put, leavesOfEntries]
    by_cases same : k = key
    · subst same
      rw [if_pos rfl] at grown
      rw [if_pos rfl, leavesOfEntries, List.append_assoc]
      refine (grown.append_right _).trans ?_
      rw [Option.elim_some, List.append_assoc]
      exact List.perm_append_comm.append_left _
    · rw [if_neg same] at grown
      rw [if_neg same, leavesOfEntries, List.append_assoc]
      exact (ih grown).append_left _

/-- On the way to a free place there are no leaves but those of inner objects. -/
theorem Free.leaves_eq {o : Object} {first next : String} {rest : List String}
    (free : o.Free first (next :: rest)) (path : String) :
    (o.find? first).elim [] (·.leaves path) = (o.inner first).leaves path := by
  unfold Object.inner
  cases found : o.find? first with
  | none => rfl
  | some v =>
    obtain ⟨held, rfl, -⟩ := free v found
    rfl

/-- A value in a free place adds its own leaves and changes no other. -/
theorem leaves_putNested_perm {o : Object} {first : String} {rest : List String}
    (free : o.Free first rest) (value : Value) (path : String) :
    ((o.putNested first rest value).leaves path).Perm
      (o.leaves path ++ value.leaves ((first :: rest).foldl entryPath path)) := by
  induction rest generalizing o first path with
  | nil =>
    have nothing : o.find? first = none := free
    apply leaves_put_perm
    rw [nothing]
    exact .refl _
  | cons next rest ih =>
    rw [putNested_cons]
    apply leaves_put_perm
    rw [free.leaves_eq]
    exact ih free.inner (entryPath path first)

/-! ### Items stored one after the other -/

/-- Neither of two names leads into the other. -/
def Apart (name name' : String) : Prop :=
  ¬ pathOf name <+: pathOf name' ∧ ¬ pathOf name' <+: pathOf name

theorem free_storing {items : List (String × Value)} {name : String}
    (apart : ∀ item ∈ items, Apart item.1 name) :
    (storing items).Free (Text.segments name).1 (Text.segments name).2 := by
  induction items using List.reverseRecOn with
  | nil => exact free_empty _ _
  | append_singleton items item ih =>
    have before := ih fun other ho => apart other (List.mem_append_left _ ho)
    obtain ⟨parted, parted'⟩ := apart item (by simp)
    rw [storing_concat]
    exact before.putNested item.2 parted' parted

theorem leaves_storing_perm {items : List (String × Value)}
    (apart : items.Pairwise fun item other => Apart item.1 other.1)
    (named : ∀ item ∈ items, (Text.segments item.1).1 ≠ "") :
    ((storing items).leaves "").Perm (items.flatMap fun item => item.2.leaves item.1) := by
  induction items using List.reverseRecOn with
  | nil => exact .refl _
  | append_singleton items item ih =>
    obtain ⟨before, -, last⟩ := List.pairwise_append.mp apart
    have free : (storing items).Free _ _ :=
      free_storing fun other ho => last other ho item (List.mem_singleton_self item)
    have added := leaves_putNested_perm free item.2 ""
    have name := foldl_entryPath_pathOf (named item (by simp))
    rw [pathOf] at name
    rw [name] at added
    have others := ih before fun other ho => named other (List.mem_append_left _ ho)
    rw [storing_concat, List.flatMap_append, List.flatMap_singleton]
    exact added.trans (others.append_right _)

theorem leaves_of_not_object {v : Value} (plain : v.isObject = false) (path : String) :
    v.leaves path = [(path, v)] := by
  cases v with
  | scalar => rfl
  | array => rfl
  | object => cases plain

/-- The flat view of values that are no objects, stored under names that are apart, has these
values under their names, and nothing else. -/
theorem flatten_storing_perm {items : List (String × Value)}
    (apart : items.Pairwise fun item other => Apart item.1 other.1)
    (named : ∀ item ∈ items, (Text.segments item.1).1 ≠ "")
    (plain : ∀ item ∈ items, item.2.isObject = false) :
    (storing items).flatten.entries.Perm items := by
  have leaves : (items.flatMap fun item => item.2.leaves item.1) = items := by
    have each : ∀ item ∈ items, item.2.leaves item.1 = [item] :=
      fun item hi => leaves_of_not_object (plain item hi) item.1
    rw [List.flatMap_congr each]
    simp
  have stored := leaves_storing_perm apart named
  rw [leaves] at stored
  have distinct : (items.map Prod.fst).Nodup := by
    refine List.pairwise_map.mpr (apart.imp fun parted same => parted.1 ?_)
    exact same ▸ List.prefix_rfl
  have distinctLeaves := (stored.map Prod.fst).nodup_iff.mpr distinct
  exact (SortedMap.entries_ofList_perm distinctLeaves).trans stored

end Object

end Intake
