import Intake.Proofs.Value.Flattened
import Intake.Proofs.Value.Keyed

/-!
# Leaves by the keys that lead to them

The flat view of an object has a path for each leaf; here the leaves are told by the keys that
lead to them, before these are joined. With distinct keys and no dots in them, no leaf is lost but
where the keys of a leaf start with an empty one and go on: an empty path is taken for that of
the whole object.
-/

namespace Intake

mutual

/-- The values inside a value, or the value itself, that are no objects, each by the keys that lead
to it through objects. -/
def Value.tips : Value → List (List String × Value)
  | .object o => o.tips
  | .scalar kind a => [([], .scalar kind a)]
  | .array items => [([], .array items)]

def Object.tips : Object → List (List String × Value)
  | ⟨entries⟩ => tipsOfEntries entries

def tipsOfEntries : List (String × Value) → List (List String × Value)
  | [] => []
  | (key, value) :: rest => value.tips.map (fun tip => (key :: tip.1, tip.2)) ++ tipsOfEntries rest

end

def flatKey (keys : List String) : String := keys.foldl entryPath ""

theorem Object.tips_eq (o : Object) :
    o.tips = o.entries.flatMap fun e => e.2.tips.map fun tip => (e.1 :: tip.1, tip.2) := by
  obtain ⟨entries⟩ := o
  rw [tips]
  induction entries with
  | nil => rfl
  | cons e entries ih => rw [tipsOfEntries, ih, List.flatMap_cons]

theorem Value.tips_of_not_object {v : Value} (plain : v.isObject = false) : v.tips = [([], v)] := by
  cases v with
  | scalar => rfl
  | array => rfl
  | object => cases plain

theorem Object.mem_tips_iff (o : Object) (keys : List String) (v : Value) :
    (keys, v) ∈ o.tips ↔ ∃ key rest w, keys = key :: rest ∧ (key, w) ∈ o.entries ∧
      (rest, v) ∈ w.tips := by
  rw [tips_eq]
  simp only [List.mem_flatMap, List.mem_map, Prod.mk.injEq, Prod.exists]
  constructor
  · rintro ⟨key, w, entry, rest, x, tip, rfl, rfl⟩
    exact ⟨key, rest, w, rfl, entry, tip⟩
  · rintro ⟨key, rest, w, rfl, entry, tip⟩
    exact ⟨key, w, entry, rest, v, tip, rfl, rfl⟩

namespace Value

variable {v w : Value} {key : String} {keys : List String}

theorem mem_tips_nil_iff : ([], w) ∈ v.tips ↔ v.isObject = false ∧ v = w := by
  cases isObject : v.isObject with
  | false => simp [tips_of_not_object isObject, eq_comm]
  | true =>
    cases v with
    | scalar => cases isObject
    | array => cases isObject
    | object o =>
      refine iff_of_false (fun tip => ?_) fun plain => Bool.noConfusion plain.1
      obtain ⟨_, _, _, same, -⟩ := (o.mem_tips_iff _ _).mp tip
      cases same

theorem cons_not_mem_tips (plain : v.isObject = false) : (key :: keys, w) ∉ v.tips := by
  rw [tips_of_not_object plain, List.mem_singleton]
  exact fun same => List.cons_ne_nil key keys (Prod.mk.inj same).1

/-- No array is met before the last of some keys. -/
def NoArrayBefore (v : Value) (keys : List String) : Prop :=
  ∀ way next more, keys = way ++ next :: more → ∀ items, v.follow way ≠ some (.array items)

theorem noArrayBefore_nil (v : Value) : v.NoArrayBefore [] := by
  simp [NoArrayBefore]

theorem noArrayBefore_object (o : Object) (key : String) (keys : List String) :
    (Value.object o).NoArrayBefore (key :: keys) ↔
      ∀ u, o.find? key = some u → u.NoArrayBefore keys := by
  constructor
  · intro none u found way next more split items
    have whole := none (key :: way) next more (by rw [split]; rfl) items
    rw [follow_object, found] at whole
    exact whole
  · intro none way next more split items array
    cases way with
    | nil => exact Value.noConfusion (Option.some.inj array)
    | cons segment way =>
      obtain ⟨rfl, tails⟩ := List.cons.inj split
      rw [follow_object] at array
      obtain ⟨u, found, array⟩ := Option.bind_eq_some_iff.mp array
      exact none u found way next more tails items array

end Value

theorem Value.leaves_eq_tips (path : String) (v : Value) :
    v.leaves path = v.tips.map fun tip => (tip.1.foldl entryPath path, tip.2) := by
  refine Value.leaves.induct
    (fun path v => v.leaves path = v.tips.map fun tip => (tip.1.foldl entryPath path, tip.2))
    (fun path o => o.leaves path = o.tips.map fun tip => (tip.1.foldl entryPath path, tip.2))
    (fun path es => leavesOfEntries path es =
      (tipsOfEntries es).map fun tip => (tip.1.foldl entryPath path, tip.2))
    ?_ ?_ ?_ ?_ ?_ ?_ path v
  · intro path o ih
    exact ih
  · intro path kind a
    rfl
  · intro path items
    rfl
  · intro path entries ih
    exact ih
  · intro path
    rfl
  · intro path key value rest first others
    rw [leavesOfEntries, first, others, tipsOfEntries, List.map_append, List.map_map]
    rfl

theorem Object.leaves_eq_tips (o : Object) :
    o.leaves "" = o.tips.map fun tip => (flatKey tip.1, tip.2) :=
  Value.leaves_eq_tips "" (.object o)

namespace Value.Keyed

variable {ok : String → Prop} {v w : Value} {keys : List String}

theorem tips_named (h : v.Keyed ok) (tip : (keys, w) ∈ v.tips) : ∀ key ∈ keys, ok key := by
  induction h generalizing keys with
  | leaf plain =>
    rw [tips_of_not_object plain, List.mem_singleton, Prod.mk.injEq] at tip
    rw [tip.1]
    exact fun _ hk => absurd hk List.not_mem_nil
  | @object o _ named _ ih =>
    obtain ⟨key, rest, u, rfl, entry, tip⟩ := (o.mem_tips_iff _ _).mp tip
    refine List.forall_mem_cons.mpr ⟨?_, ih _ entry tip⟩
    exact named key (List.mem_map_of_mem (f := Prod.fst) entry)

theorem nodup_tips (h : v.Keyed ok) : (v.tips.map Prod.fst).Nodup := by
  induction h with
  | leaf plain =>
    rw [tips_of_not_object plain]
    exact List.nodup_singleton _
  | @object o distinct _ _ ih =>
    show (o.tips.map Prod.fst).Nodup
    rw [Object.tips_eq, List.map_flatMap, List.nodup_flatMap]
    -- Within an entry the rest of the keys differs, between two entries the first key.
    constructor
    · intro e he
      have keys : (e.2.tips.map fun tip => (e.1 :: tip.1, tip.2)).map Prod.fst =
          (e.2.tips.map Prod.fst).map (e.1 :: ·) := by simp
      rw [keys]
      exact (ih e he).map fun _ _ same => (List.cons.inj same).2
    · refine (List.pairwise_map.mp distinct).imp fun {e e'} other keys hk hk' => ?_
      simp only [List.map_map, List.mem_map, Function.comp_apply] at hk hk'
      obtain ⟨_, -, rfl⟩ := hk
      obtain ⟨_, -, same⟩ := hk'
      exact other (List.cons.inj same).1.symm

theorem mem_tips_cons_iff {o : Object} (h : (Value.object o).Keyed ok) {key : String} :
    (key :: keys, w) ∈ o.tips ↔ ∃ u, o.find? key = some u ∧ (keys, w) ∈ u.tips := by
  rw [o.mem_tips_iff]
  constructor
  · rintro ⟨_, _, u, same, entry, tip⟩
    obtain ⟨rfl, rfl⟩ := List.cons.inj same
    exact ⟨u, Entries.lookup_of_mem h.here.1 entry, tip⟩
  · rintro ⟨u, found, tip⟩
    exact ⟨key, keys, u, rfl, Entries.mem_of_lookup found, tip⟩

/-- A leaf is what its keys lead to, with no array on the way. -/
theorem mem_tips_iff (h : v.Keyed ok) (keys : List String) :
    (keys, w) ∈ v.tips ↔
      w.isObject = false ∧ v.follow keys = some w ∧ v.NoArrayBefore keys := by
  induction keys generalizing v with
  | nil =>
    rw [mem_tips_nil_iff]
    constructor
    · rintro ⟨plain, rfl⟩
      exact ⟨plain, rfl, noArrayBefore_nil v⟩
    · rintro ⟨plain, found, -⟩
      obtain rfl := Option.some.inj found
      exact ⟨plain, rfl⟩
  | cons key keys ih =>
    cases v with
    | scalar kind a =>
      refine iff_of_false (cons_not_mem_tips rfl) ?_
      rintro ⟨-, found, -⟩
      cases found
    | array items =>
      refine iff_of_false (cons_not_mem_tips rfl) ?_
      rintro ⟨-, -, noArray⟩
      exact noArray [] key keys rfl items rfl
    | object o =>
      have step : (key :: keys, w) ∈ (Value.object o).tips ↔ _ := mem_tips_cons_iff h
      rw [follow_object, noArrayBefore_object]
      cases found : o.find? key with
      | none => simpa [found] using step
      | some u => simpa [found, ih (h.of_find? found)] using step

end Value.Keyed

/-! ### Paths of leaves -/

theorem intercalate_cons (first : String) (rest : List String) :
    ".".intercalate (first :: rest) = Text.joinDots first rest := by
  induction rest generalizing first with
  | nil => exact String.intercalate_singleton
  | cons next rest ih => rw [String.intercalate_cons_cons, ih, Text.joinDots]

theorem intercalate_pathOf (path : String) : ".".intercalate (pathOf path) = path := by
  rw [pathOf, intercalate_cons, Text.joinDots_segments]

theorem pathOf_intercalate {keys : List String} (nonempty : keys ≠ [])
    (plain : ∀ key ∈ keys, '.' ∉ key.toList) : pathOf (".".intercalate keys) = keys := by
  cases keys with
  | nil => exact absurd rfl nonempty
  | cons first rest => rw [intercalate_cons, pathOf_joinDots plain]

theorem flatKey_of_empty (rest : List String) : flatKey ("" :: rest) = flatKey rest := by
  rw [flatKey, List.foldl_cons, entryPath, if_pos rfl]
  rfl

theorem flatKey_of_named {first : String} (named : first ≠ "") (rest : List String) :
    flatKey (first :: rest) = ".".intercalate (first :: rest) := by
  rw [flatKey, List.foldl_cons, entryPath, if_pos rfl]
  cases rest with
  | nil => exact String.intercalate_singleton.symm
  | cons next rest =>
    rw [foldl_entryPath_of_ne_empty named, intercalate_cons, Text.joinDots]

theorem flatKey_ne_dot_append {keys : List String} (plain : ∀ key ∈ keys, '.' ∉ key.toList)
    (text : String) : flatKey keys ≠ "." ++ text := by
  induction keys with
  | nil =>
    intro same
    have chars := congrArg String.toList same
    simp [flatKey] at chars
  | cons first rest ih =>
    by_cases named : first = ""
    · rw [named, flatKey_of_empty]
      exact ih fun key hk => plain key (List.mem_cons_of_mem first hk)
    · intro same
      have paths := congrArg pathOf same
      have dotted : "." ++ text = "" ++ "." ++ text := by simp
      rw [flatKey_of_named named, pathOf_intercalate (by simp) plain, dotted, pathOf_append] at paths
      exact named (List.cons.inj paths).1

namespace Object

variable {o : Object}

theorem tip_of_flatten {path : String} {v : Value} (h : o.flatten.find? path = some v) :
    ∃ tip ∈ o.tips, flatKey tip.1 = path ∧ tip.2 = v := by
  rw [flatten, SortedMap.find?_ofList] at h
  have leaf := List.mem_reverse.mp (Entries.mem_of_lookup h)
  rw [leaves_eq_tips] at leaf
  obtain ⟨tip, ht, same⟩ := List.mem_map.mp leaf
  exact ⟨tip, ht, Prod.mk.inj same⟩

/-- The flat view of an object has as many entries as the object has leaves, each leaf is found
under the keys that lead to it, joined by dots, and no two leaves have one path. -/
structure FlatLossless (o : Object) : Prop where
  count : o.flatten.size = o.tips.length
  found : ∀ keys v, (keys, v) ∈ o.tips → o.flatten.find? (".".intercalate keys) = some v
  apart : ((o.leaves "").map Prod.fst).Nodup

theorem keys_ne_nil {keys : List String} {v : Value} (tip : (keys, v) ∈ o.tips) : keys ≠ [] := by
  obtain ⟨key, rest, -, rfl, -⟩ := (o.mem_tips_iff _ _).mp tip
  exact List.cons_ne_nil key rest

theorem flatLossless_of_flatKey (keyed : (Value.object o).Keyed fun key => '.' ∉ key.toList)
    (joined : ∀ keys v, (keys, v) ∈ o.tips → flatKey keys = ".".intercalate keys) :
    o.FlatLossless := by
  have paths : (o.leaves "").map Prod.fst = (o.tips.map Prod.fst).map ".".intercalate := by
    rw [leaves_eq_tips, List.map_map, List.map_map]
    exact List.map_congr_left fun tip ht => joined tip.1 tip.2 ht
  have back : ∀ keys ∈ o.tips.map Prod.fst, pathOf (".".intercalate keys) = keys := by
    intro keys hk
    obtain ⟨⟨_, v⟩, ht, rfl⟩ := List.mem_map.mp hk
    exact pathOf_intercalate (keys_ne_nil ht) (keyed.tips_named ht)
  have distinct : ((o.leaves "").map Prod.fst).Nodup := by
    rw [paths]
    refine List.Nodup.map_on (fun keys hk other ho same => ?_) keyed.nodup_tips
    rw [← back keys hk, ← back other ho, same]
  have leaves : o.flatten.entries.Perm (o.leaves "") := SortedMap.entries_ofList_perm distinct
  refine ⟨?_, ?_, distinct⟩
  · rw [SortedMap.size, leaves.length_eq, leaves_eq_tips, List.length_map]
  · intro keys v tip
    rw [SortedMap.find?_eq_some_iff, leaves.mem_iff, leaves_eq_tips, ← joined keys v tip]
    exact List.mem_map_of_mem (f := fun tip : List String × Value => (flatKey tip.1, tip.2)) tip

/-- Where no leaf has keys that start with an empty one and go on, the path of a leaf is that of
its keys. -/
theorem flatKey_of_leafless (keyed : (Value.object o).Keyed fun key => '.' ∉ key.toList)
    (leafless : ∀ inner, o.find? "" = some (.object inner) → inner.tips = [])
    {keys : List String} {v : Value} (tip : (keys, v) ∈ o.tips) :
    flatKey keys = ".".intercalate keys := by
  obtain ⟨first, rest, w, rfl, entry, inside⟩ := (o.mem_tips_iff _ _).mp tip
  by_cases named : first = ""
  · subst named
    cases isObject : w.isObject with
    | false =>
      rw [Value.tips_of_not_object isObject, List.mem_singleton] at inside
      rw [(Prod.mk.inj inside).1, String.intercalate_singleton]
      rfl
    | true =>
      cases w with
      | scalar => cases isObject
      | array => cases isObject
      | object inner =>
        have none : (Value.object inner).tips = [] :=
          leafless inner (Entries.lookup_of_mem keyed.here.1 entry)
        rw [none] at inside
        cases inside
  · exact flatKey_of_named named rest

/-- When no leaf is lost in the flat view of an object that is made entry by entry: exactly if an
entry with the empty key is no object, or one without leaves. -/
theorem flatLossless_iff (made : (Value.object o).Made) :
    o.FlatLossless ↔ ∀ inner, o.find? "" = some (.object inner) → inner.tips = [] := by
  have keyed := made.keyed
  constructor
  · intro lossless inner found
    rw [List.eq_nil_iff_forall_not_mem]
    rintro ⟨keys, v⟩ tip
    have outer : ("" :: keys, v) ∈ o.tips :=
      (o.mem_tips_iff _ _).mpr ⟨"", keys, _, rfl, Entries.mem_of_lookup found, tip⟩
    -- The keys joined start with a dot, as no path of a leaf does.
    obtain ⟨⟨others, w⟩, ho, same, -⟩ := tip_of_flatten (lossless.found _ v outer)
    obtain ⟨first, rest, -, rfl, -⟩ := (inner.mem_tips_iff _ _).mp tip
    rw [String.intercalate_cons_cons, String.empty_append] at same
    exact flatKey_ne_dot_append (keyed.tips_named ho) _ same
  · intro leafless
    exact flatLossless_of_flatKey keyed fun _ _ => flatKey_of_leafless keyed leafless

/-- An object that has leaf `a`, and another leaf `a` inside. -/
def sampleLeaves (key : String) : Object :=
  ⟨[(key, .object ⟨[("a", .string "x")]⟩), ("a", .string "y")]⟩

theorem made_sampleLeaves {key : String} (plain : '.' ∉ key.toList) (other : key ≠ "a") :
    (Value.object (sampleLeaves key)).Made := by
  have inner : (Value.object ⟨[("a", .string "x")]⟩).Made := by
    refine .of_entries (by decide) (by decide) fun e he => ?_
    obtain rfl := List.mem_singleton.mp he
    exact .leaf rfl
  refine .of_entries (by simpa using other) (by simpa using plain) fun e he => ?_
  simp only [List.mem_cons, List.not_mem_nil, or_false] at he
  rcases he with rfl | rfl
  · exact inner
  · exact .leaf rfl

theorem flatLossless_sampleLeaves :
    (Value.object (sampleLeaves "b")).Made ∧ (sampleLeaves "b").FlatLossless := by
  have made : (Value.object (sampleLeaves "b")).Made := made_sampleLeaves (by decide) (by decide)
  refine ⟨made, (flatLossless_iff made).mpr fun inner found => ?_⟩
  have absent : (sampleLeaves "b").find? "" = none := by decide
  rw [absent] at found
  cases found

/-- Below the empty key a leaf has the path of the one beside it, and is lost. -/
theorem not_flatLossless_sampleLeaves :
    (Value.object (sampleLeaves "")).Made ∧ ¬ (sampleLeaves "").FlatLossless ∧
      (sampleLeaves "").tips = [(["", "a"], .string "x"), (["a"], .string "y")] ∧
      (sampleLeaves "").flatten.entries = [("a", .string "y")] := by
  have made : (Value.object (sampleLeaves "")).Made := made_sampleLeaves (by decide) (by decide)
  refine ⟨made, fun lossless => ?_, rfl, rfl⟩
  have count : 1 = 2 := lossless.count
  cases count

/-! ### Flat views of objects with names for keys -/

theorem flatKey_of_leafNames (named : (Value.object o).Keyed IsLeafName) {keys : List String}
    {v : Value} (tip : (keys, v) ∈ o.tips) : flatKey keys = ".".intercalate keys := by
  obtain ⟨first, rest, -, rfl, -⟩ := (o.mem_tips_iff _ _).mp tip
  exact flatKey_of_named (named.tips_named tip first List.mem_cons_self).1 rest

theorem flatLossless_of_leafNames (named : (Value.object o).Keyed IsLeafName) : o.FlatLossless :=
  flatLossless_of_flatKey (named.imp fun _ => IsLeafName.dotFree) fun _ _ =>
    flatKey_of_leafNames named

theorem mem_flatten_iff_mem_tips (named : (Value.object o).Keyed IsLeafName) (path : String)
    (v : Value) : (path, v) ∈ o.flatten.entries ↔ (pathOf path, v) ∈ o.tips := by
  rw [← SortedMap.find?_eq_some_iff]
  constructor
  · intro found
    obtain ⟨⟨keys, _⟩, tip, same, rfl⟩ := tip_of_flatten found
    have plain := fun key hk => IsLeafName.dotFree (named.tips_named tip key hk)
    have back := pathOf_intercalate (keys_ne_nil tip) plain
    rw [← flatKey_of_leafNames named tip, same] at back
    exact back ▸ tip
  · intro tip
    have found := (flatLossless_of_leafNames named).found _ v tip
    rw [intercalate_pathOf] at found
    exact found

theorem no_array_above_iff (plain : (Value.object o).DotFree) (path : String) :
    (∀ above, IsAbove above path → ∀ items, o.get above ≠ .ok (some (.array items))) ↔
      (Value.object o).NoArrayBefore (pathOf path) := by
  have walks : (∀ above, IsAbove above path → ∀ w, o.get above = .ok (some w) →
      ∀ items, w ≠ .array items) ↔ _ := forall_above_iff plain
  constructor
  · intro none way next more split items found
    cases way with
    | nil => cases found
    | cons segment way =>
      refine walks.mp (fun above ha w read items same => ?_) segment way next more split _ found
        items rfl
      exact none above ha items (same ▸ read)
  · intro none above ha items read
    refine walks.mpr (fun segment way next more split w found items same => ?_) above ha _ read
      items rfl
    exact none (segment :: way) next more split items (same ▸ found)

/-- What is in the flat view of an object all of whose keys are leaf names: the values that are no
objects, by the paths at which they are found, unless an array is above. -/
theorem mem_flatten_iff (named : (Value.object o).Keyed IsLeafName)
    (plain : (Value.object o).DotFree) (path : String) (v : Value) :
    (path, v) ∈ o.flatten.entries ↔ v.isObject = false ∧ o.get path = .ok (some v) ∧
      ∀ above, IsAbove above path → ∀ items, o.get above ≠ .ok (some (.array items)) := by
  have tip : (pathOf path, v) ∈ o.tips ↔ _ := named.mem_tips_iff (pathOf path)
  rw [mem_flatten_iff_mem_tips named, tip, get_eq_ok_some_iff plain, no_array_above_iff plain]

end Object

end Intake
