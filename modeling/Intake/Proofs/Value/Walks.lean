import Intake.Proofs.Entries
import Intake.Schema.Name
import Intake.Value.Path

/-!
# Walks through values

The walk along the segments of a path, one by one. An entry whose key is a whole
path can be found only where keys have dots; where none has, the value at a path is
what the walk leads to. What a value put under a dotted name changes is told walk by
walk.
-/

namespace Intake

/-! ### Names without dots -/

theorem IsLeafName.dotFree {name : String} (h : IsLeafName name) : '.' ∉ name.toList :=
  fun hm => absurd (h.2 '.' hm) (by decide)

theorem segments_of_dotFree {name : String} (h : '.' ∉ name.toList) :
    Text.segments name = (name, []) := Text.segments_joinDots name [] h (by simp)

namespace Object

theorem get_of_dotFree (o : Object) {name : String} (h : '.' ∉ name.toList) :
    o.get name = .ok (o.find? name) := by
  rw [get, segments_of_dotFree h]
  rfl

theorem putAt_of_dotFree (o : Object) {name : String} (h : '.' ∉ name.toList) (value : Value) :
    o.putAt name value = o.put name value := by
  rw [putAt, segments_of_dotFree h]
  rfl

theorem foldl_putAt_of_dotFree {items : List (String × Value)} (o : Object)
    (plain : ∀ name ∈ items.map Prod.fst, '.' ∉ name.toList)
    (distinct : (o.keys ++ items.map Prod.fst).Nodup) :
    (items.foldl (fun o item => o.putAt item.1 item.2) o).entries = o.entries ++ items := by
  induction items generalizing o with
  | nil => simp
  | cons item items ih =>
    rw [List.map_cons] at plain distinct
    have fresh : item.1 ∉ o.keys := by
      intro hm
      exact (List.nodup_append.mp distinct).2.2 _ hm _ List.mem_cons_self rfl
    have put : o.putAt item.1 item.2 = ⟨o.entries ++ [item]⟩ := by
      rw [putAt_of_dotFree o (plain _ List.mem_cons_self)]
      exact congrArg Object.mk (Entries.put_of_not_mem fresh item.2)
    rw [List.foldl_cons, put, ih]
    · simp
    · exact fun name hm => plain name (List.mem_cons_of_mem _ hm)
    · simpa [keys] using distinct

end Object

/-! ### Values whose keys have no dots -/

inductive Value.DotFree : Value → Prop where
  | scalar {kind : Kind} {a : kind.Carrier} : DotFree (.scalar kind a)
  | array {items : List Value} (each : ∀ v ∈ items, DotFree v) : DotFree (.array items)
  | object {o : Object} (plain : ∀ key ∈ o.keys, '.' ∉ key.toList)
      (each : ∀ e ∈ o.entries, DotFree e.2) : DotFree (.object o)

/-! ### Segments of paths -/

def pathOf (name : String) : List String := (Text.segments name).1 :: (Text.segments name).2

theorem pathOf_eq_map (name : String) :
    pathOf name = (Text.allPieces '.' name.toList).map String.ofList := rfl

theorem pathOf_of_dotFree {name : String} (h : '.' ∉ name.toList) : pathOf name = [name] := by
  rw [pathOf, segments_of_dotFree h]

theorem pathOf_joinDots {first : String} {rest : List String}
    (plain : ∀ key ∈ first :: rest, '.' ∉ key.toList) :
    pathOf (Text.joinDots first rest) = first :: rest := by
  obtain ⟨here, later⟩ := List.forall_mem_cons.mp plain
  rw [pathOf, Text.segments_joinDots first rest here later]

theorem pathOf_injective : Function.Injective pathOf := by
  intro name other same
  obtain ⟨first, rest⟩ := List.cons.inj same
  rw [← Text.joinDots_segments name, first, rest, Text.joinDots_segments]

theorem pathOf_append (path more : String) :
    pathOf (path ++ "." ++ more) = pathOf path ++ pathOf more := by
  have chars : (path ++ "." ++ more).toList = path.toList ++ '.' :: more.toList := by simp
  simp only [pathOf_eq_map, chars, Text.allPieces_append, List.map_append]

theorem dotFree_of_mem_pathOf {name key : String} (h : key ∈ pathOf name) : '.' ∉ key.toList := by
  rw [pathOf_eq_map] at h
  obtain ⟨piece, hp, rfl⟩ := List.mem_map.mp h
  rw [String.toList_ofList]
  exact Text.not_mem_pieces '.' _ piece hp

/-- A path is above another if its segments are the first of the segments of the other. -/
def IsAbove (path name : String) : Prop := pathOf path <+: pathOf name ∧ path ≠ name

theorem isAbove_iff (path name : String) :
    IsAbove path name ↔ ∃ next more, pathOf name = pathOf path ++ next :: more := by
  constructor
  · rintro ⟨⟨more, split⟩, other⟩
    cases more with
    | nil => exact absurd (pathOf_injective ((List.append_nil _).symm.trans split)) other
    | cons next more => exact ⟨next, more, split.symm⟩
  · rintro ⟨next, more, split⟩
    refine ⟨split ▸ List.prefix_append _ _, ?_⟩
    rintro rfl
    simp at split

theorem not_isAbove_of_dotFree {path name : String} (h : '.' ∉ name.toList) :
    ¬ IsAbove path name := by
  rw [isAbove_iff, pathOf_of_dotFree h, pathOf]
  simp

theorem IsAbove.eq_or_isAbove {path name last : String} (h : IsAbove path (name ++ "." ++ last))
    (dotFree : '.' ∉ last.toList) : path = name ∨ IsAbove path name := by
  obtain ⟨above, other⟩ := h
  rw [pathOf_append, pathOf_of_dotFree dotFree, List.prefix_concat_iff] at above
  rcases above with whole | above
  · rw [← pathOf_of_dotFree dotFree, ← pathOf_append] at whole
    exact absurd (pathOf_injective whole) other
  · exact (em (path = name)).imp_right fun other => ⟨above, other⟩

/-! ### What segments lead to -/

namespace Value

def follow (v : Value) : List String → Option Value
  | [] => some v
  | segment :: rest =>
    match v.child segment with
    | .ok (some w) => w.follow rest
    | _ => none

theorem follow_object (o : Object) (segment : String) (rest : List String) :
    (Value.object o).follow (segment :: rest) = (o.find? segment).bind (·.follow rest) := by
  rw [follow, child]
  cases o.find? segment <;> rfl

theorem DotFree.child {v w : Value} {segment : String} (h : v.DotFree)
    (found : v.child segment = .ok (some w)) : w.DotFree := by
  unfold Value.child at found
  cases h with
  | scalar => cases found
  | array each =>
    dsimp only at found
    split at found
    · cases found
    · split at found
      · cases found
      · next hv =>
        obtain rfl := Option.some.inj (Except.ok.inj found)
        exact each _ (List.mem_of_getElem? hv)
  | object _ each => exact each _ (Entries.mem_of_lookup (Except.ok.inj found))

theorem DotFree.verbatim {v : Value} {path : String} (h : v.DotFree) (dotted : '.' ∈ path.toList) :
    v.verbatim? path = none := by
  cases h with
  | scalar => rfl
  | array => rfl
  | object plain _ =>
    apply (Entries.lookup_eq_none_iff _ _).mpr
    intro hm
    exact plain path hm dotted

theorem walk_eq_ok_some_iff {v : Value} (h : v.DotFree) (first : String) (rest : List String)
    (x : Value) : v.walk first rest = .ok (some x) ↔ v.follow (first :: rest) = some x := by
  induction rest generalizing v first with
  | nil =>
    rw [walk, follow]
    cases v.child first with
    | error fault => simp
    | ok found => cases found <;> simp [follow]
  | cons next rest ih =>
    have dotted : '.' ∈ (Text.joinDots first (next :: rest)).toList := by simp [Text.joinDots]
    rw [walk, follow, h.verbatim dotted]
    cases child : v.child first with
    | error fault => simp
    | ok found =>
      cases found with
      | none => simp
      | some w => exact ih (h.child child) next

end Value

theorem Object.get_eq_walk (o : Object) (path : String) :
    o.get path =
      ((Value.object o).walk (Text.segments path).1 (Text.segments path).2).mapError
        (.badPath · path) := rfl

theorem Object.get_eq_ok_some_iff {o : Object} (h : (Value.object o).DotFree) (path : String)
    (x : Value) : o.get path = .ok (some x) ↔ (Value.object o).follow (pathOf path) = some x := by
  rw [pathOf, ← Value.walk_eq_ok_some_iff h, get_eq_walk]
  cases (Value.object o).walk (Text.segments path).1 (Text.segments path).2 with
  | error fault => simp [Except.mapError]
  | ok found => simp [Except.mapError]

/-- What is above a name is what the first segments of the name lead to. -/
theorem Object.forall_above_iff {o : Object} (h : (Value.object o).DotFree) {name : String}
    {P : Value → Prop} :
    (∀ path, IsAbove path name → ∀ v, o.get path = .ok (some v) → P v) ↔
      ∀ segment way next more, pathOf name = segment :: way ++ next :: more →
        ∀ v, (Value.object o).follow (segment :: way) = some v → P v := by
  constructor
  · intro all segment way next more split v found
    have plain : ∀ key ∈ segment :: way, '.' ∉ key.toList :=
      fun key hk => dotFree_of_mem_pathOf (split ▸ List.mem_append_left _ hk)
    have path := pathOf_joinDots plain
    apply all (Text.joinDots segment way)
    · rw [isAbove_iff, path]
      exact ⟨next, more, split⟩
    · rw [get_eq_ok_some_iff h, path]
      exact found
  · intro all path above v found
    obtain ⟨next, more, split⟩ := (isAbove_iff _ _).mp above
    rw [get_eq_ok_some_iff h] at found
    exact all _ _ next more split v found

/-! ### Values under dotted names -/

namespace Object

/-- The object in an entry, if it holds one, else a new one. -/
def inner (o : Object) (key : String) : Object :=
  match o.find? key with
  | some (.object inner) => inner
  | _ => empty

theorem inner_of_object {o inner : Object} {key : String}
    (found : o.find? key = some (.object inner)) : o.inner key = inner := by
  rw [Object.inner, found]

theorem putNested_cons (o : Object) (first next : String) (rest : List String) (value : Value) :
    o.putNested first (next :: rest) value =
      o.put first (.object ((o.inner first).putNested next rest value)) := by
  rw [putNested]
  rfl

theorem mem_keys_putNested {o : Object} {first key : String} {rest : List String} {value : Value}
    (h : key ∈ (o.putNested first rest value).keys) : key = first ∨ key ∈ o.keys := by
  have put : ∀ v, key ∈ (o.put first v).keys → key = first ∨ key ∈ o.keys := by
    intro v hk
    rw [keys_put] at hk
    split at hk
    · exact .inr hk
    · rcases List.mem_append.mp hk with hk | hk
      · exact .inr hk
      · exact .inl (List.mem_singleton.mp hk)
  cases rest with
  | nil => exact put value h
  | cons next rest => exact put _ (putNested_cons o first next rest value ▸ h)

theorem find?_putNested_other (o : Object) {first key : String} (other : first ≠ key)
    (rest : List String) (value : Value) :
    (o.putNested first rest value).find? key = o.find? key := by
  cases rest with
  | nil => rw [putNested, find?_put, if_neg other]
  | cons next rest => rw [putNested_cons, find?_put, if_neg other]

theorem find?_putNested_nil (o : Object) (first : String) (value : Value) :
    (o.putNested first [] value).find? first = some value := by
  rw [putNested, find?_put, if_pos rfl]

theorem find?_putNested_cons (o : Object) (first next : String) (rest : List String)
    (value : Value) :
    (o.putNested first (next :: rest) value).find? first =
      some (.object ((o.inner first).putNested next rest value)) := by
  rw [putNested_cons, find?_put, if_pos rfl]

theorem find?_putNested_congr {o o' : Object} {first : String}
    (same : o.find? first = o'.find? first) (rest : List String) (value : Value) :
    (o.putNested first rest value).find? first = (o'.putNested first rest value).find? first := by
  have inners : o.inner first = o'.inner first := by rw [inner, inner, same]
  cases rest with
  | nil => rw [find?_putNested_nil, find?_putNested_nil]
  | cons next rest => rw [find?_putNested_cons, find?_putNested_cons, inners]

/-- A value that is put again changes nothing. -/
theorem putNested_putNested (o : Object) (first : String) (rest : List String) (value : Value) :
    (o.putNested first rest value).putNested first rest value = o.putNested first rest value := by
  induction rest generalizing o first with
  | nil => exact congrArg Object.mk (Entries.put_put _ _ _ _)
  | cons next rest ih =>
    have stored := inner_of_object (o.find?_putNested_cons first next rest value)
    rw [putNested_cons, stored, ih, putNested_cons]
    exact congrArg Object.mk (Entries.put_put _ _ _ _)

/-- What is put is where its path leads, and what is inside it is there too. -/
theorem follow_putNested_append (o : Object) (first : String) (rest : List String) (value : Value)
    (path : List String) :
    (Value.object (o.putNested first rest value)).follow (first :: rest ++ path) =
      value.follow path := by
  induction rest generalizing o first with
  | nil =>
    rw [List.cons_append, Value.follow_object, find?_putNested_nil]
    rfl
  | cons next rest ih =>
    rw [List.cons_append, Value.follow_object, find?_putNested_cons]
    exact ih _ next

/-- What leads to a value that is put are objects. -/
theorem isObject_of_follow_putNested {o : Object} {first : String} {rest path more : List String}
    {value y : Value} {next : String} (way : first :: rest = path ++ next :: more)
    (found : (Value.object (o.putNested first rest value)).follow path = some y) :
    y.isObject = true := by
  induction path generalizing o first rest with
  | nil =>
    obtain rfl := Option.some.inj found
    rfl
  | cons segment path ih =>
    obtain ⟨rfl, tails⟩ := List.cons.inj way
    cases rest with
    | nil => exact absurd tails (by simp)
    | cons second rest =>
      rw [Value.follow_object, find?_putNested_cons] at found
      exact ih tails found

/-- A value that is no object was there before, or came with what is put. -/
theorem follow_putNested_of_not_object {o : Object} {first : String} {rest path : List String}
    {value y : Value} (plain : y.isObject = false)
    (found : (Value.object (o.putNested first rest value)).follow path = some y) :
    (Value.object o).follow path = some y ∨
      ∃ more, path = first :: rest ++ more ∧ value.follow more = some y := by
  induction path generalizing o first rest with
  | nil =>
    obtain rfl := Option.some.inj found
    cases plain
  | cons segment path ih =>
    by_cases same : first = segment
    · subst same
      cases rest with
      | nil =>
        rw [Value.follow_object, find?_putNested_nil] at found
        exact .inr ⟨path, rfl, found⟩
      | cons next rest =>
        rw [Value.follow_object, find?_putNested_cons] at found
        rcases ih found with before | ⟨more, rfl, came⟩
        · refine .inl ?_
          rw [Value.follow_object]
          unfold inner at before
          split at before
          · next held =>
            rw [held]
            exact before
          · -- The inner object is new here, so nothing but objects was there before.
            cases path with
            | nil =>
              obtain rfl := Option.some.inj before
              cases plain
            | cons _ _ => cases before
        · exact .inr ⟨more, rfl, came⟩
    · rw [Value.follow_object, find?_putNested_other o same, ← Value.follow_object] at found
      exact .inl found

end Object

/-! ### Paths that are clear -/

namespace Object

variable {o : Object} {first next : String} {rest : List String}

/-- Only objects lead to a path. -/
def Clear (o : Object) (path : List String) : Prop :=
  ∀ way next more v, path = way ++ next :: more →
    (Value.object o).follow way = some v → v.isObject = true

theorem Clear.isObject (clear : o.Clear (first :: next :: rest)) :
    ∀ v, o.find? first = some v → v.isObject = true := by
  intro v found
  refine clear [first] next rest v rfl ?_
  rw [Value.follow_object, found]
  rfl

theorem Clear.inner (clear : o.Clear (first :: next :: rest)) :
    (o.inner first).Clear (next :: rest) := by
  intro way second last v split found
  cases entry : o.find? first with
  | none =>
    have new : o.inner first = empty := by rw [Object.inner, entry]
    rw [new] at found
    cases way with
    | nil =>
      obtain rfl := Option.some.inj found
      rfl
    | cons _ _ => cases found
  | some w =>
    have isObject := clear.isObject w entry
    cases w with
    | scalar => cases isObject
    | array => cases isObject
    | object held =>
      rw [inner_of_object entry] at found
      refine clear (first :: way) second last v (by rw [split]; rfl) ?_
      rw [Value.follow_object, entry]
      exact found

/-- A path is clear if what is found above it are objects. -/
theorem clear_of_above (plain : (Value.object o).DotFree) {name : String}
    (objects : ∀ path, IsAbove path name →
      ∀ v, o.get path = .ok (some v) → v.isObject = true) :
    o.Clear (pathOf name) := by
  intro way next last v split found
  cases way with
  | nil =>
    obtain rfl := Option.some.inj found
    rfl
  | cons segment way =>
    exact (forall_above_iff plain).mp objects segment way next last split v found

end Object

/-! ### Keys without dots, kept -/

theorem Value.DotFree.put {o : Object} {key : String} {value : Value} (h : (Value.object o).DotFree)
    (plain : '.' ∉ key.toList) (hv : value.DotFree) : (Value.object (o.put key value)).DotFree := by
  cases h with
  | object keys each =>
    refine .object ?_ ?_
    · intro k hk
      rw [Object.keys_put] at hk
      split at hk
      · exact keys k hk
      · rcases List.mem_append.mp hk with hk | hk
        · exact keys k hk
        · exact List.mem_singleton.mp hk ▸ plain
    · intro e he
      rcases Entries.mem_put he with rfl | he
      · exact hv
      · exact each e he

theorem Value.DotFree.keys {o : Object} (h : (Value.object o).DotFree) :
    ∀ key ∈ o.keys, '.' ∉ key.toList := by
  cases h with
  | object plain _ => exact plain

theorem Value.DotFree.inner {o : Object} (h : (Value.object o).DotFree) (key : String) :
    (Value.object (o.inner key)).DotFree := by
  unfold Object.inner
  split
  · next found =>
    cases h with
    | object _ each => exact each _ (Entries.mem_of_lookup found)
  · exact .object (by simp [Object.empty, Object.keys]) (by simp [Object.empty])

theorem Value.DotFree.putNested {o : Object} {first : String} {rest : List String} {value : Value}
    (h : (Value.object o).DotFree) (plain : ∀ key ∈ first :: rest, '.' ∉ key.toList)
    (hv : value.DotFree) : (Value.object (o.putNested first rest value)).DotFree := by
  induction rest generalizing o first with
  | nil => exact h.put (plain first List.mem_cons_self) hv
  | cons next rest ih =>
    rw [Object.putNested_cons]
    refine h.put (plain first List.mem_cons_self) (ih (h.inner first) ?_)
    exact fun key hk => plain key (List.mem_cons_of_mem first hk)

end Intake
