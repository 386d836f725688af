import Intake.Proofs.Value.Flattened

/-!
# What a stored value leaves as it was

A value that is put under a dotted name is read back under it. Where nothing but objects is above
the name, every path that is apart from it has the outcome it had before.
-/

namespace Intake.Object

variable {o : Object} {first next other : String} {rest more : List String}

/-! ### Walks through objects -/

theorem walk_of_plain (plain : ∀ key ∈ o.keys, '.' ∉ key.toList) (first next : String)
    (rest : List String) :
    (Value.object o).walk first (next :: rest) =
      match o.find? first with
      | none => .ok none
      | some w => w.walk next rest := by
  have dotted : '.' ∈ (Text.joinDots first (next :: rest)).toList := by simp [Text.joinDots]
  have whole : o.find? (Text.joinDots first (next :: rest)) = none :=
    find?_eq_none_of_not_mem fun hm => plain _ hm dotted
  have step := walk_cons o first next rest
  rw [whole] at step
  exact step

theorem walk_empty (first : String) (rest : List String) :
    (Value.object empty).walk first rest = .ok none := by
  cases rest <;> rfl

theorem walk_inner (objects : ∀ v, o.find? first = some v → v.isObject = true) (next : String)
    (more : List String) :
    (Value.object (o.inner first)).walk next more =
      match o.find? first with
      | none => .ok none
      | some w => w.walk next more := by
  cases found : o.find? first with
  | none =>
    have new : o.inner first = empty := by rw [inner, found]
    rw [new, walk_empty]
  | some v =>
    have isObject := objects v found
    cases v with
    | scalar => cases isObject
    | array => cases isObject
    | object held => rw [inner_of_object found]

/-! ### Stored values -/

theorem plain_keys_putNested (plain : ∀ key ∈ o.keys, '.' ∉ key.toList)
    (named : '.' ∉ first.toList) (rest : List String) (value : Value) :
    ∀ key ∈ (o.putNested first rest value).keys, '.' ∉ key.toList := by
  intro key hk
  rcases mem_keys_putNested hk with rfl | hk
  · exact named
  · exact plain key hk

theorem walk_putNested_self (plain : (Value.object o).DotFree)
    (named : ∀ key ∈ first :: rest, '.' ∉ key.toList) (value : Value) :
    (Value.object (o.putNested first rest value)).walk first rest = .ok (some value) := by
  induction rest generalizing o first with
  | nil => rw [walk_nil, find?_putNested_nil]
  | cons next rest ih =>
    obtain ⟨here, later⟩ := List.forall_mem_cons.mp named
    rw [walk_of_plain (plain_keys_putNested plain.keys here _ _), find?_putNested_cons]
    exact ih (plain.inner first) later

theorem walk_putNested_other (plain : (Value.object o).DotFree) (named : '.' ∉ first.toList)
    (parted : first ≠ other) (rest more : List String) (value : Value) :
    (Value.object (o.putNested first rest value)).walk other more =
      (Value.object o).walk other more := by
  cases more with
  | nil => rw [walk_nil, walk_nil, find?_putNested_other o parted]
  | cons next more =>
    rw [walk_of_plain (plain_keys_putNested plain.keys named _ _), walk_of_plain plain.keys,
      find?_putNested_other o parted]

theorem walk_putNested_of_apart (plain : (Value.object o).DotFree)
    (named : ∀ key ∈ first :: rest, '.' ∉ key.toList) (clear : o.Clear (first :: rest))
    (apart : ¬ other :: more <+: first :: rest) (apart' : ¬ first :: rest <+: other :: more)
    (value : Value) :
    (Value.object (o.putNested first rest value)).walk other more =
      (Value.object o).walk other more := by
  -- As far as the two paths agree, both go on in the same object; where they part, the walk meets
  -- an entry that is not touched.
  induction rest generalizing o first other more with
  | nil =>
    have parted : first ≠ other := fun same => apart' (same ▸ List.prefix_append [first] more)
    exact walk_putNested_other plain (named first List.mem_cons_self) parted [] more value
  | cons next rest ih =>
    obtain ⟨here, later⟩ := List.forall_mem_cons.mp named
    by_cases parted : first = other
    · subst parted
      cases more with
      | nil => exact absurd (List.prefix_append [first] (next :: rest)) apart
      | cons second more =>
        have inside := ih (plain.inner first) later clear.inner
          (fun pre => apart (List.cons_prefix_cons.mpr ⟨rfl, pre⟩))
          (fun pre => apart' (List.cons_prefix_cons.mpr ⟨rfl, pre⟩))
        rw [walk_of_plain (plain_keys_putNested plain.keys here _ _), find?_putNested_cons,
          walk_of_plain plain.keys, ← walk_inner clear.isObject]
        exact inside
    · exact walk_putNested_other plain here parted _ more value

/-- A value that is stored under a name is read back under it, and keys stay without dots if those
in the value have none. If nothing but objects was above the name, all paths come out as before that
neither lead into the name nor lie inside of it. -/
theorem putAt_frame (plain : (Value.object o).DotFree) (name : String) (value : Value) :
    (o.putAt name value).get name = .ok (some value) ∧
      ((∀ path, IsAbove path name → ∀ v, o.get path = .ok (some v) → v.isObject = true) →
        ∀ path, Apart path name → (o.putAt name value).get path = o.get path) ∧
      (value.DotFree → (Value.object (o.putAt name value)).DotFree) := by
  have named : ∀ key ∈ pathOf name, '.' ∉ key.toList := fun key hk => dotFree_of_mem_pathOf hk
  refine ⟨?_, ?_, plain.putNested named⟩
  · have read := walk_putNested_self plain named value
    rw [get_eq_walk, putAt, read]
    rfl
  · intro objects path apart
    have clear := clear_of_above plain objects
    have same := walk_putNested_of_apart plain named clear apart.1 apart.2 value
    rw [get_eq_walk, putAt, same]
    rfl

/-- An account without an address, and its only tag. -/
def sampleAccount : Object :=
  ⟨[("account", .object ⟨[("name", .string "Alice")]⟩), ("tags", .array [.string "new"])]⟩

theorem dotFree_sampleAccount : (Value.object sampleAccount).DotFree := by
  refine .object (by decide) fun e he => ?_
  simp only [sampleAccount, List.mem_cons, List.not_mem_nil, or_false] at he
  rcases he with rfl | rfl
  · refine .object (by decide) fun e he => ?_
    obtain rfl := List.mem_singleton.mp he
    exact .scalar
  · refine .array fun v hv => ?_
    obtain rfl := List.mem_singleton.mp hv
    exact .scalar

theorem objects_sampleAccount : ∀ path, IsAbove path "account.email" →
    ∀ v, sampleAccount.get path = .ok (some v) → v.isObject = true := by
  intro path above v found
  have within : IsAbove path ("account" ++ "." ++ "email") := above
  rcases within.eq_or_isAbove (by decide) with rfl | above
  · obtain rfl := Option.some.inj (Except.ok.inj found)
    rfl
  · exact absurd above (not_isAbove_of_dotFree (by decide))

theorem putAt_frame_sampleAccount :
    (Value.object sampleAccount).DotFree ∧
      let o := sampleAccount.putAt "account.email" (.string "a@b")
      o.get "account.email" = .ok (some (.string "a@b")) ∧
        o.get "account.name" = .ok (some (.string "Alice")) ∧
        o.get "tags.1" = .error (.badPath (.outOfBounds 1 1) "tags.1") ∧
        (Value.object o).DotFree := by
  have plain := dotFree_sampleAccount
  obtain ⟨stored, others, dotFree⟩ := putAt_frame plain "account.email" (.string "a@b")
  have unchanged := others objects_sampleAccount
  refine ⟨plain, stored, ?_, ?_, dotFree .scalar⟩
  · exact unchanged "account.name" ⟨by decide, by decide⟩
  · exact unchanged "tags.1" ⟨by decide, by decide⟩

end Intake.Object
