import Intake.Proofs.Value.Walks
import Mathlib.Data.List.Induction

/-!
# Values stored one after the other

When a value that is put under a dotted name leaves an earlier one in its place. All
values that are stored one after the other are kept exactly if each spares those
before it (`holds_storing_iff`), whatever else the object holds at the time.
-/

namespace Intake

namespace Value

/-- What is found keeps a value: it is the value or, for an object, has all its entries. -/
def KeptAs (v found : Value) : Prop :=
  match v with
  | .object o => ∃ o', found = .object o' ∧ ∀ key w, o.find? key = some w → o'.find? key = some w
  | v => found = v

/-- Whether a value `v` at a first path outlasts a value `w` that is put at a second. Where `w`
goes above `v` or in its place, `v` must be found in `w`; where it goes inside `v`, it must be an
object and none of its entries may change. At paths that part the values do not meet. -/
def Spares (v w : Value) : List String → List String → Prop
  | path, [] => ∃ x, w.follow path = some x ∧ v.KeptAs x
  | [], first :: rest => ∃ o, v = .object o ∧
      ∀ key x, o.find? key = some x → (o.putNested first rest w).find? key = some x
  | a :: path, b :: rest => a = b → Spares v w path rest

theorem KeptAs.refl (v : Value) : v.KeptAs v := by
  cases v with
  | scalar => rfl
  | array => rfl
  | object o => exact ⟨o, rfl, fun _ _ found => found⟩

theorem keptAs_object_iff (o : Object) (v : Value) :
    v.KeptAs (.object o) ↔
      ∃ o', v = .object o' ∧ ∀ key w, o'.find? key = some w → o.find? key = some w := by
  cases v with
  | scalar => simp [KeptAs]
  | array => simp [KeptAs]
  | object o' =>
    constructor
    · rintro ⟨_, same, kept⟩
      obtain rfl := Value.object.inj same
      exact ⟨o', rfl, kept⟩
    · rintro ⟨_, same, kept⟩
      obtain rfl := Value.object.inj same
      exact ⟨o, rfl, kept⟩

/-- The object has a value at a path that keeps the given one. -/
def HeldAt (v : Value) (o : Object) (path : List String) : Prop :=
  ∃ x, (Value.object o).follow path = some x ∧ v.KeptAs x

variable {v w : Value} {o : Object} {path rest : List String} {first : String}

/-- A value that is held after another was put has been spared, whatever was there before. -/
theorem HeldAt.spares (after : v.HeldAt (o.putNested first rest w) path) :
    v.Spares w path (first :: rest) := by
  induction path generalizing o first rest with
  | nil =>
    obtain ⟨x, found, kept⟩ := after
    obtain rfl := Option.some.inj found
    obtain ⟨o', rfl, entries⟩ := (keptAs_object_iff _ _).mp kept
    refine ⟨o', rfl, fun key x hx => ?_⟩
    by_cases same : first = key
    · subst same
      -- What the entry holds came from the put, so the put does not change it again.
      have stored : (o.putNested first rest w).find? first = o'.find? first :=
        (entries first x hx).trans hx.symm
      rw [← Object.find?_putNested_congr stored, Object.putNested_putNested]
      exact entries first x hx
    · rw [Object.find?_putNested_other o' same]
      exact hx
  | cons segment path ih =>
    intro same
    subst same
    obtain ⟨x, found, kept⟩ := after
    cases rest with
    | nil =>
      rw [follow_object, Object.find?_putNested_nil] at found
      rw [Spares]
      exact ⟨x, found, kept⟩
    | cons next rest =>
      rw [follow_object, Object.find?_putNested_cons] at found
      exact ih ⟨x, found, kept⟩

/-- A value that is held and spared is still held, where only objects lead to the place of the
other. -/
theorem HeldAt.putNested (before : v.HeldAt o path) (spared : v.Spares w path (first :: rest))
    (clear : o.Clear (first :: rest)) :
    v.HeldAt (o.putNested first rest w) path := by
  induction path generalizing o first rest with
  | nil =>
    obtain ⟨x, found, kept⟩ := before
    obtain rfl := Option.some.inj found
    obtain ⟨o', rfl, entries⟩ := (keptAs_object_iff _ _).mp kept
    obtain ⟨_, same, spared⟩ := spared
    obtain rfl := Value.object.inj same
    refine ⟨_, rfl, (keptAs_object_iff _ _).mpr ⟨o', rfl, fun key x hx => ?_⟩⟩
    by_cases same : first = key
    · subst same
      rw [Object.find?_putNested_congr ((entries first x hx).trans hx.symm)]
      exact spared first x hx
    · rw [Object.find?_putNested_other o same]
      exact entries key x hx
  | cons segment path ih =>
    obtain ⟨x, found, kept⟩ := before
    by_cases same : first = segment
    · subst same
      have spared : v.Spares w path rest := spared rfl
      cases rest with
      | nil =>
        rw [Spares] at spared
        obtain ⟨x, found, kept⟩ := spared
        exact ⟨x, by rw [follow_object, Object.find?_putNested_nil]; exact found, kept⟩
      | cons next rest =>
        rw [follow_object] at found
        obtain ⟨y, entry, found⟩ := Option.bind_eq_some_iff.mp found
        have objects := clear.isObject y entry
        cases y with
        | scalar => cases objects
        | array => cases objects
        | object inner =>
          have inners := Object.inner_of_object entry
          obtain ⟨x, found, kept⟩ := ih ⟨x, found, kept⟩ spared (inners ▸ clear.inner)
          refine ⟨x, ?_, kept⟩
          rw [follow_object, Object.find?_putNested_cons, inners]
          exact found
    · refine ⟨x, ?_, kept⟩
      rw [follow_object, Object.find?_putNested_other o same, ← follow_object]
      exact found

theorem heldAt_putNested_self (o : Object) (first : String) (rest : List String) (w : Value) :
    w.HeldAt (o.putNested first rest w) (first :: rest) := by
  have found := o.follow_putNested_append first rest w []
  rw [List.append_nil] at found
  exact ⟨w, found, .refl w⟩

/-- A value with something that is no object inside does not outlast what is put inside of that. -/
theorem not_spares_of_follow {y : Value} {start inside more : List String} {next : String}
    (found : v.follow inside = some y) (plain : y.isObject = false) :
    ¬ v.Spares w start (start ++ (inside ++ next :: more)) := by
  induction start with
  | nil =>
    rw [List.nil_append]
    intro spared
    cases inside with
    | nil =>
      obtain rfl := Option.some.inj found
      obtain ⟨o, rfl, -⟩ := spared
      cases plain
    | cons segment inside =>
      obtain ⟨o, rfl, spared⟩ := spared
      rw [follow_object] at found
      obtain ⟨x, entry, found⟩ := Option.bind_eq_some_iff.mp found
      have after : (Value.object (o.putNested segment (inside ++ next :: more) w)).follow
          (segment :: inside) = some y := by
        have stored : (o.putNested segment (inside ++ next :: more) w).find? segment = some x :=
          spared segment x entry
        rw [follow_object, stored]
        exact found
      have way : segment :: (inside ++ next :: more) = (segment :: inside) ++ next :: more := rfl
      have objects := Object.isObject_of_follow_putNested way after
      rw [plain] at objects
      cases objects
  | cons segment start ih => exact fun spared => ih (spared rfl)

end Value

/-! ### Items stored one after the other -/

namespace Object

/-- The object of some items, each put under its name after those before it. -/
def storing (items : List (String × Value)) : Object :=
  items.foldl (fun o item => o.putAt item.1 item.2) empty

/-- Under the name of an item there is its value or, for an object, one with all its entries. -/
def Holds (o : Object) (item : String × Value) : Prop :=
  ∃ x, o.get item.1 = .ok (some x) ∧ item.2.KeptAs x

def Spared (earlier later : String × Value) : Prop :=
  earlier.2.Spares later.2 (pathOf earlier.1) (pathOf later.1)

theorem holds_iff_heldAt {o : Object} (h : (Value.object o).DotFree) (item : String × Value) :
    o.Holds item ↔ item.2.HeldAt o (pathOf item.1) := by
  unfold Holds Value.HeldAt
  simp only [get_eq_ok_some_iff h]

theorem storing_concat (items : List (String × Value)) (item : String × Value) :
    storing (items ++ [item]) = (storing items).putAt item.1 item.2 := by
  rw [storing, List.foldl_append]
  rfl

theorem dotFree_storing {items : List (String × Value)} (h : ∀ item ∈ items, item.2.DotFree) :
    (Value.object (storing items)).DotFree := by
  induction items using List.reverseRecOn with
  | nil =>
    refine .object ?_ ?_
    · exact fun key hk => absurd hk List.not_mem_nil
    · exact fun e he => absurd he List.not_mem_nil
  | append_singleton items item ih =>
    rw [storing_concat]
    have before := ih fun other ho => h other (List.mem_append_left _ ho)
    exact before.putNested (fun key hk => dotFree_of_mem_pathOf hk) (h item (by simp))

theorem dotFree_keys_storing (items : List (String × Value)) :
    ∀ key ∈ (storing items).keys, '.' ∉ key.toList := by
  induction items using List.reverseRecOn with
  | nil => exact fun key hk => absurd hk List.not_mem_nil
  | append_singleton items item ih =>
    intro key hk
    rw [storing_concat] at hk
    rcases mem_keys_putNested hk with rfl | hk
    · exact dotFree_of_mem_pathOf List.mem_cons_self
    · exact ih key hk

/-- Whatever is in the object and is no object itself came with one of the items. -/
theorem came_with_item {items : List (String × Value)} {path : List String} {y : Value}
    (found : (Value.object (storing items)).follow path = some y) (plain : y.isObject = false) :
    ∃ item ∈ items, ∃ inside, path = pathOf item.1 ++ inside ∧ item.2.follow inside = some y := by
  induction items using List.reverseRecOn with
  | nil =>
    cases path with
    | nil =>
      obtain rfl := Option.some.inj found
      cases plain
    | cons => cases found
  | append_singleton items item ih =>
    rw [storing_concat] at found
    rcases follow_putNested_of_not_object plain found with before | ⟨inside, rfl, came⟩
    · obtain ⟨other, ho, came⟩ := ih before
      exact ⟨other, List.mem_append_left _ ho, came⟩
    · exact ⟨item, by simp, inside, rfl, came⟩

/-- Only objects lead to the place of an item that all items before it outlast. -/
theorem clear_of_spared {items : List (String × Value)} {item : String × Value}
    (spared : ∀ other ∈ items, Spared other item) : (storing items).Clear (pathOf item.1) := by
  intro way next more y split found
  by_contra plain
  rw [Bool.not_eq_true] at plain
  obtain ⟨other, ho, inside, rfl, came⟩ := came_with_item found plain
  have outlasts := spared other ho
  rw [Spared, split, List.append_assoc] at outlasts
  exact Value.not_spares_of_follow came plain outlasts

/-- All items that have been stored are held after each step exactly if each is spared by all
later ones. -/
theorem holds_storing_iff {items : List (String × Value)} (plain : ∀ item ∈ items, item.2.DotFree) :
    (∀ stored, stored <+: items → ∀ item ∈ stored, (storing stored).Holds item) ↔
      items.Pairwise Spared := by
  induction items using List.reverseRecOn with
  | nil =>
    constructor
    · intro _
      exact .nil
    · intro _ stored prefixed item hi
      rw [List.prefix_nil.mp prefixed] at hi
      exact absurd hi List.not_mem_nil
  | append_singleton items last ih =>
    have ih := ih fun item hi => plain item (List.mem_append_left _ hi)
    have dotFree := dotFree_storing plain
    have before := dotFree_storing fun item hi => plain item (List.mem_append_left [last] hi)
    have pairs : (items ++ [last]).Pairwise Spared ↔
        items.Pairwise Spared ∧ ∀ item ∈ items, Spared item last := by
      simp [List.pairwise_append]
    rw [pairs, ← ih]
    constructor
    · intro all
      refine ⟨fun stored prefixed => all stored (prefixed.trans (List.prefix_append _ _)), ?_⟩
      intro item hi
      have held := all _ List.prefix_rfl item (List.mem_append_left _ hi)
      rw [holds_iff_heldAt dotFree, storing_concat] at held
      exact held.spares
    · rintro ⟨held, spared⟩ stored prefixed
      rcases List.prefix_concat_iff.mp prefixed with rfl | prefixed
      · -- Only the last item goes in: the others are spared by it, it stands where it was put.
        intro item hi
        rw [holds_iff_heldAt dotFree, storing_concat]
        rcases List.mem_append.mp hi with hi | hi
        · have heldBefore := held items List.prefix_rfl item hi
          rw [holds_iff_heldAt before] at heldBefore
          exact heldBefore.putNested (spared item hi) (clear_of_spared spared)
        · obtain rfl := List.mem_singleton.mp hi
          exact Value.heldAt_putNested_self _ _ _ _
      · exact held stored prefixed

theorem spared_of_apart {earlier later : String × Value} (h : ¬ pathOf earlier.1 <+: pathOf later.1)
    (h' : ¬ pathOf later.1 <+: pathOf earlier.1) : Spared earlier later := by
  have part : ∀ p q : List String, ¬ p <+: q → ¬ q <+: p → earlier.2.Spares later.2 p q := by
    intro p q
    induction q generalizing p with
    | nil => exact fun _ h' => absurd List.nil_prefix h'
    | cons b q ih =>
      cases p with
      | nil => exact fun h => absurd List.nil_prefix h
      | cons a p =>
        intro h h' same
        subst same
        exact ih p (fun pre => h (List.cons_prefix_cons.mpr ⟨rfl, pre⟩))
          (fun pre => h' (List.cons_prefix_cons.mpr ⟨rfl, pre⟩))
  exact part _ _ h h'

end Object

end Intake
