import Intake.Schema
import Mathlib.Data.List.Nodup

/-!
# Schemas by level

Schemas are embedded in schemas, to any depth. This module has induction over the
levels, properties that hold at every level, and what the making of a schema
guarantees: at every level no two fields share a name or a qualified name.
-/

namespace Intake

def Element.of (kind : Kind) : Element := ⟨kind, [], List.nodup_nil⟩

theorem qualified_none : ∀ q ∈ (none : Option String), IsQualifiedName q := by simp

theorem qualified_some {q : String} (ok : IsQualifiedName q) : ∀ r ∈ some q, IsQualifiedName r := by
  simpa using ok

theorem bind_eq_ok {ε α β : Type} {x : Except ε α} {f : α → Except ε β} {b : β}
    (h : x >>= f = .ok b) : ∃ a, x = .ok a ∧ f a = .ok b := by
  cases x with
  | error e => cases h
  | ok a => exact ⟨a, rfl, h⟩

namespace Schema

/-- Induction over the levels: a schema may rest on all that its fields embed. -/
@[elab_as_elim]
theorem level_induction {motive : Schema → Prop}
    (level : ∀ s : Schema, (∀ f ∈ s.fields, ∀ t ∈ f.schema?, motive t) → motive s) (s : Schema) :
    motive s :=
  @Schema.rec
    (fun shape => ∀ t, shape = .object t ∨ shape = .objects t → motive t)
    (fun f => ∀ t ∈ f.schema?, motive t)
    motive
    (fun fields => ∀ f ∈ fields, ∀ t ∈ f.schema?, motive t)
    (fun _ => by simp) (fun _ => by simp) (fun _ h => by simpa using h) (fun _ h => by simpa using h)
    (fun _ _ _ shape _ _ h t ht => by
      cases shape <;> simp only [Field.schema?, Option.mem_def, Option.some.injEq, reduceCtorEq] at ht
      all_goals subst ht; exact h _ (by simp))
    (fun _ _ h => level _ h)
    (fun _ hf => absurd hf List.not_mem_nil)
    (fun _ _ hf hrest _ hm => (List.mem_cons.mp hm).elim (fun e => e ▸ hf) (hrest _))
    s

/-- A property of a schema and of every schema embedded in it. -/
inductive Everywhere (P : Schema → Prop) : Schema → Prop where
  | intro {s : Schema} (here : P s)
      (within : ∀ f ∈ s.fields, ∀ t ∈ f.schema?, Everywhere P t) : Everywhere P s

theorem Everywhere.here {P : Schema → Prop} {s : Schema} : s.Everywhere P → P s
  | .intro here _ => here

theorem Everywhere.within {P : Schema → Prop} {s t : Schema} {f : Field} :
    s.Everywhere P → f ∈ s.fields → t ∈ f.schema? → t.Everywhere P
  | .intro _ within, hf, ht => within f hf t ht

theorem Everywhere.imp {P Q : Schema → Prop} (imp : ∀ s, P s → Q s) {s : Schema}
    (all : s.Everywhere P) : s.Everywhere Q := by
  induction all with
  | intro here _ ih => exact .intro (imp _ here) ih

/-- No two fields share a name, and no two share a qualified name. -/
def NamesDistinct (s : Schema) : Prop :=
  (s.fields.map Field.name).Nodup ∧ (s.fields.filterMap Field.qualified?).Nodup

/-- Only keys of fields are let through. -/
def IsStrict (s : Schema) : Prop := s.permissive = false

/-- Every value is stored under the name of its field. -/
def IsPlain (s : Schema) : Prop := ∀ f ∈ s.fields, f.qualified? = none

/-! ### What the making of a schema guarantees -/

theorem firstClash_eq_none_iff (fields : List Field) (names qualified : List String) :
    firstClash names qualified fields = none ↔
      ((fields.map Field.name).Nodup ∧ ∀ f ∈ fields, f.name ∉ names) ∧
      ((fields.filterMap Field.qualified?).Nodup ∧
        ∀ q ∈ fields.filterMap Field.qualified?, q ∉ qualified) := by
  induction fields generalizing names qualified with
  | nil => simp [firstClash]
  | cons f rest ih =>
    rw [firstClash]
    by_cases hn : f.name ∈ names
    · simp [hn]
    rw [if_neg hn]
    cases hq : f.qualified? with
    | none =>
      simp only [ih, List.map_cons, List.nodup_cons, List.mem_cons, forall_eq_or_imp,
        List.filterMap_cons_none hq, List.mem_map, not_exists, not_and, not_or]
      grind
    | some q =>
      by_cases hm : q ∈ qualified
      · simp [hm, hq]
      simp only [if_neg hm, ih, List.map_cons, List.nodup_cons, List.mem_cons, forall_eq_or_imp,
        List.filterMap_cons_some hq, List.mem_map, not_exists, not_and, not_or]
      grind

theorem define_eq_ok_iff (fields : List Field) (s : Schema) :
    define fields = .ok s ↔ s = ⟨fields, false⟩ ∧ s.NamesDistinct := by
  have clash := firstClash_eq_none_iff fields [] []
  simp only [List.not_mem_nil, not_false_eq_true, implies_true, and_true] at clash
  rw [define]
  split
  · next h =>
    simp only [Except.ok.injEq]
    exact ⟨fun e => ⟨e.symm, e ▸ clash.mp h⟩, fun e => e.1.symm⟩
  · next e h =>
    simp only [reduceCtorEq, false_iff, not_and]
    rintro rfl distinct
    exact absurd (clash.mpr distinct) (by simp [h])

theorem extend_eq_ok_iff (s t u : Schema) :
    s.extend t = .ok u ↔
      u = ⟨s.fields ++ t.fields, s.permissive || t.permissive⟩ ∧ u.NamesDistinct := by
  have defined := define_eq_ok_iff (s.fields ++ t.fields) ⟨s.fields ++ t.fields, false⟩
  rw [define] at defined
  rw [extend]
  split at defined
  · next h =>
    simp only [true_and, true_iff] at defined
    simp only [Except.ok.injEq]
    exact ⟨fun e => ⟨e.symm, e ▸ defined⟩, fun e => e.1.symm⟩
  · next e h =>
    simp only [reduceCtorEq, true_and, false_iff] at defined ⊢
    rintro ⟨rfl, distinct⟩
    exact defined distinct

/-- The schemas that can be made. What their fields embed was made before. -/
inductive Built : Schema → Prop where
  | define {fields : List Field} {s : Schema}
      (within : ∀ f ∈ fields, ∀ t ∈ f.schema?, Built t) (defined : define fields = .ok s) : Built s
  | allowUnknown {s : Schema} (built : Built s) : Built s.allowUnknown
  | extend {s t u : Schema} (left : Built s) (right : Built t) (extended : s.extend t = .ok u) :
      Built u

/-- The schemas that can be made are those with distinct names at every level. -/
theorem built_iff (s : Schema) : s.Built ↔ s.Everywhere NamesDistinct := by
  constructor
  · intro h
    induction h with
    | define _ defined ih =>
      obtain ⟨rfl, distinct⟩ := (define_eq_ok_iff _ _).mp defined
      exact .intro distinct ih
    | allowUnknown _ ih => exact .intro ih.here fun f hf t ht => ih.within hf ht
    | extend _ _ extended ihs iht =>
      obtain ⟨rfl, distinct⟩ := (extend_eq_ok_iff _ _ _).mp extended
      refine .intro distinct fun f hf t ht => ?_
      rcases List.mem_append.mp hf with hf | hf
      · exact ihs.within hf ht
      · exact iht.within hf ht
  · intro h
    induction h with
    | @intro s here _ ih =>
      obtain ⟨fields, permissive⟩ := s
      have strict : Built ⟨fields, false⟩ := .define ih ((define_eq_ok_iff _ _).mpr ⟨rfl, here⟩)
      cases permissive with
      | false => exact strict
      | true => exact strict.allowUnknown

theorem Built.distinct {s : Schema} (h : s.Built) : s.NamesDistinct := ((built_iff s).mp h).here

theorem Built.within {s t : Schema} {f : Field} (h : s.Built) (hf : f ∈ s.fields)
    (ht : t ∈ f.schema?) : t.Built :=
  (built_iff t).mpr (((built_iff s).mp h).within hf ht)

/-! ### Looking up a field -/

theorem declares_iff (s : Schema) (key : String) :
    s.declares key = true ↔ ∃ f ∈ s.fields, f.name = key := by
  simp [declares, field?, List.find?_isSome]

theorem field?_eq_some_iff {s : Schema} (h : s.NamesDistinct) (key : String) (f : Field) :
    s.field? key = some f ↔ f ∈ s.fields ∧ f.name = key := by
  constructor
  · intro found
    exact ⟨List.mem_of_find?_eq_some found, by simpa using List.find?_some found⟩
  · rintro ⟨hf, rfl⟩
    obtain ⟨g, hg⟩ := Option.isSome_iff_exists.mp ((declares_iff s f.name).mpr ⟨f, hf, rfl⟩)
    have same : g.name = f.name := by simpa using List.find?_some hg
    rw [hg, List.inj_on_of_nodup_map h.1 (List.mem_of_find?_eq_some hg) hf same]

theorem field?_eq_none_iff (s : Schema) (key : String) :
    s.field? key = none ↔ ∀ f ∈ s.fields, f.name ≠ key := by
  simp [field?]

end Schema

end Intake
