import Intake.Proofs.Schema.Levels

/-!
# Schemas from fields and unions of schemas

Fields make a schema exactly if no two of them share a name and no two share a qualified name;
otherwise the first field that repeats an earlier one is refused. The union of two schemas is
made of the fields of both in order, and unions can be nested either way.
-/

namespace Intake.Schema

/-- The field repeats one of the earlier fields: its name, or else its qualified name. -/
inductive Repeats (earlier : List Field) (f : Field) : DefinitionError → Prop where
  | name (taken : ∃ g ∈ earlier, g.name = f.name) : Repeats earlier f (.duplicateField f.name)
  | qualified {q : String} (fresh : ∀ g ∈ earlier, g.name ≠ f.name) (own : f.qualified? = some q)
      (taken : ∃ g ∈ earlier, g.qualified? = some q) :
      Repeats earlier f (.duplicateQualifiedName q)

/-! ### The first field that is refused -/

section Clashes

variable {earlier : List Field} {f : Field} {e : DefinitionError}

theorem Repeats.reverse (repeats : Repeats earlier.reverse f e) : Repeats earlier f e := by
  cases repeats with
  | name taken => exact .name (by simpa using taken)
  | qualified fresh own taken => exact .qualified (by simpa using fresh) own (by simpa using taken)

/-- The scan stops at a field that repeats an earlier one, the names taken being those of the
earlier ones. -/
theorem firstClash_of_repeats (repeats : Repeats earlier f e) (rest : List Field) :
    firstClash (earlier.map Field.name) (earlier.filterMap Field.qualified?) (f :: rest) =
      some e := by
  unfold firstClash
  cases repeats with
  | name taken => rw [if_pos (by simpa using taken)]
  | qualified fresh own taken =>
    rw [if_neg (by simpa using fresh), own]
    exact if_pos (by simpa using taken)

theorem firstClash_of_fresh (fresh : ∀ e, ¬ Repeats earlier f e) (rest : List Field) :
    firstClash (earlier.map Field.name) (earlier.filterMap Field.qualified?) (f :: rest) =
      firstClash ((f :: earlier).map Field.name) ((f :: earlier).filterMap Field.qualified?)
        rest := by
  have name : ∀ g ∈ earlier, g.name ≠ f.name := fun g hg same => fresh _ (.name ⟨g, hg, same⟩)
  rw [firstClash, if_neg (by simpa using name)]
  cases own : f.qualified? with
  | none => simp [own]
  | some q =>
    have qualified : ∀ g ∈ earlier, g.qualified? ≠ some q :=
      fun g hg same => fresh _ (.qualified name own ⟨g, hg, same⟩)
    simp only [List.map_cons, List.filterMap_cons_some own]
    exact if_neg (by simpa using qualified)

theorem firstClash_eq_some_iff (earlier fields : List Field) (e : DefinitionError) :
    firstClash (earlier.map Field.name) (earlier.filterMap Field.qualified?) fields = some e ↔
      ∃ before f after, fields = before ++ f :: after ∧
        firstClash (earlier.map Field.name) (earlier.filterMap Field.qualified?) before = none ∧
        Repeats (before.reverse ++ earlier) f e := by
  induction fields generalizing earlier with
  | nil => simp [firstClash]
  | cons g rest ih =>
    by_cases clash : ∃ e', Repeats earlier g e'
    · obtain ⟨e', repeats⟩ := clash
      have stops := firstClash_of_repeats repeats
      rw [stops rest, Option.some.injEq]
      constructor
      · rintro rfl
        exact ⟨[], g, rest, rfl, rfl, repeats⟩
      · rintro ⟨before, f, after, split, clean, again⟩
        cases before with
        | nil =>
          obtain ⟨rfl, rfl⟩ := List.cons.inj split
          exact Option.some.inj ((stops []).symm.trans (firstClash_of_repeats again []))
        | cons b before =>
          obtain ⟨rfl, -⟩ := List.cons.inj split
          rw [stops before] at clean
          cases clean
    · have fresh := not_exists.mp clash
      rw [firstClash_of_fresh fresh rest, ih]
      constructor
      · rintro ⟨before, f, after, rfl, clean, repeats⟩
        refine ⟨g :: before, f, after, rfl, (firstClash_of_fresh fresh before).trans clean, ?_⟩
        simpa using repeats
      · rintro ⟨before, f, after, split, clean, repeats⟩
        cases before with
        | nil =>
          obtain ⟨rfl, rfl⟩ := List.cons.inj split
          exact absurd repeats (fresh e)
        | cons b before =>
          obtain ⟨rfl, rfl⟩ := List.cons.inj split
          refine ⟨before, f, after, rfl, (firstClash_of_fresh fresh before).symm.trans clean, ?_⟩
          simpa using repeats

end Clashes

theorem firstClash_eq_none_iff_distinct (fields : List Field) :
    firstClash [] [] fields = none ↔ (⟨fields, false⟩ : Schema).NamesDistinct := by
  simp [firstClash_eq_none_iff, NamesDistinct]

/-- The definition is refused for the first field that repeats an earlier one. -/
theorem define_eq_error_iff (fields : List Field) (e : DefinitionError) :
    define fields = .error e ↔
      ∃ before f after, fields = before ++ f :: after ∧
        (⟨before, false⟩ : Schema).NamesDistinct ∧ Repeats before f e := by
  have clash := firstClash_eq_some_iff [] fields e
  simp only [List.map_nil, List.filterMap_nil, List.append_nil,
    firstClash_eq_none_iff_distinct] at clash
  have refused : define fields = .error e ↔ firstClash [] [] fields = some e := by
    unfold define
    split <;> simp [*]
  rw [refused, clash]
  constructor
  · rintro ⟨before, f, after, split, distinct, repeats⟩
    exact ⟨before, f, after, split, distinct, repeats.reverse⟩
  · rintro ⟨before, f, after, split, distinct, repeats⟩
    exact ⟨before, f, after, split, distinct, .reverse (by rwa [List.reverse_reverse])⟩

/-! ### Unions -/

section Unions

variable {s t u v : Schema}

/-- The union is defined as its fields are, and lets other keys through if one of the two does. -/
theorem extend_eq_define (s t : Schema) :
    s.extend t = (define (s.fields ++ t.fields)).map fun union =>
      { union with permissive := s.permissive || t.permissive } := by
  unfold extend define
  split <;> rfl

theorem NamesDistinct.front {fields others : List Field} {permissive : Bool}
    (distinct : (⟨fields ++ others, permissive⟩ : Schema).NamesDistinct) (permissive' : Bool) :
    (⟨fields, permissive'⟩ : Schema).NamesDistinct := by
  unfold NamesDistinct at distinct ⊢
  simp only [List.map_append, List.filterMap_append] at distinct
  exact ⟨distinct.1.of_append_left, distinct.2.of_append_left⟩

theorem NamesDistinct.back {fields others : List Field} {permissive : Bool}
    (distinct : (⟨fields ++ others, permissive⟩ : Schema).NamesDistinct) (permissive' : Bool) :
    (⟨others, permissive'⟩ : Schema).NamesDistinct := by
  unfold NamesDistinct at distinct ⊢
  simp only [List.map_append, List.filterMap_append] at distinct
  exact ⟨distinct.1.of_append_right, distinct.2.of_append_right⟩

theorem extend_extend_eq_ok_iff (s t u v : Schema) :
    (s.extend t >>= fun union => union.extend u) = .ok v ↔
      v = ⟨s.fields ++ t.fields ++ u.fields, s.permissive || t.permissive || u.permissive⟩ ∧
        v.NamesDistinct := by
  constructor
  · intro made
    obtain ⟨union, left, made⟩ := bind_eq_ok made
    obtain ⟨rfl, -⟩ := (extend_eq_ok_iff _ _ _).mp left
    exact (extend_eq_ok_iff _ _ _).mp made
  · rintro ⟨rfl, distinct⟩
    have left := (extend_eq_ok_iff s t _).mpr ⟨rfl, distinct.front _⟩
    rw [left]
    exact (extend_eq_ok_iff _ _ _).mpr ⟨rfl, distinct⟩

theorem extend_union_eq_ok_iff (s t u v : Schema) :
    (t.extend u >>= fun union => s.extend union) = .ok v ↔
      v = ⟨s.fields ++ t.fields ++ u.fields, s.permissive || t.permissive || u.permissive⟩ ∧
        v.NamesDistinct := by
  rw [List.append_assoc, Bool.or_assoc]
  constructor
  · intro made
    obtain ⟨union, right, made⟩ := bind_eq_ok made
    obtain ⟨rfl, -⟩ := (extend_eq_ok_iff _ _ _).mp right
    exact (extend_eq_ok_iff _ _ _).mp made
  · rintro ⟨rfl, distinct⟩
    have right := (extend_eq_ok_iff t u _).mpr ⟨rfl, distinct.back _⟩
    rw [right]
    exact (extend_eq_ok_iff _ _ _).mpr ⟨rfl, distinct⟩

end Unions

/-! ### The only field of a name -/

/-- What a look-up finds is all that the schema has of the name. -/
def FindsOnly (s : Schema) : Prop :=
  ∀ name, s.fields.filter (fun f => f.name == name) = (s.field? name).toList

theorem NamesDistinct.findsOnly {s : Schema} (distinct : s.NamesDistinct) : s.FindsOnly := by
  intro name
  obtain ⟨fields, permissive⟩ := s
  have names : (fields.map Field.name).Nodup := distinct.1
  show fields.filter _ = (fields.find? _).toList
  clear distinct
  induction fields with
  | nil => rfl
  | cons f rest ih =>
    obtain ⟨fresh, names⟩ := List.nodup_cons.mp names
    by_cases same : f.name = name
    · have others : rest.filter (fun g => g.name == name) = [] := by
        rw [List.filter_eq_nil_iff]
        intro g hg
        simp only [beq_iff_eq]
        intro again
        exact fresh (same ▸ again ▸ List.mem_map_of_mem hg)
      simp [same, others]
    · simp [same, ih names]

/-- A list of fields makes a schema exactly if no two share a name and no two share a qualified
name, and is refused for the first field that repeats an earlier one, its name before its qualified
name. A union is made or refused as its fields are, in order; unions of three schemas can be nested
either way. So a look-up finds the only field of a name in every schema that can be made, and in
those embedded in it. -/
theorem define_extend_exact :
    (∀ (fields : List Field) (s : Schema),
      define fields = .ok s ↔ s = ⟨fields, false⟩ ∧ s.NamesDistinct) ∧
    (∀ (fields : List Field) (e : DefinitionError), define fields = .error e ↔
      ∃ before f after, fields = before ++ f :: after ∧
        (⟨before, false⟩ : Schema).NamesDistinct ∧ Repeats before f e) ∧
    (∀ s t : Schema, s.extend t = (define (s.fields ++ t.fields)).map fun union =>
      { union with permissive := s.permissive || t.permissive }) ∧
    (∀ s t u v : Schema, (s.extend t >>= fun union => union.extend u) = .ok v ↔
      (t.extend u >>= fun union => s.extend union) = .ok v) ∧
    ∀ s : Schema, s.Built → s.Everywhere FindsOnly := by
  refine ⟨define_eq_ok_iff, define_eq_error_iff, extend_eq_define, ?_, ?_⟩
  · intro s t u v
    rw [extend_extend_eq_ok_iff, extend_union_eq_ok_iff]
  · intro s built
    exact ((built_iff s).mp built).imp fun _ => NamesDistinct.findsOnly

def sampleColumn (name : String) (ok : IsLeafName name) : Field :=
  ⟨name, some "t.c.v", false, .scalar (.of .string), ok, qualified_some (by decide)⟩

def sampleHolder : Field :=
  ⟨"port", none, true, .object ⟨[sampleColumn "ship" (by decide)], false⟩, by decide,
    qualified_none⟩

/-- The third field repeats the qualified name of the first; the first two make a union. -/
theorem define_extend_exact_sample :
    let first := sampleColumn "ship" (by decide)
    let third := sampleColumn "crew" (by decide)
    define [first, sampleHolder, third] = .error (.duplicateQualifiedName "t.c.v") ∧
      (⟨[first], false⟩ : Schema).extend ⟨[sampleHolder], true⟩ =
        .ok ⟨[first, sampleHolder], true⟩ ∧
      (⟨[first, sampleHolder], true⟩ : Schema).Built ∧
      (⟨[first, sampleHolder], true⟩ : Schema).Everywhere FindsOnly := by
  intro first third
  obtain ⟨defined, refused, union, -, finds⟩ := define_extend_exact
  have distinct : (⟨[first, sampleHolder], false⟩ : Schema).NamesDistinct := by
    simp [NamesDistinct, first, sampleColumn, sampleHolder]
  have strict : define [first, sampleHolder] = .ok ⟨[first, sampleHolder], false⟩ :=
    (defined _ _).mpr ⟨rfl, distinct⟩
  have inner : (⟨[first], false⟩ : Schema).Built := by
    refine @Built.define [first] _ ?_ ((defined _ _).mpr ⟨rfl, ?_⟩)
    · simp [first, sampleColumn, Field.schema?]
    · simp [NamesDistinct, first, sampleColumn]
  have built : (⟨[first, sampleHolder], true⟩ : Schema).Built := by
    refine Built.allowUnknown (@Built.define [first, sampleHolder] _ ?_ strict)
    intro f hf t ht
    rcases List.mem_pair.mp hf with rfl | rfl
    · cases ht
    · exact Option.some.inj ht ▸ inner
  refine ⟨?_, ?_, built, finds _ built⟩
  · refine (refused _ _).mpr ⟨[first, sampleHolder], third, [], rfl, distinct, ?_⟩
    refine .qualified ?_ rfl ⟨first, by simp, rfl⟩
    simp [first, third, sampleColumn, sampleHolder]
  · rw [union]
    exact congrArg (Except.map _) strict

end Intake.Schema
