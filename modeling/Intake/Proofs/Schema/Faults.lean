import Intake.Proofs.Constraint.Refusals
import Intake.Proofs.Report.Paths
import Intake.Proofs.Schema.Keys
import Intake.Proofs.Schema.Outcomes

/-!
# Faults of an input

What can be wrong with the fields of an input, as a relation between the input, a
path and a violation. It follows the embedded schemas to any depth and speaks of no
report. The report of the fields has exactly these faults as its entries, each under
its own path.
-/

namespace Intake

/-- The violations for which a scalar is refused. A value of the kind that meets all constraints
has none; of the constraints that it does not meet, the first counts. -/
inductive Element.Refuses (e : Element) (source : Source) : Violation → Prop where
  | coercion {fault : CoercionFault} {v : Violation}
      (failed : source.coerce e.kind = .error fault) (told : fault.ToldBy v) : e.Refuses source v
  | constraint {a : e.kind.Carrier} {before after : List (Constraint e.kind)}
      {c : Constraint e.kind} {v : Violation} (coerced : source.coerce e.kind = .ok a)
      (split : e.constraints = before ++ c :: after) (met : ∀ b ∈ before, ∀ w, ¬ b.Refuses a w)
      (failed : c.Refuses a v) : e.Refuses source v

/-- Whether an embedded document has only keys that its schema lets through. -/
def Schema.Admits (s : Schema) (document : Document) : Prop :=
  s.permissive = true ∨ ∀ key ∈ document.map Prod.fst, ∃ f ∈ s.fields, f.name = key

mutual

/-- What is wrong with a source as the value of a field of a name, and at which path. -/
inductive Shape.Faulty : Shape → String → Source → String → Violation → Prop where
  | scalar {e : Element} {name : String} {source : Source} {v : Violation}
      (refused : e.Refuses source v) : (Shape.scalar e).Faulty name source name v
  | notArray {e : Element} {name : String} {source : Source}
      (other : ∀ items, source ≠ .node (.array items)) :
      (Shape.array e).Faulty name source name
        ⟨"type_mismatch", s!"type mismatch: expected array but got raw type {source.form.name}",
          none, [("expected", "array"), ("actual", source.form.name)]⟩
  | item {e : Element} {name : String} {items : List Json} {i : Nat} {item : Json} {v : Violation}
      (found : items[i]? = some item) (refused : e.Refuses (.node item) v) :
      (Shape.array e).Faulty name (.node (.array items)) s!"{name}[{i}]" v
  | notObject {s : Schema} {name : String} {source : Source}
      (other : ∀ members, source ≠ .node (.object members)) :
      (Shape.object s).Faulty name source name
        ⟨"type_mismatch", s!"type mismatch: expected object but got raw type {source.form.name}",
          none, [("expected", "object"), ("actual", source.form.name)]⟩
  | embedded {s : Schema} {name part : String} {members : Document} {v : Violation}
      (faulty : s.Faulty members part v) :
      (Shape.object s).Faulty name (.node (.object members))
        (if part = "" then name else name ++ "." ++ part) v
  | notObjects {s : Schema} {name : String} {source : Source}
      (other : ∀ items, source ≠ .node (.array items)) :
      (Shape.objects s).Faulty name source name
        ⟨"type_mismatch", s!"type mismatch: expected array but got raw type {source.form.name}",
          none, [("expected", "array"), ("actual", source.form.name)]⟩
  | itemNotObject {s : Schema} {name : String} {items : List Json} {i : Nat} {item : Json}
      (found : items[i]? = some item) (other : ∀ members, item ≠ .object members) :
      (Shape.objects s).Faulty name (.node (.array items)) s!"{name}[{i}]"
        ⟨"type_mismatch", s!"type mismatch: expected object but got raw type {item.form.name}",
          none, [("expected", "object"), ("actual", item.form.name)]⟩
  | itemEmbedded {s : Schema} {name part : String} {items : List Json} {i : Nat}
      {members : Document} {v : Violation} (found : items[i]? = some (.object members))
      (faulty : s.Faulty members part v) :
      (Shape.objects s).Faulty name (.node (.array items))
        (if part = "" then s!"{name}[{i}]" else s!"{name}[{i}]" ++ "." ++ part) v

inductive Field.Faulty : Field → Document → Overlay → String → Violation → Prop where
  | missing {f : Field} {document : Document} {overlay : Overlay}
      (noMember : f.name ∉ document.map Prod.fst) (noText : f.name ∉ overlay.keys)
      (required : f.required = true) :
      f.Faulty document overlay f.name
        ⟨"required", s!"{f.name} is required but not found", none, []⟩
  | present {f : Field} {document : Document} {overlay : Overlay} {source : Source} {path : String}
      {v : Violation} (found : source? document overlay f.name = some source)
      (faulty : f.shape.Faulty f.name source path v) : f.Faulty document overlay path v

/-- What is wrong with an embedded document: its unknown keys, or else its fields. -/
inductive Schema.Faulty : Schema → Document → String → Violation → Prop where
  | unknownKey {s : Schema} {document : Document} {key : String} (strict : s.permissive = false)
      (here : key ∈ document.map Prod.fst) (undeclared : ∀ f ∈ s.fields, f.name ≠ key) :
      s.Faulty document key ⟨"unknown_field", s!"unknown json field '{key}'", none, []⟩
  | field {s : Schema} {document : Document} {f : Field} {path : String} {v : Violation}
      (admitted : s.Admits document) (declared : f ∈ s.fields)
      (faulty : f.Faulty document .empty path v) : s.Faulty document path v

end

theorem Element.read_eq_error_iff (e : Element) (source : Source) (v : Violation) :
    e.read source = .error v ↔ e.Refuses source v := by
  rw [read_eq]
  cases h : source.coerce e.kind with
  | error fault =>
    simp only [Except.error.injEq, ← fault.toldBy_iff]
    constructor
    · exact .coercion h
    · rintro (⟨failed, told⟩ | ⟨coerced, -, -, -⟩)
      · rw [h] at failed
        exact Except.error.inj failed ▸ told
      · rw [h] at coerced
        cases coerced
  | ok a =>
    have first : e.check a = .error v ↔ e.constraints.findSome? (·.violation? a) = some v := by
      rw [check]
      cases e.constraints.findSome? (·.violation? a) <;> simp
    simp only [first, List.findSome?_eq_some_iff, Constraint.violation?_eq_some_iff,
      Constraint.violation?_eq_none_iff]
    constructor
    · rintro ⟨before, c, after, split, failed, met⟩
      exact .constraint h split met failed
    · rintro (⟨failed, -⟩ | ⟨coerced, split, met, failed⟩)
      · rw [h] at failed
        cases failed
      · rw [h] at coerced
        obtain rfl := Except.ok.inj coerced
        exact ⟨_, _, _, split, failed, met⟩

theorem source?_eq_none_iff (document : Document) (overlay : Overlay) (name : String) :
    source? document overlay name = none ↔ name ∉ document.map Prod.fst ∧ name ∉ overlay.keys := by
  rw [source?, ← Entries.lookup_eq_none_iff, SortedMap.keys, ← Entries.lookup_eq_none_iff]
  cases Entries.lookup name document with
  | none => simp [SortedMap.find?]
  | some json => simp

/-! ### Faults stay within the path of their field -/

theorem Shape.Faulty.pathWithin {shape : Shape} {name path : String} {source : Source}
    {v : Violation} (h : shape.Faulty name source path v) : PathWithin name path := by
  cases h with
  | scalar | notArray | notObject | notObjects => exact .refl name
  | item | itemNotObject => exact pathWithin_itemPath name _
  | embedded => exact .part name _
  | itemEmbedded => exact (pathWithin_itemPath name _).trans (.part _ _)

theorem Field.Faulty.pathWithin {f : Field} {document : Document} {overlay : Overlay}
    {path : String} {v : Violation} (h : f.Faulty document overlay path v) :
    PathWithin f.name path := by
  cases h with
  | missing => exact .refl f.name
  | present _ faulty => exact faulty.pathWithin

/-! ### Outcomes that tell all faults -/

/-- The outcome is a report that lists the given violations, or a value if there are none. -/
def Tells {α : Type} (outcome : Except Report α) (F : String → Violation → Prop) : Prop :=
  match outcome with
  | .ok _ => ∀ p e, ¬ F p e
  | .error report => report.Lists F

section Tells

variable {F : String → Violation → Prop}

theorem tells_reportAt {α : Type} (path : String) (outcome : Except Violation α) :
    Tells (reportAt path outcome) fun p e => p = path ∧ outcome = .error e := by
  cases outcome with
  | ok a => simp [reportAt, Tells]
  | error v => simpa [reportAt, Tells, eq_comm] using Report.lists_add_empty path v

theorem tells_toResult {α : Type} {r : Report} (h : r.Lists F) (a : α) : Tells (r.toResult a) F := by
  rw [Report.toResult]
  split
  · next empty => exact h.isEmpty_iff.mp empty
  · exact h

theorem tells_embed {outcome : Except Report Object} (h : Tells outcome F) {path : String}
    (hp : path ≠ "") :
    Tells (embed path outcome) fun p e => ∃ part, F part e ∧ p = Report.joinPath path part := by
  cases outcome with
  | ok o => rintro p e ⟨part, faulty, _⟩; exact h part e faulty
  | error r => exact Report.Lists.mergeNested h hp

theorem Tells.congr {α : Type} {outcome : Except Report α} {G : String → Violation → Prop}
    (h : Tells outcome F) (same : ∀ p e, F p e ↔ G p e) : Tells outcome G := by
  cases outcome with
  | ok a => simpa only [Tells, same] using h
  | error r => exact Report.Lists.congr h same

/-- Items are examined one by one and none is left out; the faults of each come to those that have
been found before, since no path belongs to two items. -/
theorem lists_examineItems {path : String} {examine : String → Json → Except Report Value}
    {G : String → Json → String → Violation → Prop}
    (tells : ∀ i item, Tells (examine (itemPath path i) item) (G (itemPath path i) item))
    (within : ∀ i item p e, G (itemPath path i) item p e → PathWithin (itemPath path i) p)
    (items : List Json) (index : Nat) {found : Report × List Value} (before : found.1.Lists F)
    (apart : ∀ p e, F p e → ∀ i, index ≤ i → ¬ PathWithin (itemPath path i) p) :
    (examineItems path examine index found items).1.Lists fun p e =>
      F p e ∨ ∃ i item, items[i]? = some item ∧ G (itemPath path (index + i)) item p e := by
  induction items generalizing index found F with
  | nil => simpa [examineItems] using before
  | cons item rest ih =>
    have first := tells index item
    have noted : (noteItem found (examine (itemPath path index) item)).1.Lists fun p e =>
        F p e ∨ G (itemPath path index) item p e := by
      cases outcome : examine (itemPath path index) item with
      | ok value =>
        rw [outcome] at first
        exact before.congr fun p e => (or_iff_left (first p e)).symm
      | error report =>
        rw [outcome] at first
        exact before.addAll first fun p e e' faulty faulty' =>
          apart p e faulty index (Nat.le_refl index) (within _ _ _ _ faulty')
    rw [examineItems]
    refine (ih (index + 1) noted ?_).congr fun p e => ?_
    · rintro p e (faulty | faulty) i later inside
      · exact apart p e faulty i (by omega) inside
      · have same := index_eq_of_pathWithin (within _ _ _ _ faulty) inside
        omega
    · rw [or_assoc]
      refine or_congr_right ⟨?_, ?_⟩
      · rintro (faulty | ⟨i, other, there, faulty⟩)
        · exact ⟨0, item, rfl, faulty⟩
        · exact ⟨i + 1, other, there, by rwa [show index + (i + 1) = index + 1 + i by omega]⟩
      · rintro ⟨i, other, there, faulty⟩
        cases i with
        | zero =>
          obtain rfl := Option.some.inj there
          exact .inl faulty
        | succ i =>
          exact .inr ⟨i, other, there, by rwa [show index + 1 + i = index + (i + 1) by omega]⟩

theorem tells_examineArray {name : String} {examine : String → Json → Except Report Value}
    {G : String → Json → String → Violation → Prop}
    (tells : ∀ i item, Tells (examine (itemPath name i) item) (G (itemPath name i) item))
    (within : ∀ i item p e, G (itemPath name i) item p e → PathWithin (itemPath name i) p)
    (source : Source) :
    Tells (examineArray name examine source) fun p e =>
      (∃ items, source = .node (.array items) ∧
          ∃ i item, items[i]? = some item ∧ G (itemPath name i) item p e) ∨
        (∀ items, source ≠ .node (.array items)) ∧
          p = name ∧ e = .typeMismatch "array" source.form.name := by
  by_cases h : ∃ items, source = .node (.array items)
  · obtain ⟨items, rfl⟩ := h
    have lists : (examineItems name examine 0 (.empty, []) items).1.Lists _ :=
      lists_examineItems tells within items 0 Report.lists_empty fun _ _ none => none.elim
    refine (tells_toResult lists _).congr fun p e => ?_
    simp
  · have other : ∀ items, source ≠ .node (.array items) := fun items e => h ⟨items, e⟩
    have mismatch : examineArray name examine source =
        reportAt name (.error (.typeMismatch "array" source.form.name)) := by
      rw [examineArray]
      exact fun items e => other items e
    rw [mismatch]
    refine (tells_reportAt name _).congr fun p e => ?_
    simp [other, eq_comm]

end Tells

/-! ### The report of the fields -/

def ItemFaulty (s : Schema) (path : String) (item : Json) (p : String) (v : Violation) : Prop :=
  (∃ members part, item = .object members ∧ s.Faulty members part v ∧
      p = Report.joinPath path part) ∨
    (∀ members, item ≠ .object members) ∧ p = path ∧ v = .typeMismatch "object" item.form.name

theorem ItemFaulty.pathWithin {s : Schema} {path p : String} {item : Json} {v : Violation}
    (hp : path ≠ "") (h : ItemFaulty s path item p v) : PathWithin path p := by
  rcases h with ⟨members, part, _, _, rfl⟩ | ⟨_, rfl, _⟩
  · exact .joinPath hp part
  · exact .refl p

theorem tells_examineItem {s : Schema}
    (embedded : ∀ members, Tells (s.examine members .empty .empty) (s.Faulty members))
    {path : String} (hp : path ≠ "") (item : Json) :
    Tells (s.examineNode path item) (ItemFaulty s path item) := by
  unfold Schema.examineNode
  split
  · next members =>
    refine (tells_embed (embedded members) hp).congr fun p v => ?_
    simp [ItemFaulty]
  · next _ other =>
    refine (tells_reportAt path _).congr fun p v => ?_
    have not_object : ∀ members, item ≠ .object members := fun members h => other members h
    simp [ItemFaulty, not_object, eq_comm]

theorem Shape.tells_examine {shape : Shape} {name : String} (hn : name ≠ "")
    (embedded : ∀ s, shape = .object s ∨ shape = .objects s →
      ∀ members, Tells (s.examine members .empty .empty) (s.Faulty members)) (source : Source) :
    Tells (shape.examine name source) (shape.Faulty name source) := by
  cases shape with
  | scalar e =>
    rw [Shape.examine]
    refine (tells_reportAt name _).congr fun p v => ?_
    rw [Element.read_eq_error_iff]
    constructor
    · rintro ⟨rfl, refused⟩
      exact .scalar refused
    · rintro ⟨refused⟩
      exact ⟨rfl, refused⟩
  | array e =>
    rw [Shape.examine]
    refine (tells_examineArray (G := fun path item p v => p = path ∧ e.read (.node item) = .error v)
      (fun i item => tells_reportAt _ _) (fun i item p v h => h.1 ▸ .refl p) source).congr ?_
    intro p v
    simp only [Element.read_eq_error_iff]
    constructor
    · rintro (⟨items, rfl, i, item, found, rfl, refused⟩ | ⟨other, rfl, rfl⟩)
      · exact .item found refused
      · exact .notArray other
    · intro h
      cases h with
      | notArray other => exact .inr ⟨other, rfl, rfl⟩
      | item found refused => exact .inl ⟨_, rfl, _, _, found, rfl, refused⟩
  | object s =>
    by_cases h : ∃ members, source = .node (.object members)
    · obtain ⟨members, rfl⟩ := h
      rw [Shape.examine]
      refine (tells_embed (embedded s (.inl rfl) members) hn).congr fun p v => ?_
      simp only [Report.joinPath_of_ne_empty hn]
      constructor
      · rintro ⟨part, faulty, rfl⟩
        exact .embedded faulty
      · intro h
        cases h with
        | notObject other => exact absurd rfl (other members)
        | embedded faulty => exact ⟨_, faulty, rfl⟩
    · have other : ∀ members, source ≠ .node (.object members) := fun members e => h ⟨members, e⟩
      rw [Shape.examine.eq_4 _ _ _ other]
      refine (tells_reportAt name _).congr fun p v => ?_
      constructor
      · rintro ⟨rfl, same⟩
        exact Except.error.inj same ▸ .notObject other
      · intro h
        cases h with
        | notObject => exact ⟨rfl, rfl⟩
        | embedded => exact absurd rfl (other _)
  | objects s =>
    rw [Shape.examine_objects]
    refine (tells_examineArray (fun i item => tells_examineItem
      (fun members => embedded s (.inr rfl) members) (itemPath_ne_empty name i) item)
      (fun i item p v => ItemFaulty.pathWithin (itemPath_ne_empty name i)) source).congr ?_
    intro p v
    constructor
    · rintro (⟨items, rfl, i, item, found, ⟨members, part, rfl, faulty, rfl⟩ | ⟨other, rfl, rfl⟩⟩ |
        ⟨other, rfl, rfl⟩)
      · rw [Report.joinPath_of_ne_empty (itemPath_ne_empty name i)]
        exact .itemEmbedded found faulty
      · exact .itemNotObject found other
      · exact .notObjects other
    · intro h
      cases h with
      | notObjects other => exact .inr ⟨other, rfl, rfl⟩
      | itemNotObject found other =>
        exact .inl ⟨_, rfl, _, _, found, .inr ⟨other, rfl, rfl⟩⟩
      | @itemEmbedded _ _ part _ i _ _ found faulty =>
        have path : Report.joinPath (itemPath name i) part = _ :=
          Report.joinPath_of_ne_empty (itemPath_ne_empty name i)
        exact .inl ⟨_, rfl, _, _, found, .inl ⟨_, _, rfl, faulty, path.symm⟩⟩

/-- What the report of one field says, given what the reports of embedded documents say. -/
theorem Field.failure?_lists {f : Field}
    (embedded : ∀ s ∈ f.schema?, ∀ members,
      Tells (s.examine members .empty .empty) (s.Faulty members))
    (document : Document) (overlay : Overlay) :
    match f.failure? document overlay with
    | some report => report.Lists (f.Faulty document overlay)
    | none => ∀ p e, ¬ f.Faulty document overlay p e := by
  cases found : source? document overlay f.name with
  | some source =>
    have shape : ∀ s, f.shape = .object s ∨ f.shape = .objects s → s ∈ f.schema? := by
      rintro s (h | h) <;> simp [schema?, h]
    have tells := (Shape.tells_examine f.name_ok.1
      (fun s h => embedded s (shape s h)) source).congr (G := f.Faulty document overlay) ?_
    · rw [failure?, outcome?_of_source found]
      cases h : f.shape.examine f.name source with
      | ok value => rw [h] at tells; exact tells
      | error report => rw [h] at tells; exact tells
    · intro p e
      constructor
      · exact .present found
      · intro h
        cases h with
        | missing noMember noText =>
          have absent := (source?_eq_none_iff document overlay f.name).mpr ⟨noMember, noText⟩
          rw [found] at absent
          cases absent
        | present found' faulty =>
          rw [found] at found'
          exact Option.some.inj found' ▸ faulty
  | none =>
    obtain ⟨noMember, noText⟩ := (source?_eq_none_iff _ _ _).mp found
    rw [failure?, outcome?_of_no_source found]
    cases required : f.required with
    | true =>
      refine (Report.lists_add_empty f.name (.required f.name)).congr fun p e => ?_
      constructor
      · rintro ⟨rfl, rfl⟩
        exact .missing noMember noText required
      · intro h
        cases h with
        | missing => exact ⟨rfl, rfl⟩
        | present found' => rw [found] at found'; cases found'
    | false =>
      intro p e h
      cases h with
      | missing _ _ required' => rw [required] at required'; cases required'
      | present found' => rw [found] at found'; cases found'

/-- The reports of fields with different names share no path, so nothing is lost. -/
theorem lists_failures {document : Document} {overlay : Overlay} {fields : List Field}
    (distinct : (fields.map Field.name).Nodup)
    (tells : ∀ f ∈ fields, match f.failure? document overlay with
      | some report => report.Lists (f.Faulty document overlay)
      | none => ∀ p e, ¬ f.Faulty document overlay p e)
    {r : Report} {F : String → Violation → Prop} (hr : r.Lists F)
    (apart : ∀ p e, F p e → ∀ f ∈ fields, ¬ PathWithin f.name p) :
    ((fields.filterMap (Field.failure? document overlay)).foldl
        (fun report part => report.addAll part.entries) r).Lists
      fun p e => F p e ∨ ∃ f ∈ fields, f.Faulty document overlay p e := by
  induction fields generalizing r F with
  | nil => simpa using hr
  | cons f rest ih =>
    rw [List.map_cons, List.nodup_cons] at distinct
    have here := tells f List.mem_cons_self
    have later := fun g hg => tells g (List.mem_cons_of_mem f hg)
    have others : ∀ g ∈ rest, f.name ≠ g.name := fun g hg e =>
      distinct.1 (e ▸ List.mem_map_of_mem hg)
    cases failure : f.failure? document overlay with
    | none =>
      rw [failure] at here
      rw [List.filterMap_cons_none failure]
      refine (ih distinct.2 later hr fun p e h g hg =>
        apart p e h g (List.mem_cons_of_mem f hg)).congr fun p e => ?_
      simp [here p e]
    | some report =>
      rw [failure] at here
      rw [List.filterMap_cons_some failure, List.foldl_cons]
      have both := hr.addAll here fun p e e' h h' =>
        apart p e h f List.mem_cons_self h'.pathWithin
      refine (ih distinct.2 later both ?_).congr fun p e => ?_
      · rintro p e (h | h) g hg within
        · exact apart p e h g (List.mem_cons_of_mem f hg) within
        · exact others g hg (h.pathWithin.name_eq f.name_ok g.name_ok within)
      · simp [or_assoc]

namespace Schema

theorem fieldReport_lists {s : Schema} (hs : s.NamesDistinct)
    (embedded : ∀ f ∈ s.fields, ∀ t ∈ f.schema?, ∀ members,
      Tells (t.examine members .empty .empty) (t.Faulty members))
    (document : Document) (overlay : Overlay) :
    (s.fieldReport document overlay).Lists
      fun p e => ∃ f ∈ s.fields, f.Faulty document overlay p e := by
  rw [fieldReport, examineFields_report]
  refine (lists_failures hs.1 (fun f hf => Field.failure?_lists (embedded f hf) document overlay)
    Report.lists_empty (fun _ _ h => h.elim)).congr fun p e => ?_
  simp

theorem keyReport_embedded_lists (s : Schema) (document : Document) :
    (s.keyReport document .empty .empty).Lists fun p e =>
      s.permissive = false ∧ p ∈ document.map Prod.fst ∧ (∀ f ∈ s.fields, f.name ≠ p) ∧
        e = .of "unknown_field" s!"unknown json field '{p}'" := by
  intro p v
  have unknown : s.documentKeyViolation? .empty p =
      if s.permissive = false ∧ ∀ f ∈ s.fields, f.name ≠ p then
        some (.of "unknown_field" s!"unknown json field '{p}'") else none := by
    have undeclared := s.declares_iff p
    rw [documentKeyViolation?, SortedMap.contains, SortedMap.find?_empty]
    cases s.permissive <;> cases h : s.declares p <;> simp_all
  rw [keyReport, get?_reportKeys, unknown]
  by_cases here : p ∈ document.map Prod.fst
  · by_cases faulty : s.permissive = false ∧ ∀ f ∈ s.fields, f.name ≠ p
    · rw [if_pos here, if_pos faulty]
      constructor
      · intro h
        exact ⟨_, ⟨faulty.1, here, faulty.2, rfl⟩, (Option.some.inj h).symm⟩
      · rintro ⟨e, ⟨-, -, -, rfl⟩, rfl⟩
        rfl
    · rw [if_pos here, if_neg faulty]
      constructor
      · intro h
        cases h
      · rintro ⟨e, ⟨strict, -, undeclared, -⟩, -⟩
        exact absurd ⟨strict, undeclared⟩ faulty
  · rw [if_neg here]
    constructor
    · intro h
      cases h
    · rintro ⟨e, ⟨-, here', -⟩, -⟩
      exact absurd here' here

/-- The report of an embedded document has exactly its faults, whatever its schema embeds. -/
theorem tells_examine_embedded {s : Schema} (hs : s.Built) (members : Document) :
    Tells (s.examine members .empty .empty) (s.Faulty members) := by
  induction s using level_induction generalizing members with
  | level s ih =>
    have keys := s.keyReport_embedded_lists members
    rw [examine_eq]
    by_cases clean : (s.keyReport members .empty .empty).isEmpty = true
    · rw [if_pos clean]
      have fields := fieldReport_lists hs.distinct
        (fun f hf t ht => ih f hf t ht (hs.within hf ht)) members .empty
      refine (tells_toResult fields _).congr fun p e => ?_
      have admitted : s.Admits members := by
        rw [Admits]
        by_contra h
        push Not at h
        obtain ⟨notPermissive, key, here, undeclared⟩ := h
        exact keys.isEmpty_iff.mp clean key _
          ⟨by simpa using notPermissive, here, undeclared, rfl⟩
      constructor
      · rintro ⟨f, hf, faulty⟩
        exact .field admitted hf faulty
      · intro h
        cases h with
        | unknownKey strict here undeclared =>
          exact absurd ⟨strict, here, undeclared, rfl⟩ (keys.isEmpty_iff.mp clean p _)
        | field _ hf faulty => exact ⟨_, hf, faulty⟩
    · rw [if_neg clean]
      refine keys.congr fun p e => ?_
      constructor
      · rintro ⟨strict, here, undeclared, rfl⟩
        exact .unknownKey strict here undeclared
      · intro h
        cases h with
        | unknownKey strict here undeclared => exact ⟨strict, here, undeclared, rfl⟩
        | field admitted =>
          refine absurd (keys.isEmpty_iff.mpr ?_) clean
          rintro q e ⟨strict, here, undeclared, -⟩
          rcases admitted with permissive | declared
          · rw [strict] at permissive
            cases permissive
          · obtain ⟨f, hf, same⟩ := declared q here
            exact undeclared f hf same

def sampleItem : Schema :=
  ⟨[⟨"id", none, true, .scalar (.of (.int .i64)), by decide, qualified_none⟩], false⟩

def sampleOrder : Schema :=
  ⟨[⟨"tags", none, false, .array (.of .string), by decide, qualified_none⟩,
    ⟨"items", none, true, .objects sampleItem, by decide, qualified_none⟩], false⟩

theorem sampleOrder_built : sampleOrder.Built := by
  have item : sampleItem.Everywhere NamesDistinct := by
    refine .intro ⟨by decide, by decide⟩ fun f hf t ht => ?_
    obtain rfl := List.mem_singleton.mp hf
    cases ht
  refine (built_iff _).mpr (.intro ⟨by decide, by decide⟩ fun f hf t ht => ?_)
  rcases List.mem_cons.mp hf with rfl | hf
  · cases ht
  · obtain rfl := List.mem_singleton.mp hf
    exact Option.some.inj ht ▸ item

end Schema

end Intake
