import Intake.Proofs.Json.ReadBack
import Intake.Proofs.Schema.Acceptance
import Intake.Proofs.Value.Written

/-!
# Results validate to themselves

The text of a result is a document, and the same schema gives the same result for it. What is
stored for a field is written in the one form in which a document may have it, whatever form it
had in an overlay.
-/

namespace Intake

/-! ### What the sources of a level are -/

def Source.Within (room : Nat) : Source → Prop
  | .node given => given.Within room
  | .text _ => True

theorem Json.text_object_notBlank (members : List (String × Json)) :
    (Json.object members).text.toList.all Text.isBlank = false := by
  have brace : Text.isBlank '\x7b' = false := by decide
  cases members <;> simp [Json.text, Json.write, brace]

theorem source_within {document : Document} {room : Nat}
    (within : ∀ member ∈ document, member.2.Within room) (overlays : List Overlay) :
    ∀ name, ∀ source ∈ sourceAmong? document overlays name, source.Within room := by
  intro name source found
  unfold sourceAmong? at found
  split at found
  · next node there =>
    obtain rfl := Option.some.inj found
    exact within (name, node) (Entries.mem_of_lookup there)
  · obtain ⟨given, -, rfl⟩ := Option.map_eq_some_iff.mp found
    trivial

theorem IsDocument.within {text : String} {document : Document} (read : IsDocument text document) :
    ∀ member ∈ document, member.2.Within 126 := by
  cases read with
  | blank => exact List.forall_mem_nil _
  | object _ read =>
    cases Json.within_of_read read with
    | object each => exact each

/-! ### Levels -/

/-- The scalars of the fields are no floats, and no field is named as the key that stands for a
number. -/
structure Schema.IsExact (s : Schema) : Prop where
  kinds : ∀ f ∈ s.fields, ∀ k ∈ f.kind?, k.IsExact
  names : ∀ f ∈ s.fields, f.name ≠ Json.Reader.numberKey

/-- Whatever embedded document gives an object, the written object gives it too. -/
def Schema.Rereads (s : Schema) : Prop :=
  ∀ (room : Nat) (document : Document) (o : Object), (∀ member ∈ document, member.2.Within room) →
    s.Yields document o → (Value.object o).FourDigitYears →
    (Value.object o).Rereads (room + 1) fun node => ∃ members, node = .object members ∧
      s.Yields members o

theorem Element.rereads {e : Element} (exact : e.kind.IsExact) {source : Source} {v : Value}
    (yields : e.Yields source v) (years : v.FourDigitYears) (room : Nat) :
    v.Rereads room fun node => e.Yields (.node node) v := by
  cases yields with
  | @intro a _ met =>
    obtain ⟨flat, same⟩ := Kind.toJson_flat exact a
    refine ⟨Kind.legible_toJson exact a, flat room, ?_⟩
    rw [Value.toJson, same]
    exact .intro (Kind.ofJson_toJson exact years) met

theorem Field.rereads {f : Field} (exact : ∀ k ∈ f.kind?, k.IsExact)
    (embedded : ∀ t ∈ f.schema?, t.Rereads) {source : Source} {room : Nat}
    (within : source.Within room) {v : Value} (yields : f.shape.Yields source v)
    (years : v.FourDigitYears) : v.Rereads room fun node => f.shape.Yields (.node node) v := by
  obtain ⟨name, qualified?, required, shape, _, _⟩ := f
  replace yields : shape.Yields source v := yields
  show v.Rereads room fun node => shape.Yields (.node node) v
  cases yields with
  | @scalar e _ _ read =>
    have kind : e.kind.IsExact := exact e.kind rfl
    exact (Element.rereads kind read years room).imp fun _ found => .scalar found
  | @array e items values each =>
    have kind : e.kind.IsExact := exact e.kind rfl
    cases within with
    | @array room _ _ =>
      have written : ∀ v ∈ values, v.Rereads room fun node => e.Yields (.node node) v := by
        intro v hv
        obtain ⟨item, -, read⟩ := exists_of_forall₂ each v hv
        exact Element.rereads kind read (fun t has => years t (.item hv has)) room
      refine (Value.rereads_array written).imp fun node found => ?_
      obtain ⟨items, rfl, each⟩ := found
      exact .array each
  | @object s members o yields =>
    cases within with
    | @object room _ within =>
      refine (embedded s rfl room members o within yields years).imp fun node found => ?_
      obtain ⟨members, rfl, yields⟩ := found
      exact .object yields
  | @objects s items values each =>
    have each := (s.yieldsEach_iff _ _).mp each
    cases within with
    | @array room _ within =>
      have written : ∀ v ∈ values, v.Rereads room fun node => ∃ members o, node = .object members ∧
          v = .object o ∧ s.Yields members o := by
        intro v hv
        obtain ⟨item, among, members, o, rfl, rfl, yields⟩ := exists_of_forall₂ each v hv
        cases within _ among with
        | @object room _ inside =>
          have years' := fun t has => years t (.item hv has)
          refine (embedded s rfl room members o inside yields years').imp fun node found => ?_
          obtain ⟨members', rfl, yields'⟩ := found
          exact ⟨members', o, rfl, rfl, yields'⟩
      refine (Value.rereads_array written).imp fun node found => ?_
      obtain ⟨items, rfl, each⟩ := found
      exact .objects ((s.yieldsEach_iff _ _).mpr each)

namespace FieldsYield

variable {fields : List Field} {source? : String → Option Source} {entries : List (String × Value)}

theorem of_mem (h : FieldsYield fields source? entries) {key : String} {v : Value}
    (mem : (key, v) ∈ entries) :
    ∃ f ∈ fields, f.name = key ∧ ∃ source, source? key = some source ∧ f.shape.Yields source v := by
  induction fields generalizing entries with
  | nil =>
    cases h
    exact absurd mem List.not_mem_nil
  | cons f fields ih =>
    rcases (fieldsYield_cons_iff _ _ _ _).mp h with
      ⟨-, -, others⟩ | ⟨source, w, rest, found, yields, others, rfl⟩
    · obtain ⟨g, hg, told⟩ := ih others mem
      exact ⟨g, List.mem_cons_of_mem f hg, told⟩
    · rcases List.mem_cons.mp mem with same | mem
      · obtain ⟨rfl, rfl⟩ := Prod.mk.inj same
        exact ⟨f, List.mem_cons_self, rfl, source, found, yields⟩
      · obtain ⟨g, hg, told⟩ := ih others mem
        exact ⟨g, List.mem_cons_of_mem f hg, told⟩

/-- Other sources give the same entries if they have what gives each of them, and no more. -/
theorem of_sources {source'? : String → Option Source} (h : FieldsYield fields source? entries)
    (absent : ∀ name, source? name = none → source'? name = none)
    (present : ∀ f ∈ fields, ∀ v, (f.name, v) ∈ entries → ∀ source, f.shape.Yields source v →
      ∃ source', source'? f.name = some source' ∧ f.shape.Yields source' v) :
    FieldsYield fields source'? entries := by
  induction fields generalizing entries with
  | nil =>
    cases h
    exact .nil
  | cons f fields ih =>
    rcases (fieldsYield_cons_iff _ _ _ _).mp h with
      ⟨none, optional, others⟩ | ⟨source, v, rest, -, yields, others, rfl⟩
    · refine .absent (absent _ none) optional (ih others ?_)
      exact fun g hg => present g (List.mem_cons_of_mem f hg)
    · obtain ⟨source', found, yields'⟩ :=
        present f List.mem_cons_self v List.mem_cons_self source yields
      refine .present found yields' (ih others ?_)
      exact fun g hg w hw => present g (List.mem_cons_of_mem f hg) w (List.mem_cons_of_mem _ hw)

end FieldsYield

namespace Schema

variable {s : Schema}

/-- What the sources of a level give is written as an embedded document that gives it too. -/
theorem rereads_of_fieldsYield (distinct : s.NamesDistinct) (exact : s.IsExact)
    (embedded : ∀ f ∈ s.fields, ∀ t ∈ f.schema?, t.Rereads) {source? : String → Option Source}
    {room : Nat} (within : ∀ name, ∀ source ∈ source? name, source.Within room) {o : Object}
    (stored : FieldsYield s.fields source? o.entries) (years : (Value.object o).FourDigitYears) :
    (Value.object o).Rereads (room + 1) fun node => ∃ members, node = .object members ∧
      s.Yields members o := by
  obtain ⟨entries⟩ := o
  have keys : (entries.map Prod.fst).Nodup := by
    rw [stored.keys_eq]
    exact distinct.1.sublist (List.filter_sublist.map _)
  -- The field of an entry is the one of its name, so what it rereads is what that field yields.
  have written : ∀ f ∈ s.fields, ∀ v, (f.name, v) ∈ entries →
      v.Rereads room fun node => f.shape.Yields (.node node) v := by
    intro f hf v mem
    obtain ⟨g, hg, same, source, found, yields⟩ := stored.of_mem mem
    obtain rfl := List.inj_on_of_nodup_map distinct.1 hg hf same
    exact Field.rereads (exact.kinds g hg) (embedded g hg) (within g.name source found) yields
      fun t has => years t (.entry mem has)
  have declared : ∀ entry ∈ entries, ∃ f ∈ s.fields, f.name = entry.1 := by
    intro entry mem
    obtain ⟨f, hf, name, -⟩ := stored.of_mem mem
    exact ⟨f, hf, name⟩
  refine (Value.rereads_object keys (fun entry mem => ?_) fun entry mem => ?_).imp
    fun node found => ?_
  · obtain ⟨f, hf, name⟩ := declared entry mem
    rw [← name]
    exact exact.names f hf
  · obtain ⟨f, hf, name⟩ := declared entry mem
    exact ⟨_, written f hf entry.2 (by rw [name]; exact mem)⟩
  · obtain ⟨members, rfl, looked⟩ := found
    refine ⟨members, rfl, .intro (fun key has => ?_) (stored.of_sources (fun name none => ?_) ?_)⟩
    · have there : Entries.lookup key entries ≠ none := by
        intro none
        have absent := looked key
        rw [none] at absent
        exact (Entries.lookup_eq_none_iff _ _).mp absent has
      obtain ⟨v, found⟩ := Option.ne_none_iff_exists'.mp there
      exact declared _ (Entries.mem_of_lookup found)
    · have absent : Entries.lookup name entries = .none := by
        rw [Entries.lookup_eq_none_iff]
        intro has
        obtain ⟨entry, mem, rfl⟩ := List.mem_map.mp has
        obtain ⟨f, -, -, source, found, -⟩ := stored.of_mem mem
        rw [none] at found
        cases found
      rw [sourceAmong?, looked, absent]
      rfl
    · intro f hf v mem source _
      refine ⟨.node v.toJson.inOrder, ?_, (written f hf v mem).found⟩
      rw [sourceAmong?, looked, Entries.lookup_of_mem keys mem]
      rfl

theorem rereads (built : s.Built) (exact : s.Everywhere IsExact) : s.Rereads := by
  induction s using level_induction with
  | level s ih =>
    intro room document o within yields years
    cases yields with
    | intro _ stored =>
      refine rereads_of_fieldsYield built.distinct exact.here (fun f hf t ht => ?_)
        (source_within within []) stored years
      exact ih f hf t ht (built.within hf ht) (exact.within hf ht)

/-- What a schema gives for a document and overlays it gives for the text of the result alone, if
it is strict and without qualified names at every level, no field holds floats, and every year is
written with four digits. -/
theorem validate_toJson {s : Schema} (built : s.Built) (strict : s.Everywhere IsStrict)
    (plain : s.Everywhere IsPlain) (exact : s.Everywhere IsExact) {text : String}
    {overlays : List Overlay} {r : Object} (accepted : s.validate text overlays = .ok r)
    (years : (Value.object r).FourDigitYears) : s.validate r.toJson.text [] = .ok r := by
  obtain ⟨document, read, -, stored⟩ :=
    (validate_eq_ok_iff built strict plain text overlays r).mp accepted
  have embedded : ∀ f ∈ s.fields, ∀ t ∈ f.schema?, t.Rereads := fun f hf t ht =>
    rereads (built.within hf ht) (exact.within hf ht)
  obtain ⟨legible, within, members, tree, declared, stored'⟩ := rereads_of_fieldsYield
    built.distinct exact.here embedded (source_within read.within overlays) stored years
  have read' : IsDocument r.toJson.text members := by
    refine .object ?_ ((Json.read_text legible within).trans (congrArg Except.ok tree))
    rw [r.toJson_eq]
    exact Json.text_object_notBlank _
  refine (validate_eq_ok_iff built strict plain _ _ r).mpr ⟨members, read', ?_, stored'⟩
  exact ⟨List.nodup_nil, List.forall_mem_nil _, declared, List.forall_mem_nil _⟩

def sampleVisit : Schema :=
  ⟨[⟨"at", none, true, .scalar (.of .timestamp), by decide, qualified_none⟩,
    ⟨"guests", none, true, .scalar (.of (.int .u8)), by decide, qualified_none⟩,
    ⟨"lamp", none, true, .object sampleSwitch, by decide, qualified_none⟩], false⟩

theorem sampleVisit_everywhere {P : Schema → Prop} (inner : P sampleSwitch)
    (outer : P sampleVisit) : sampleVisit.Everywhere P := by
  refine .intro outer fun f hf t ht => ?_
  simp only [sampleVisit, List.mem_cons, List.not_mem_nil, or_false] at hf
  rcases hf with rfl | rfl | rfl
  · cases ht
  · cases ht
  · obtain rfl := Option.some.inj ht
    refine .intro inner fun f hf t ht => ?_
    obtain rfl := List.mem_singleton.mp hf
    cases ht

def sampleDay : Calendar.Timestamp :=
  .utc ⟨2024, 2, 29, by decide, by decide, by decide⟩ .midnight

def sampleVisited : Object :=
  ⟨[("at", .scalar .timestamp sampleDay), ("guests", .scalar (.int .u8) ⟨7, by decide⟩),
    ("lamp", .object ⟨[("on", .bool true)]⟩)]⟩

def sampleVisitText : String :=
  "\x7b\"at\":\"2024-02-29T00:00:00Z\",\"guests\":7,\"lamp\":\x7b\"on\":true\x7d\x7d"

/-- A date alone and a number with a sign and zeros are written in their full forms. -/
theorem validate_toJson_sampleVisit :
    sampleVisit.validate "\x7b\"lamp\":\x7b\"on\":true\x7d\x7d"
        [⟨[("at", "2024-02-29"), ("guests", "+007")], by decide⟩] = .ok sampleVisited ∧
      sampleVisited.toJson.text = sampleVisitText ∧
      sampleVisit.validate sampleVisited.toJson.text [] = .ok sampleVisited := by
  have built : sampleVisit.Built := (built_iff _).mpr
    (sampleVisit_everywhere ⟨by decide, by decide⟩ ⟨by decide, by decide⟩)
  have strict : sampleVisit.Everywhere IsStrict := sampleVisit_everywhere rfl rfl
  have plain : sampleVisit.Everywhere IsPlain := by
    apply sampleVisit_everywhere <;> simp [IsPlain, sampleSwitch, sampleVisit]
  have exact : sampleVisit.Everywhere IsExact := by
    apply sampleVisit_everywhere
    · refine ⟨by simp [sampleSwitch, Field.kind?, Element.of, Kind.IsExact], ?_⟩
      simp only [sampleSwitch, List.forall_mem_singleton]
      decide
    · refine ⟨by simp [sampleVisit, Field.kind?, Element.of, Kind.IsExact], ?_⟩
      simp only [sampleVisit, List.forall_mem_cons]
      decide
  let document : Document := [("lamp", .object [("on", .bool true)])]
  let overlays : List Overlay := [⟨[("at", "2024-02-29"), ("guests", "+007")], by decide⟩]
  have read : IsDocument "\x7b\"lamp\":\x7b\"on\":true\x7d\x7d" document := .object rfl rfl
  have stored : FieldsYield sampleVisit.fields (sourceAmong? document overlays)
      sampleVisited.entries :=
    .present rfl (.scalar (.intro rfl (List.forall_mem_nil _)))
      (.present rfl (.scalar (.intro rfl (List.forall_mem_nil _)))
        (.present rfl (.object sampleSwitch_yields) .nil))
  have keys : sampleVisit.AcceptsKeys document overlays :=
    ⟨by decide, by decide, by decide, by decide⟩
  have accepted := (validate_eq_ok_iff built strict plain _ overlays sampleVisited).mpr
    ⟨document, read, keys, stored⟩
  have years : (Value.object sampleVisited).FourDigitYears := by
    intro t has
    cases has with
    | entry among has =>
      simp only [sampleVisited, List.mem_cons, Prod.mk.injEq, List.not_mem_nil, or_false] at among
      rcases among with ⟨rfl, rfl⟩ | ⟨rfl, rfl⟩ | ⟨rfl, rfl⟩
      · cases has
        decide
      · cases has
      · cases has with
        | entry among has =>
          obtain ⟨rfl, rfl⟩ := Prod.mk.inj (List.mem_singleton.mp among)
          cases has
  exact ⟨accepted, by decide, validate_toJson built strict plain exact accepted years⟩

end Schema

end Intake
