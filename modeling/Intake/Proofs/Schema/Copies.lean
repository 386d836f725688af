import Intake.Proofs.Json.Regular
import Intake.Proofs.Schema.Embedding
import Intake.Proofs.Schema.Interchange
import Intake.Proofs.Text.ByteOrder

/-!
# Copies beside values

The result of a schema that lets unknown keys through has the values of its fields first, then the
members of the document that are copied, and then the texts of the overlay that are copied. Two
tests tell which ones are: whether the key names a field, and whether an entry with the key is
there already, which may well be one of a field with another name.
-/

namespace Intake

theorem Object.mk_append_nil (o : Object) : (⟨o.entries ++ []⟩ : Object) = o := by
  obtain ⟨entries⟩ := o
  exact congrArg Object.mk (List.append_nil entries)

theorem IsDocument.regular {text : String} {document : Document}
    (read : IsDocument text document) : (Json.object document).Regular := by
  cases read with
  | blank => exact .object .nil (List.forall_mem_nil _)
  | object _ read => exact Json.regular_of_read read

namespace Schema

def memberItems (document : Document) : List (String × Option Value) :=
  document.map fun member => (member.1, Value.ofJson? member.2)

def textItems (overlay : Overlay) : List (String × Option Value) :=
  overlay.entries.map fun item => (item.1, some (.string item.2))

/-- The entry that an item adds to an object: none if the key names a field, or is in the object
already, or if there is no value. -/
def copy? (s : Schema) (o : Object) (item : String × Option Value) : Option (String × Value) :=
  if s.declares item.1 || o.contains item.1 then none else item.2.map fun v => (item.1, v)

/-- The entries that items of different keys add to an object. -/
def copiesBeside (s : Schema) (o : Object) (items : List (String × Option Value)) :
    List (String × Value) :=
  items.filterMap (s.copy? o)

/-! ### One item after another -/

section Items

variable {s : Schema} {o : Object} {item : String × Option Value} {entry : String × Value}
  {items : List (String × Option Value)} {key : String}

theorem copy?_eq_some_iff :
    s.copy? o item = some entry ↔
      s.declares item.1 = false ∧ o.contains item.1 = false ∧ item = (entry.1, some entry.2) := by
  obtain ⟨key, value⟩ := item
  unfold copy?
  split
  · next taken =>
    refine iff_of_false (Option.some_ne_none entry).symm fun ⟨unknown, free, _⟩ => ?_
    rw [unknown, free] at taken
    cases taken
  · next free =>
    rw [Bool.or_eq_true, not_or, Bool.not_eq_true, Bool.not_eq_true] at free
    rw [Option.map_eq_some_iff]
    constructor
    · rintro ⟨v, rfl, rfl⟩
      exact ⟨free.1, free.2, rfl⟩
    · rintro ⟨-, -, same⟩
      obtain ⟨rfl, rfl⟩ := Prod.mk.inj same
      exact ⟨entry.2, rfl, rfl⟩

theorem putUnknown_eq (s : Schema) (o : Object) (item : String × Option Value) :
    s.putUnknown o item.1 item.2 = ⟨o.entries ++ (s.copy? o item).toList⟩ := by
  unfold putUnknown copy?
  split
  · exact o.mk_append_nil.symm
  · next free =>
    rw [Bool.or_eq_true, not_or, Bool.not_eq_true, Bool.not_eq_true] at free
    cases item.2 with
    | none => exact o.mk_append_nil.symm
    | some v => exact Object.put_of_not_contains free.2 v

theorem copy?_append (other : entry.1 ≠ item.1) :
    s.copy? ⟨o.entries ++ [entry]⟩ item = s.copy? o item := by
  have found : Object.find? ⟨o.entries ++ [entry]⟩ item.1 = o.find? item.1 := by
    rw [Object.find?, Entries.lookup_append, Entries.lookup, if_neg other]
    exact Option.or_none
  rw [copy?, copy?, Object.contains, found]
  rfl

/-- Items of different keys are copied independently of each other. -/
theorem foldl_putUnknown_eq (distinct : (items.map Prod.fst).Nodup) :
    items.foldl (fun o item => s.putUnknown o item.1 item.2) o =
      ⟨o.entries ++ s.copiesBeside o items⟩ := by
  induction items generalizing o with
  | nil => exact o.mk_append_nil.symm
  | cons item items ih =>
    obtain ⟨other, distinct⟩ := List.nodup_cons.mp distinct
    rw [List.foldl_cons, ih distinct, putUnknown_eq]
    cases copy : s.copy? o item with
    | none =>
      have all : s.copiesBeside o (item :: items) = s.copiesBeside o items :=
        List.filterMap_cons_none copy
      rw [Option.toList_none, o.mk_append_nil, all]
    | some entry =>
      obtain ⟨-, -, rfl⟩ := copy?_eq_some_iff.mp copy
      have rest : s.copiesBeside ⟨o.entries ++ [entry]⟩ items = s.copiesBeside o items :=
        List.filterMap_congr fun item among =>
          copy?_append fun same => other (List.mem_map.mpr ⟨item, among, same.symm⟩)
      have all : s.copiesBeside o ((entry.1, some entry.2) :: items) =
          entry :: s.copiesBeside o items := List.filterMap_cons_some copy
      rw [Option.toList_some, rest, all, List.append_assoc, List.singleton_append]

theorem mem_copiesBeside (copied : entry ∈ s.copiesBeside o items) :
    s.declares entry.1 = false ∧ o.contains entry.1 = false ∧
      (entry.1, some entry.2) ∈ items := by
  obtain ⟨item, among, copy⟩ := List.mem_filterMap.mp copied
  obtain ⟨unknown, free, rfl⟩ := copy?_eq_some_iff.mp copy
  exact ⟨unknown, free, among⟩

/-- The copies keep the order of the items, whatever order of keys it is. -/
theorem pairwise_copiesBeside {R : String → String → Prop}
    (ordered : items.Pairwise fun a b => R a.1 b.1) :
    (s.copiesBeside o items).Pairwise fun a b => R a.1 b.1 := by
  refine ordered.filterMap _ fun a b before a' copyA b' copyB => ?_
  obtain ⟨-, -, rfl⟩ := copy?_eq_some_iff.mp copyA
  obtain ⟨-, -, rfl⟩ := copy?_eq_some_iff.mp copyB
  exact before

theorem lookup_copiesBeside {value : Option Value} (distinct : (items.map Prod.fst).Nodup)
    (among : (key, value) ∈ items) (unknown : s.declares key = false)
    (free : o.contains key = false) : Entries.lookup key (s.copiesBeside o items) = value := by
  have copiesDistinct : ((s.copiesBeside o items).map Prod.fst).Nodup :=
    List.pairwise_map.mpr (pairwise_copiesBeside (List.pairwise_map.mp distinct))
  apply Option.ext
  intro v
  constructor
  · intro found
    obtain ⟨-, -, given⟩ := mem_copiesBeside (Entries.mem_of_lookup found)
    have same := List.inj_on_of_nodup_map distinct given among rfl
    exact (Prod.mk.inj same).2.symm
  · rintro rfl
    exact Entries.lookup_of_mem copiesDistinct
      (List.mem_filterMap.mpr ⟨_, among, copy?_eq_some_iff.mpr ⟨unknown, free, rfl⟩⟩)

theorem lookup_copiesBeside_of_not_mem (absent : key ∉ items.map Prod.fst) :
    Entries.lookup key (s.copiesBeside o items) = none := by
  rw [Entries.lookup_eq_none_iff]
  intro copied
  obtain ⟨entry, among, rfl⟩ := List.mem_map.mp copied
  obtain ⟨-, -, given⟩ := mem_copiesBeside among
  exact absent (List.mem_map_of_mem given)

end Items

/-! ### Whole inputs -/

def copiedMembers (s : Schema) (document : Document) (overlay : Overlay) : List (String × Value) :=
  s.copiesBeside (s.fieldValues document overlay) (memberItems document)

def copiedTexts (s : Schema) (document : Document) (overlay : Overlay) : List (String × Value) :=
  s.copiesBeside ⟨(s.fieldValues document overlay).entries ++ s.copiedMembers document overlay⟩
    (textItems overlay)

/-- A result has the values of the fields, then the copied members and then the copied texts, both
in the order of the bytes of their keys. None of them has the name of a field, and a member counts
where there could be a text. -/
structure CopiedInto (s : Schema) (document : Document) (overlay : Overlay) (r : Object) :
    Prop where
  entries : r.entries = (s.fieldValues document overlay).entries ++
    s.copiedMembers document overlay ++ s.copiedTexts document overlay
  membersOrdered : (s.copiedMembers document overlay).Pairwise fun a b =>
    Text.utf8 a.1 < Text.utf8 b.1
  textsOrdered : (s.copiedTexts document overlay).Pairwise fun a b =>
    Text.utf8 a.1 < Text.utf8 b.1
  unknown : ∀ entry ∈ s.copiedMembers document overlay ++ s.copiedTexts document overlay,
    s.declares entry.1 = false
  kept : ∀ member ∈ document, s.declares member.1 = false →
    (s.fieldValues document overlay).contains member.1 = false →
    r.find? member.1 = Value.ofJson? member.2

section Inputs

variable {s : Schema} {document : Document} {overlay : Overlay} {r : Object} {key : String}

theorem keys_memberItems (document : Document) :
    (memberItems document).map Prod.fst = document.map Prod.fst := by
  rw [memberItems, List.map_map]
  rfl

theorem keys_textItems (overlay : Overlay) : (textItems overlay).map Prod.fst = overlay.keys := by
  rw [textItems, List.map_map]
  rfl

theorem copyUnknown_eq (ordered : Json.InKeyOrder document) (overlay : Overlay) :
    s.copyUnknown document overlay (s.fieldValues document overlay) =
      ⟨(s.fieldValues document overlay).entries ++ s.copiedMembers document overlay ++
        s.copiedTexts document overlay⟩ := by
  have members : ((memberItems document).map Prod.fst).Nodup := by
    rw [keys_memberItems]
    exact Entries.nodup_of_sorted ordered
  have texts : ((textItems overlay).map Prod.fst).Nodup := by
    rw [keys_textItems]
    exact Entries.nodup_of_sorted overlay.sorted
  have items : inputItems document overlay = memberItems document ++ textItems overlay := rfl
  rw [copyUnknown_eq_foldl, items, List.foldl_append, foldl_putUnknown_eq members,
    foldl_putUnknown_eq texts]
  rfl

theorem find?_copied (free : (s.fieldValues document overlay).contains key = false)
    (entries : r.entries = (s.fieldValues document overlay).entries ++
      s.copiedMembers document overlay ++ s.copiedTexts document overlay) :
    r.find? key = (Entries.lookup key (s.copiedMembers document overlay)).or
      (Entries.lookup key (s.copiedTexts document overlay)) := by
  have absent : Entries.lookup key (s.fieldValues document overlay).entries = none := by
    simpa [Object.contains, Object.find?] using free
  rw [Object.find?, entries, Entries.lookup_append, Entries.lookup_append, absent, Option.none_or]

theorem copiedInto_of_examine {merging : Report} (permissive : s.permissive = true)
    (ordered : Json.InKeyOrder document)
    (examined : s.examine document overlay merging = .ok r) : s.CopiedInto document overlay r := by
  obtain ⟨keys, -, rfl⟩ := (s.examine_eq_ok_iff _ _ _ _).mp examined
  obtain ⟨-, -, members⟩ := (s.keyReport_isEmpty_iff _ _ _).mp keys
  have whole : s.completed document overlay = ⟨_⟩ :=
    (if_pos permissive).trans (copyUnknown_eq ordered overlay)
  have byBytes : ∀ {α : Type} {entries : List (String × α)},
      entries.Pairwise (fun a b => a.1 < b.1) →
        entries.Pairwise fun a b => Text.utf8 a.1 < Text.utf8 b.1 := fun sorted =>
    sorted.imp fun before => (Text.lt_iff_utf8_lt _ _).mp before
  constructor
  case entries => rw [whole]
  case membersOrdered =>
    exact pairwise_copiesBeside (R := fun a b => Text.utf8 a < Text.utf8 b)
      (List.pairwise_map.mpr (byBytes ordered))
  case textsOrdered =>
    exact pairwise_copiesBeside (R := fun a b => Text.utf8 a < Text.utf8 b)
      (List.pairwise_map.mpr (byBytes overlay.sorted))
  case unknown =>
    intro entry among
    rcases List.mem_append.mp among with copied | copied
    · exact (mem_copiesBeside copied).1
    · exact (mem_copiesBeside copied).1
  case kept =>
    intro member among unknown free
    have noText : member.1 ∉ (textItems overlay).map Prod.fst := by
      have apart := members member.1 (List.mem_map_of_mem among)
      rw [keys_textItems]
      exact (Entries.lookup_eq_none_iff _ _).mp
        ((documentKeyViolation?_eq_none_iff _ _ _).mp apart).1
    have value : Entries.lookup member.1 (s.copiedMembers document overlay) =
        Value.ofJson? member.2 :=
      lookup_copiesBeside (keys_memberItems document ▸ Entries.nodup_of_sorted ordered)
        (List.mem_map_of_mem among) unknown free
    rw [find?_copied free (congrArg Object.entries whole), value, copiedTexts,
      lookup_copiesBeside_of_not_mem noText, Option.or_none]

end Inputs

/-! ### Embedded documents -/

/-- A document of a schema stands in another one, and has a value in the value of a field there. -/
inductive Embeds : Schema → Document → Overlay → Schema → Document → Object → Prop where
  | field {s t : Schema} {document d : Document} {overlay : Overlay} {f : Field} {place : Place}
      {node : Json} {v : Value} {o : Object} (declared : f ∈ s.fields)
      (shape : f.shape = place.shape t) (given : Entries.lookup f.name document = some node)
      (there : place.node? node = some (.object d))
      (outcome : f.outcome? document overlay = some (.ok v))
      (value : place.value? v = some (.object o)) : Embeds s document overlay t d o
  | within {s t t' : Schema} {document d d' : Document} {overlay : Overlay} {o o' : Object}
      (outer : Embeds s document overlay t d o) (inner : Embeds t d .empty t' d' o') :
      Embeds s document overlay t' d' o'

/-- Each document at a place of a field has a value there. -/
def EmbedsAll (s : Schema) (document : Document) (overlay : Overlay) : Prop :=
  ∀ f ∈ s.fields, ∀ (t : Schema) (place : Place) (node : Json) (d : Document),
    f.shape = place.shape t → Entries.lookup f.name document = some node →
      place.node? node = some (.object d) → ∃ o, s.Embeds document overlay t d o

theorem embedsAll_of_examine {s : Schema} {document : Document} {overlay : Overlay}
    {merging : Report} {r : Object} (examined : s.examine document overlay merging = .ok r) :
    s.EmbedsAll document overlay := by
  intro f declared t place node d shape given there
  obtain ⟨-, fine, -⟩ := (s.examine_eq_ok_iff _ _ _ _).mp examined
  have source := source?_of_given given overlay
  obtain ⟨v, value⟩ := examine_of_fine fine declared source
  have outcome : f.outcome? document overlay = some (.ok v) := by
    rw [f.outcome?_of_source source, value]
  obtain ⟨o, -, held⟩ := value?_of_outcome shape given there outcome
  exact ⟨o, .field declared shape given there outcome held⟩

theorem partOf_of_node? {place : Place} {node : Json} {d : Document}
    (there : place.node? node = some (.object d)) : (Json.object d).PartOf node := by
  cases place with
  | whole =>
    obtain rfl := Option.some.inj there
    exact .whole
  | item index =>
    cases node with
    | array items => exact .item (List.mem_of_getElem? there) .whole
    | _ => cases there

theorem Embeds.examined {s t : Schema} {document d : Document} {overlay : Overlay} {o : Object}
    (embeds : s.Embeds document overlay t d o) (regular : (Json.object document).Regular) :
    t.examine d .empty .empty = .ok o ∧ (Json.object d).Regular := by
  induction embeds with
  | field declared shape given there outcome value =>
    obtain ⟨r, examined, same⟩ := value?_of_outcome shape given there outcome
    obtain rfl := Value.object.inj (Option.some.inj (value.symm.trans same))
    have part := Json.PartOf.member (Entries.mem_of_lookup given) (partOf_of_node? there)
    exact ⟨examined, regular.part part⟩
  | within _ _ outer inner => exact inner (outer regular).2

/-- What is copied into the result of an accepted input, and into the objects of all documents in
it, at any depth. -/
theorem validate_copies {s : Schema} {text : String} {overlays : List Overlay} {r : Object}
    (accepted : s.validate text overlays = .ok r) :
    ∃ document, IsDocument text document ∧
      (s.permissive = true → s.CopiedInto document (mergeOverlays overlays).1 r) ∧
      s.EmbedsAll document (mergeOverlays overlays).1 ∧
      ∀ t d o, s.Embeds document (mergeOverlays overlays).1 t d o →
        (t.permissive = true → t.CopiedInto d .empty o) ∧ t.EmbedsAll d .empty := by
  obtain ⟨document, read, examined⟩ := (s.validate_eq_ok_iff_examine _ _ _).mp accepted
  have read := (readDocument_eq_ok_iff _ _).mp read
  have regular := read.regular
  refine ⟨document, read, fun permissive => ?_, embedsAll_of_examine examined,
    fun t d o embeds => ?_⟩
  · exact copiedInto_of_examine permissive regular.inKeyOrder examined
  · obtain ⟨inner, regular⟩ := embeds.examined regular
    exact ⟨fun permissive => copiedInto_of_examine permissive regular.inKeyOrder inner,
      embedsAll_of_examine inner⟩

def sampleBox : Schema := ⟨[], true⟩

def sampleParcel : Schema :=
  ⟨[⟨"sender", some "part.sender", true, .scalar (.of .string), by decide,
      qualified_some (by decide)⟩,
    ⟨"box", none, true, .object sampleBox, by decide, qualified_none⟩], true⟩

def sampleParcelText : String :=
  "\x7b\"box\":\x7b\"b\":null,\"c\":1\x7d,\"part\":true,\"sender\":\"n\",\"size\":2,\"void\":null\x7d"

def sampleContents : Document := [("b", .null), ("c", .number ['1'])]

def sampleParcelDocument : Document :=
  [("box", .object sampleContents), ("part", .bool true), ("sender", .string "n"),
    ("size", .number ['2']), ("void", .null)]

def sampleContent : Object := ⟨[("c", .scalar (.int .i64) ⟨1, by decide⟩)]⟩

def sampleParcelResult : Object :=
  ⟨[("part", .object ⟨[("sender", .string "n")]⟩), ("box", .object sampleContent),
    ("size", .scalar (.int .i64) ⟨2, by decide⟩), ("note", .string "x")]⟩

/-- The key of a member is in use by a part, and what is null is not copied, nor is it in the box. -/
theorem validate_copies_sampleParcel :
    sampleParcel.validate sampleParcelText [.single "note" "x"] = .ok sampleParcelResult ∧
      sampleParcel.CopiedInto sampleParcelDocument (mergeOverlays [.single "note" "x"]).1
        sampleParcelResult ∧
      sampleBox.CopiedInto sampleContents .empty sampleContent := by
  have read : readDocument sampleParcelText = .ok sampleParcelDocument := rfl
  have accepted : sampleParcel.validate sampleParcelText [.single "note" "x"] =
      .ok sampleParcelResult :=
    (sampleParcel.validate_eq_ok_iff_examine _ _ _).mpr
      ⟨_, read, (sampleParcel.examine_eq_ok_iff _ _ _ _).mpr ⟨rfl, rfl, rfl⟩⟩
  obtain ⟨document, isDocument, copied, -, embedded⟩ := validate_copies accepted
  obtain rfl := Except.ok.inj (read.symm.trans ((readDocument_eq_ok_iff _ _).mpr isDocument))
  have shape : Shape.object sampleBox = Place.whole.shape sampleBox := rfl
  have embeds : sampleParcel.Embeds sampleParcelDocument (mergeOverlays [.single "note" "x"]).1
      sampleBox sampleContents sampleContent :=
    .field (List.mem_cons_of_mem _ List.mem_cons_self) shape rfl rfl rfl rfl
  exact ⟨accepted, copied rfl, (embedded _ _ _ embeds).1 rfl⟩

end Schema

end Intake
