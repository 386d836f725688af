import Intake.Proofs.Report.Paths
import Intake.Proofs.Schema.Keys
import Intake.Proofs.Schema.Storage
import Intake.Proofs.Value.Appended

/-!
# Unknown keys

What a schema copies that lets keys through which name no field, and whether this
changes what is read under the names of its fields.
-/

namespace Intake

namespace Schema

def declaredMembers (s : Schema) (document : Document) : Document :=
  document.filter fun member => s.declares member.1

def declaredTexts (s : Schema) (overlay : Overlay) : Overlay :=
  ⟨overlay.entries.filter fun item => s.declares item.1, overlay.sorted.filter _⟩

/-- What is copied next to the entries of an object: the unknown keys of an input that the object
does not have. -/
def copied (s : Schema) (document : Document) (overlay : Overlay) (o : Object) : Object :=
  (s.copyUnknown document overlay .empty).beyond o

/-! ### Copies -/

def inputItems (document : Document) (overlay : Overlay) : List (String × Option Value) :=
  document.map (fun member => (member.1, Value.ofJson? member.2)) ++
    overlay.entries.map fun item => (item.1, some (.string item.2))

theorem copyUnknown_eq_foldl (s : Schema) (document : Document) (overlay : Overlay) (o : Object) :
    s.copyUnknown document overlay o =
      (inputItems document overlay).foldl (fun o item => s.putUnknown o item.1 item.2) o := by
  rw [inputItems, List.foldl_append, List.foldl_map, List.foldl_map]
  rfl

theorem putUnknown_append (s : Schema) (o c : Object) (key : String) (value : Option Value) :
    s.putUnknown (o.append (c.beyond o)) key value =
      o.append ((s.putUnknown c key value).beyond o) := by
  unfold putUnknown
  rw [Object.contains_append_beyond]
  cases s.declares key with
  | true => rfl
  | false =>
    rw [Bool.false_or, Bool.false_or]
    cases there : c.contains key with
    | true =>
      rw [Bool.or_true]
      rfl
    | false =>
      rw [Bool.or_false]
      cases value with
      | none => cases o.contains key <;> rfl
      | some v =>
        -- A key that the object has goes into the copies alone, and is left out of them again.
        cases own : o.contains key with
        | true =>
          show _ = o.append ((c.put key v).beyond o)
          rw [Object.beyond_put_of_contains own there]
          rfl
        | false => exact Object.append_beyond_put own there v

theorem foldl_putUnknown_append (s : Schema) (items : List (String × Option Value)) (o c : Object) :
    items.foldl (fun o item => s.putUnknown o item.1 item.2) (o.append (c.beyond o)) =
      o.append ((items.foldl (fun o item => s.putUnknown o item.1 item.2) c).beyond o) := by
  induction items generalizing c with
  | nil => rfl
  | cons item items ih => rw [List.foldl_cons, putUnknown_append, ih, List.foldl_cons]

theorem copyUnknown_eq_append (s : Schema) (document : Document) (overlay : Overlay) (o : Object) :
    s.copyUnknown document overlay o = o.append (s.copied document overlay o) := by
  have start : o.append (Object.empty.beyond o) = o := by
    obtain ⟨entries⟩ := o
    exact congrArg Object.mk (List.append_nil entries)
  have whole := s.foldl_putUnknown_append (inputItems document overlay) o .empty
  rw [start] at whole
  rw [copied, copyUnknown_eq_foldl, copyUnknown_eq_foldl, whole]

theorem keys_putUnknown {s : Schema} {o : Object} {key k : String} {value : Option Value}
    (h : k ∈ (s.putUnknown o key value).keys) : k ∈ o.keys ∨ k = key ∧ s.declares key = false := by
  unfold putUnknown at h
  split at h
  · exact .inl h
  · next free =>
    have unknown : s.declares key = false := by
      rw [Bool.or_eq_true, not_or] at free
      exact Bool.eq_false_iff.mpr free.1
    split at h
    · rw [Object.keys_put] at h
      split at h
      · exact .inl h
      · rcases List.mem_append.mp h with h | h
        · exact .inl h
        · exact .inr ⟨List.mem_singleton.mp h, unknown⟩
    · exact .inl h

theorem keys_foldl_putUnknown {s : Schema} {items : List (String × Option Value)} {o : Object}
    {key : String} (h : key ∈ (items.foldl (fun o item => s.putUnknown o item.1 item.2) o).keys) :
    key ∈ o.keys ∨ s.declares key = false ∧ key ∈ items.map Prod.fst := by
  induction items generalizing o with
  | nil => exact .inl h
  | cons item items ih =>
    rcases ih h with before | ⟨unknown, later⟩
    · rcases keys_putUnknown before with old | ⟨rfl, unknown⟩
      · exact .inl old
      · exact .inr ⟨unknown, List.mem_cons_self⟩
    · exact .inr ⟨unknown, List.mem_cons_of_mem _ later⟩

theorem keys_copyUnknown {s : Schema} {document : Document} {overlay : Overlay} {o : Object}
    {key : String} (h : key ∈ (s.copyUnknown document overlay o).keys) :
    key ∈ o.keys ∨
      s.declares key = false ∧ (key ∈ document.map Prod.fst ∨ key ∈ overlay.keys) := by
  rw [copyUnknown_eq_foldl] at h
  rcases keys_foldl_putUnknown h with old | ⟨unknown, given⟩
  · exact .inl old
  · exact .inr ⟨unknown, by simpa [inputItems, SortedMap.keys] using given⟩

/-- What is copied has only unknown keys of the input. -/
theorem keys_copied {s : Schema} {document : Document} {overlay : Overlay} {o : Object}
    {key : String} (h : key ∈ (s.copied document overlay o).keys) :
    s.declares key = false ∧ (key ∈ document.map Prod.fst ∨ key ∈ overlay.keys) := by
  have copy : key ∈ (s.copyUnknown document overlay .empty).keys :=
    (List.filter_sublist.map Prod.fst).subset h
  exact (keys_copyUnknown copy).resolve_left List.not_mem_nil

/-! ### Inputs without unknown keys -/

theorem keys_declaredTexts (s : Schema) (overlay : Overlay) (key : String) :
    key ∈ (s.declaredTexts overlay).keys ↔ key ∈ overlay.keys ∧ s.declares key = true := by
  simp only [SortedMap.keys, declaredTexts, List.mem_map, List.mem_filter]
  constructor
  · rintro ⟨item, ⟨mem, declared⟩, rfl⟩
    exact ⟨⟨item, mem, rfl⟩, declared⟩
  · rintro ⟨⟨item, mem, rfl⟩, declared⟩
    exact ⟨item, ⟨mem, declared⟩, rfl⟩

theorem mergeOverlays_declaredTexts (s : Schema) (overlays : List Overlay) :
    (mergeOverlays (overlays.map s.declaredTexts)).1 =
      s.declaredTexts (mergeOverlays overlays).1 := by
  have kept : (overlays.map s.declaredTexts).flatMap SortedMap.entries =
      (overlays.flatMap SortedMap.entries).filter fun item => s.declares item.1 := by
    rw [List.flatMap_map, List.filter_flatMap]
    rfl
  apply SortedMap.ext_find?
  intro key
  have text := Entries.lookup_filter s.declares key (mergeOverlays overlays).1.entries
  have whole : (mergeOverlays overlays).1.find? key =
      Entries.lookup key (overlays.flatMap SortedMap.entries).reverse := by
    rw [mergeOverlays_eq, find?_foldl_mergeText, SortedMap.find?_empty, Option.or_none]
  rw [mergeOverlays_eq, find?_foldl_mergeText, SortedMap.find?_empty, Option.or_none, kept,
    ← List.filter_reverse, Entries.lookup_filter, ← whole]
  exact text.symm

theorem mergeOverlays_declaredTexts_isEmpty (s : Schema) {overlays : List Overlay}
    (clean : (mergeOverlays overlays).2.isEmpty = true) :
    (mergeOverlays (overlays.map s.declaredTexts)).2.isEmpty = true := by
  rw [mergeOverlays_isEmpty_iff] at clean ⊢
  refine clean.sublist ?_
  rw [List.flatMap_map]
  clear clean
  induction overlays with
  | nil => exact .slnil
  | cons overlay overlays ih =>
    rw [List.flatMap_cons, List.flatMap_cons]
    exact (List.filter_sublist.map Prod.fst).append ih

theorem source?_declared {s : Schema} {f : Field} (hf : f ∈ s.fields) (document : Document)
    (overlay : Overlay) :
    source? (s.declaredMembers document) (s.declaredTexts overlay) f.name =
      source? document overlay f.name := by
  have declared : s.declares f.name = true := (s.declares_iff _).mpr ⟨f, hf, rfl⟩
  have member := Entries.lookup_filter s.declares f.name document
  have text := Entries.lookup_filter s.declares f.name overlay.entries
  rw [if_pos declared] at member text
  have same : (s.declaredTexts overlay).find? f.name = overlay.find? f.name := text
  rw [source?, source?, declaredMembers, member, same]

theorem outcome?_declared {s : Schema} {f : Field} (hf : f ∈ s.fields) (document : Document)
    (overlay : Overlay) :
    f.outcome? (s.declaredMembers document) (s.declaredTexts overlay) =
      f.outcome? document overlay := by
  rw [Field.outcome?, Field.outcome?, source?_declared hf]

theorem fieldReport_declared (s : Schema) (document : Document) (overlay : Overlay) :
    s.fieldReport (s.declaredMembers document) (s.declaredTexts overlay) =
      s.fieldReport document overlay :=
  fieldReport_congr fun _ hf => outcome?_declared hf document overlay

theorem fieldValues_declared (s : Schema) (document : Document) (overlay : Overlay) :
    s.fieldValues (s.declaredMembers document) (s.declaredTexts overlay) =
      s.fieldValues document overlay :=
  fieldValues_congr fun _ hf => outcome?_declared hf document overlay

theorem keyReport_declared_isEmpty {s : Schema} {document : Document} {overlays : List Overlay}
    (clean : (s.keyReport document (mergeOverlays overlays).1
      (mergeOverlays overlays).2).isEmpty = true) :
    (s.keyReport (s.declaredMembers document) (mergeOverlays (overlays.map s.declaredTexts)).1
      (mergeOverlays (overlays.map s.declaredTexts)).2).isEmpty = true := by
  rw [keyReport_isEmpty_iff] at clean ⊢
  obtain ⟨merging, texts, members⟩ := clean
  refine ⟨s.mergeOverlays_declaredTexts_isEmpty merging, ?_, ?_⟩
  · intro key hk
    rw [mergeOverlays_declaredTexts, keys_declaredTexts] at hk
    exact texts key hk.1
  · intro key hk
    have member : key ∈ document.map Prod.fst := (List.filter_sublist.map Prod.fst).subset hk
    have free := members key member
    rw [documentKeyViolation?_eq_none_iff] at free ⊢
    refine ⟨?_, free.2⟩
    have text := Entries.lookup_filter s.declares key (mergeOverlays overlays).1.entries
    rw [mergeOverlays_declaredTexts]
    refine text.trans ?_
    split
    · exact free.1
    · rfl

theorem copyUnknown_declared (s : Schema) (document : Document) (overlay : Overlay) (o : Object) :
    s.copyUnknown (s.declaredMembers document) (s.declaredTexts overlay) o = o := by
  have none : (s.copied (s.declaredMembers document) (s.declaredTexts overlay) o).keys = [] := by
    rw [List.eq_nil_iff_forall_not_mem]
    intro key hk
    obtain ⟨unknown, given⟩ := keys_copied hk
    have declared : s.declares key = true := by
      rcases given with member | text
      · obtain ⟨item, mem, rfl⟩ := List.mem_map.mp member
        exact (List.mem_filter.mp mem).2
      · exact ((s.keys_declaredTexts overlay key).mp text).2
    rw [unknown] at declared
    cases declared
  rw [copyUnknown_eq_append]
  have entries := List.map_eq_nil_iff.mp none
  obtain ⟨own⟩ := o
  rw [Object.append, entries]
  exact congrArg Object.mk (List.append_nil own)

/-- The same input without its unknown keys is accepted too, and the result lacks nothing but what
was copied. -/
theorem validate_declared {s : Schema} (permissive : s.permissive = true) {text text' : String}
    {overlays : List Overlay} {document : Document} {r : Object}
    (read : readDocument text = .ok document)
    (read' : readDocument text' = .ok (s.declaredMembers document))
    (accepted : s.validate text overlays = .ok r) :
    s.validate text' (overlays.map s.declaredTexts) =
        .ok (s.fieldValues document (mergeOverlays overlays).1) ∧
      r = (s.fieldValues document (mergeOverlays overlays).1).append (s.copied document
        (mergeOverlays overlays).1 (s.fieldValues document (mergeOverlays overlays).1)) := by
  obtain ⟨_, same, examined⟩ := (s.validate_eq_ok_iff_examine _ _ _).mp accepted
  obtain rfl := Except.ok.inj (read.symm.trans same)
  obtain ⟨keys, fields, rfl⟩ := (s.examine_eq_ok_iff _ _ _ _).mp examined
  constructor
  · refine (s.validate_eq_ok_iff_examine _ _ _).mpr ⟨_, read', (s.examine_eq_ok_iff _ _ _ _).mpr
      ⟨keyReport_declared_isEmpty keys, ?_, ?_⟩⟩
    · rw [mergeOverlays_declaredTexts, fieldReport_declared]
      exact fields
    · rw [completed, if_pos permissive, mergeOverlays_declaredTexts, fieldValues_declared,
        copyUnknown_declared]
  · rw [completed, if_pos permissive, copyUnknown_eq_append]

/-! ### What unknown keys change -/

theorem get_append_copied_iff (s : Schema) (document : Document) (overlay : Overlay)
    (path : String) :
    let own := s.fieldValues document overlay
    let c := s.copied document overlay own
    (own.append c).get path = own.get path ↔ c.get path = .ok none ∨ c.get path = own.get path := by
  have plain : ∀ key ∈ (s.fieldValues document overlay).keys, '.' ∉ key.toList := by
    rw [fieldValues, values_examineFields]
    exact Object.dotFree_keys_storing _
  exact Object.get_append_eq_iff plain (Object.beyond_apart _ _) path

/-- When unknown keys change what is read under the names of the fields. Without them the input is
accepted too. A value, found by its path or in the flat view, stays as it is exactly if the copies
alone have nothing at its path, or the same. -/
theorem unknown_unchanged_iff {s : Schema} (permissive : s.permissive = true)
    {text text' : String} {overlays : List Overlay} {document : Document} {r : Object}
    (read : readDocument text = .ok document)
    (read' : readDocument text' = .ok (s.declaredMembers document))
    (accepted : s.validate text overlays = .ok r) :
    ∃ r' c, s.validate text' (overlays.map s.declaredTexts) = .ok r' ∧
      c = s.copied document (mergeOverlays overlays).1 r' ∧ r = r'.append c ∧
      ∀ f ∈ s.fields,
        (r.get f.uniqueName = r'.get f.uniqueName ↔
          c.get f.uniqueName = .ok none ∨ c.get f.uniqueName = r'.get f.uniqueName) ∧
        (r.flatten.find? f.uniqueName = r'.flatten.find? f.uniqueName ↔
          c.flatten.find? f.uniqueName = none ∨
            c.flatten.find? f.uniqueName = r'.flatten.find? f.uniqueName) := by
  obtain ⟨accepted', rfl⟩ := validate_declared permissive read read' accepted
  refine ⟨_, _, accepted', rfl, rfl, fun f _ => ⟨?_, ?_⟩⟩
  · exact s.get_append_copied_iff document _ f.uniqueName
  · exact Object.flatten_append_eq_iff _ _ f.uniqueName

/-- A view of a column, among keys that name no field. -/
def sampleView : Schema :=
  ⟨[⟨"view", some "t.c.view", true, .scalar (.of .string), by decide,
    qualified_some (by decide)⟩], true⟩

theorem sampleView_built : sampleView.Built := by
  refine (built_iff _).mpr (.intro ⟨by decide, by decide⟩ fun f hf t ht => ?_)
  obtain rfl := List.mem_singleton.mp hf
  cases ht

def sampleGood : String := "\x7b\"view\":\"good\"\x7d"

def sampleNote : String := "\x7b\"view\":\"good\",\"note\":\"evil\"\x7d"

def sampleEvil : String := "\x7b\"view\":\"good\",\"t.c.view\":\"evil\"\x7d"

def sampleResult : Object := ⟨[("t", .object ⟨[("c", .object ⟨[("view", .string "good")]⟩)]⟩)]⟩

theorem read_sampleGood : readDocument sampleGood = .ok [("view", .string "good")] := rfl

theorem validate_sampleGood : sampleView.validate sampleGood [] = .ok sampleResult :=
  validate_eq_ok_of_clean read_sampleGood rfl rfl rfl

theorem unchanged_sampleView :
    sampleView.permissive = true ∧ ∃ document r r', readDocument sampleNote = .ok document ∧
      readDocument sampleGood = .ok (sampleView.declaredMembers document) ∧
      sampleView.validate sampleNote [] = .ok r ∧
      sampleView.validate sampleGood ([].map sampleView.declaredTexts) = .ok r' ∧
      ∀ f ∈ sampleView.fields, r.get f.uniqueName = r'.get f.uniqueName ∧
        r.flatten.find? f.uniqueName = r'.flatten.find? f.uniqueName := by
  let document : Document := [("note", .string "evil"), ("view", .string "good")]
  have read : readDocument sampleNote = .ok document := rfl
  have accepted : sampleView.validate sampleNote [] =
      .ok (sampleResult.append ⟨[("note", .string "evil")]⟩) :=
    validate_eq_ok_of_clean read rfl rfl rfl
  obtain ⟨r', c, accepted', rfl, -, unchanged⟩ :=
    unknown_unchanged_iff (s := sampleView) rfl read read_sampleGood accepted
  obtain rfl := Except.ok.inj (accepted'.symm.trans validate_sampleGood)
  refine ⟨rfl, document, _, _, read, read_sampleGood, accepted, accepted', fun f hf => ?_⟩
  obtain rfl := List.mem_singleton.mp hf
  obtain ⟨byPath, flat⟩ := unchanged _ List.mem_cons_self
  exact ⟨byPath.mpr (.inl rfl), flat.mpr (.inl rfl)⟩

/-- A key that is the whole name of the field is found before what the field stored. -/
theorem changed_sampleView :
    sampleView.Built ∧ sampleView.permissive = true ∧ ∃ document r r',
      readDocument sampleEvil = .ok document ∧
      readDocument sampleGood = .ok (sampleView.declaredMembers document) ∧
      sampleView.validate sampleEvil [] = .ok r ∧
      sampleView.validate sampleGood ([].map sampleView.declaredTexts) = .ok r' ∧
      ¬ ∀ f ∈ sampleView.fields, r.get f.uniqueName = r'.get f.uniqueName ∧
        r.flatten.find? f.uniqueName = r'.flatten.find? f.uniqueName := by
  let document : Document := [("t.c.view", .string "evil"), ("view", .string "good")]
  have read : readDocument sampleEvil = .ok document := rfl
  have accepted : sampleView.validate sampleEvil [] =
      .ok (sampleResult.append ⟨[("t.c.view", .string "evil")]⟩) :=
    validate_eq_ok_of_clean read rfl rfl rfl
  refine ⟨sampleView_built, rfl, document, _, _, read, read_sampleGood, accepted,
    validate_sampleGood, fun same => ?_⟩
  obtain ⟨byPath, -⟩ := same _ List.mem_cons_self
  have evil : (sampleResult.append ⟨[("t.c.view", .string "evil")]⟩).get "t.c.view" =
      .ok (some (.string "evil")) := rfl
  have good : sampleResult.get "t.c.view" = .ok (some (.string "good")) := rfl
  have forged : (some (Value.string "evil")) = some (.string "good") :=
    Except.ok.inj (evil.symm.trans (byPath.trans good))
  simp [Value.string] at forged

end Schema

/-! ### Keys that lead elsewhere -/

theorem pathWithin_entryPath {path : String} (named : path ≠ "") (key : String) :
    PathWithin path (entryPath path key) ∧ entryPath path key ≠ "" := by
  rw [entryPath, if_neg named]
  refine ⟨⟨'.' :: key.toList, by simp, by simp [isSeparator]⟩, ?_⟩
  intro same
  have lengths := congrArg String.length same
  simp [show ".".length = 1 from rfl] at lengths

theorem pathWithin_of_mem_leaves (path : String) (v : Value) :
    path ≠ "" → ∀ leaf ∈ v.leaves path, PathWithin path leaf.1 := by
  refine Value.leaves.induct
    (fun path v => path ≠ "" → ∀ leaf ∈ v.leaves path, PathWithin path leaf.1)
    (fun path o => path ≠ "" → ∀ leaf ∈ o.leaves path, PathWithin path leaf.1)
    (fun path es => path ≠ "" → ∀ leaf ∈ leavesOfEntries path es, PathWithin path leaf.1)
    ?_ ?_ ?_ ?_ ?_ ?_ path v
  · intro path o ih
    exact ih
  · intro path kind a _ leaf hl
    obtain rfl := List.mem_singleton.mp hl
    exact .refl path
  · intro path items _ leaf hl
    obtain rfl := List.mem_singleton.mp hl
    exact .refl path
  · intro path entries ih
    exact ih
  · intro path _ leaf hl
    exact absurd hl List.not_mem_nil
  · intro path key value rest first others named leaf hl
    obtain ⟨within, longer⟩ := pathWithin_entryPath named key
    rw [leavesOfEntries] at hl
    rcases List.mem_append.mp hl with hl | hl
    · exact within.trans (first longer leaf hl)
    · exact others named leaf hl

theorem mem_leavesOfEntries {path : String} {entries : List (String × Value)}
    {leaf : String × Value} (h : leaf ∈ leavesOfEntries path entries) :
    ∃ e ∈ entries, leaf ∈ e.2.leaves (entryPath path e.1) := by
  induction entries with
  | nil => exact absurd h List.not_mem_nil
  | cons e entries ih =>
    rw [leavesOfEntries] at h
    rcases List.mem_append.mp h with here | later
    · exact ⟨e, List.mem_cons_self, here⟩
    · obtain ⟨other, ho, found⟩ := ih later
      exact ⟨other, List.mem_cons_of_mem e ho, found⟩

namespace Object

theorem get_eq_none_of_outside {c : Object} {path : String}
    (outside : ∀ key ∈ c.keys, ¬ PathWithin key path) : c.get path = .ok none := by
  have whole : c.find? path = none :=
    find?_eq_none_of_not_mem fun hm => outside path hm (.refl path)
  have joined := Text.joinDots_segments path
  have begins : PathWithin (Text.segments path).1 path := by
    cases rest : (Text.segments path).2 with
    | nil =>
      have same : (Text.segments path).1 = path := by
        rw [rest] at joined
        exact joined
      rw [same]
      exact .refl path
    | cons next more =>
      rw [rest] at joined
      have split : path.toList = (Text.segments path).1.toList ++
          '.' :: (Text.joinDots next more).toList := by
        have texts := congrArg String.toList joined
        rw [← texts]
        simp [Text.joinDots]
      exact ⟨_, split, by simp [isSeparator]⟩
  have start : c.find? (Text.segments path).1 = none :=
    find?_eq_none_of_not_mem fun hm => outside _ hm begins
  have walk : (Value.object c).walk (Text.segments path).1 (Text.segments path).2 = .ok none := by
    cases rest : (Text.segments path).2 with
    | nil => rw [walk_nil, start]
    | cons next more =>
      rw [rest] at joined
      rw [walk_cons, joined, whole, start]
  show ((Value.object c).walk (Text.segments path).1 (Text.segments path).2).mapError _ = _
  rw [walk]
  rfl

theorem flatten_eq_none_of_outside {c : Object} {path : String}
    (outside : ∀ key ∈ c.keys, key ≠ "" ∧ ¬ PathWithin key path) :
    c.flatten.find? path = none := by
  rw [flatten, SortedMap.find?_ofList, Entries.lookup_eq_none_iff]
  intro hm
  obtain ⟨leaf, hl, rfl⟩ := List.mem_map.mp hm
  obtain ⟨entries⟩ := c
  obtain ⟨e, he, found⟩ := mem_leavesOfEntries (List.mem_reverse.mp hl)
  rw [entryPath, if_pos rfl] at found
  obtain ⟨named, apart⟩ := outside e.1 (List.mem_map_of_mem he)
  exact apart (pathWithin_of_mem_leaves e.1 e.2 named leaf found)

end Object

/-- Unknown keys that are not empty and do not lead to the names of fields change nothing under
them. -/
theorem Schema.unknown_unchanged_of_outside {s : Schema} (permissive : s.permissive = true)
    {document : Document} {overlay : Overlay} {merging : Report} {r : Object}
    (accepted : s.examine document overlay merging = .ok r)
    (outside : ∀ key, key ∈ document.map Prod.fst ∨ key ∈ overlay.keys → s.declares key = false →
      key ≠ "" ∧ ∀ f ∈ s.fields, ¬ PathWithin key f.uniqueName) :
    ∀ f ∈ s.fields, r.get f.uniqueName = (s.fieldValues document overlay).get f.uniqueName ∧
      r.flatten.find? f.uniqueName =
        (s.fieldValues document overlay).flatten.find? f.uniqueName := by
  intro f hf
  obtain ⟨-, -, rfl⟩ := (s.examine_eq_ok_iff _ _ _ _).mp accepted
  have elsewhere : ∀ key ∈ (s.copied document overlay (s.fieldValues document overlay)).keys,
      key ≠ "" ∧ ¬ PathWithin key f.uniqueName := by
    intro key hk
    obtain ⟨unknown, given⟩ := keys_copied hk
    exact (outside key given unknown).imp_right fun apart => apart f hf
  rw [completed, if_pos permissive, copyUnknown_eq_append]
  constructor
  · exact (s.get_append_copied_iff document overlay f.uniqueName).mpr
      (.inl (Object.get_eq_none_of_outside fun key hk => (elsewhere key hk).2))
  · exact (Object.flatten_append_eq_iff _ _ f.uniqueName).mpr
      (.inl (Object.flatten_eq_none_of_outside elsewhere))

end Intake
