import Intake.Proofs.Schema.Unknown
import Intake.Proofs.Text.ByteOrder
import Intake.Proofs.Value.Keyed

/-!
# Edits of results

The result of a validation can be edited: entries are added and replaced. An edit that may not be
made leaves the object as it was, so that a run of edits does what those of its edits do that were
made. New entries go to the end, and no entry changes its place.
-/

namespace Intake

inductive Edit where
  | add (key : String) (value : Value)
  | update (key : String) (value : Value)

namespace Edit

variable {e : Edit} {o o' : Object}

def key : Edit → String
  | add key _ | update key _ => key

def value : Edit → Value
  | add _ value | update _ value => value

def newKey? : Edit → Option String
  | add key _ => some key
  | update _ _ => none

def apply (o : Object) : Edit → Except Misuse Object
  | add key value => o.add key value
  | update key value => o.update key value

def Fits (o : Object) : Edit → Prop
  | add key _ => '.' ∉ key.toList ∧ key ∉ o.keys
  | update key _ => key ∈ o.keys

theorem apply_eq_ok_iff : e.apply o = .ok o' ↔ e.Fits o ∧ o' = o.put e.key e.value := by
  cases e with
  | add key value =>
    rw [apply, Object.add_eq_ok_iff, ← Bool.not_eq_true, Object.contains_iff, ← and_assoc]
    rfl
  | update key value =>
    rw [apply, Object.update_eq_ok_iff, Object.contains_iff]
    rfl

theorem Fits.apply_eq (fits : e.Fits o) : e.apply o = .ok (o.put e.key e.value) :=
  apply_eq_ok_iff.mpr ⟨fits, rfl⟩

theorem apply_eq_error_iff : (∃ misuse, e.apply o = .error misuse) ↔ ¬ e.Fits o := by
  cases result : e.apply o with
  | error misuse =>
    have unfit : ¬ e.Fits o := by
      intro fits
      rw [fits.apply_eq] at result
      cases result
    exact ⟨fun _ => unfit, fun _ => ⟨misuse, rfl⟩⟩
  | ok o' =>
    have fits := (apply_eq_ok_iff.mp result).1
    refine ⟨?_, fun unfit => absurd fits unfit⟩
    rintro ⟨misuse, failed⟩
    cases failed

theorem keys_put_of_fits (fits : e.Fits o) :
    (o.put e.key e.value).keys = o.keys ++ e.newKey?.toList := by
  rw [Object.keys_put]
  cases e with
  | add key value => exact if_neg fits.2
  | update key value => exact (if_pos fits).trans (List.append_nil _).symm

end Edit

namespace Object

/-! ### Runs of edits -/

variable {o : Object} {e : Edit}

def attempt (o : Object) (e : Edit) : Object :=
  match e.apply o with
  | .ok o' => o'
  | .error _ => o

def attemptAll (o : Object) (edits : List Edit) : Object := edits.foldl attempt o

def performed (o : Object) : List Edit → List Edit
  | [] => []
  | e :: edits =>
    match e.apply o with
    | .ok o' => e :: o'.performed edits
    | .error _ => o.performed edits

/-- What a run writes under which key. -/
def written (o : Object) (edits : List Edit) : List (String × Value) :=
  (o.performed edits).map fun e => (e.key, e.value)

theorem attempt_of_fits (fits : e.Fits o) : o.attempt e = o.put e.key e.value := by
  unfold attempt
  rw [fits.apply_eq]

theorem attempt_of_not_fits (unfit : ¬ e.Fits o) : o.attempt e = o := by
  obtain ⟨misuse, failed⟩ := Edit.apply_eq_error_iff.mpr unfit
  unfold attempt
  rw [failed]

theorem performed_of_fits (fits : e.Fits o) (edits : List Edit) :
    o.performed (e :: edits) = e :: (o.put e.key e.value).performed edits := by
  rw [performed, fits.apply_eq]

theorem performed_of_not_fits (unfit : ¬ e.Fits o) (edits : List Edit) :
    o.performed (e :: edits) = o.performed edits := by
  obtain ⟨misuse, failed⟩ := Edit.apply_eq_error_iff.mpr unfit
  rw [performed, failed]

theorem attemptAll_cons (o : Object) (e : Edit) (edits : List Edit) :
    o.attemptAll (e :: edits) = (o.attempt e).attemptAll edits := rfl

theorem attemptAll_concat (o : Object) (edits : List Edit) (e : Edit) :
    o.attemptAll (edits ++ [e]) = (o.attemptAll edits).attempt e := List.foldl_concat _ _ _ _

/-- The edits that are not made leave no trace. -/
theorem attemptAll_performed (o : Object) (edits : List Edit) :
    o.attemptAll (o.performed edits) = o.attemptAll edits := by
  induction edits generalizing o with
  | nil => rfl
  | cons e edits ih =>
    by_cases fits : e.Fits o
    · rw [performed_of_fits fits, attemptAll_cons, attemptAll_cons, attempt_of_fits fits, ih]
    · rw [performed_of_not_fits fits, attemptAll_cons, attempt_of_not_fits fits, ih]

theorem keys_attemptAll (o : Object) (edits : List Edit) :
    (o.attemptAll edits).keys = o.keys ++ (o.performed edits).filterMap Edit.newKey? := by
  induction edits generalizing o with
  | nil => exact (List.append_nil _).symm
  | cons e edits ih =>
    rw [attemptAll_cons, ih]
    by_cases fits : e.Fits o
    · rw [attempt_of_fits fits, performed_of_fits fits, Edit.keys_put_of_fits fits,
        List.append_assoc]
      cases e <;> rfl
    · rw [attempt_of_not_fits fits, performed_of_not_fits fits]

theorem find?_attemptAll (o : Object) (edits : List Edit) (key : String) :
    (o.attemptAll edits).find? key =
      (Entries.lookup key (o.written edits).reverse).or (o.find? key) := by
  induction edits generalizing o with
  | nil => rfl
  | cons e edits ih =>
    rw [attemptAll_cons, ih]
    unfold written
    by_cases fits : e.Fits o
    · rw [attempt_of_fits fits, performed_of_fits fits, find?_put, List.map_cons,
        List.reverse_cons, Entries.lookup_append, Option.or_assoc]
      by_cases same : e.key = key
      · simp [Entries.lookup, same]
      · simp [Entries.lookup, same]
    · rw [attempt_of_not_fits fits, performed_of_not_fits fits]

theorem nodup_keys_attemptAll (distinct : o.keys.Nodup) (edits : List Edit) :
    (o.attemptAll edits).keys.Nodup := by
  induction edits generalizing o with
  | nil => exact distinct
  | cons e edits ih =>
    rw [attemptAll_cons]
    by_cases fits : e.Fits o
    · rw [attempt_of_fits fits]
      exact ih (Entries.nodup_put distinct e.key e.value)
    · rw [attempt_of_not_fits fits]
      exact ih distinct

/-- What a run wrote last under a key is read there, and what there was, if it wrote nothing. -/
theorem get_attemptAll (o : Object) (edits : List Edit) {key : String} (plain : '.' ∉ key.toList) :
    (∀ v, Entries.LastWrite (o.written edits) key v →
      (o.attemptAll edits).get key = .ok (some v)) ∧
    (key ∉ (o.written edits).map Prod.fst → (o.attemptAll edits).get key = o.get key) := by
  simp only [get_of_dotFree _ plain, find?_attemptAll]
  constructor
  · intro v last
    rw [(Entries.lastWrite_iff _ _ _).mp last]
    rfl
  · intro unwritten
    rw [(Entries.lookup_reverse_eq_none_iff _ _).mpr unwritten]
    rfl

/-! ### Sorted keys -/

theorem fields_perm (o : Object) : o.fields.Perm o.keys := List.mergeSort_perm _ _

theorem fields_pairwise_utf8 (distinct : o.keys.Nodup) :
    o.fields.Pairwise fun a b => Text.utf8 a < Text.utf8 b := by
  have sorted : o.fields.Pairwise fun a b => decide (a ≤ b) = true := by
    apply List.pairwise_mergeSort
    · intro a b c first second
      simp only [decide_eq_true_eq] at first second ⊢
      exact String.le_trans first second
    · intro a b
      simpa only [Bool.or_eq_true, decide_eq_true_eq] using String.le_total a b
  have apart : o.fields.Pairwise (· ≠ ·) := o.fields_perm.nodup_iff.mpr distinct
  refine (sorted.and apart).imp ?_
  intro a b ⟨upTo, other⟩
  rw [← Text.lt_iff_utf8_lt]
  exact Std.lt_of_le_of_ne (of_decide_eq_true upTo) other

/-! ### Results -/

theorem nodup_keys_putNested (distinct : o.keys.Nodup) (first : String) (rest : List String)
    (value : Value) : (o.putNested first rest value).keys.Nodup := by
  cases rest with
  | nil => exact Entries.nodup_put distinct first value
  | cons next rest =>
    rw [putNested_cons]
    exact Entries.nodup_put distinct first _

theorem nodup_keys_storing (items : List (String × Value)) : (storing items).keys.Nodup := by
  induction items using List.reverseRecOn with
  | nil => exact List.nodup_nil
  | append_singleton items item ih =>
    rw [storing_concat]
    exact nodup_keys_putNested ih _ _ item.2

end Object

namespace Schema

variable {s : Schema} {o : Object}

theorem nodup_keys_putUnknown (distinct : o.keys.Nodup) (key : String) (value : Option Value) :
    (s.putUnknown o key value).keys.Nodup := by
  unfold putUnknown
  split
  · exact distinct
  · cases value with
    | none => exact distinct
    | some v => exact Entries.nodup_put distinct key v

theorem nodup_keys_copyUnknown (distinct : o.keys.Nodup) (document : Document) (overlay : Overlay) :
    (s.copyUnknown document overlay o).keys.Nodup := by
  rw [copyUnknown_eq_foldl]
  induction inputItems document overlay generalizing o with
  | nil => exact distinct
  | cons item items ih => exact ih (nodup_keys_putUnknown distinct item.1 item.2)

theorem nodup_keys_of_validate {text : String} {overlays : List Overlay} {r : Object}
    (accepted : s.validate text overlays = .ok r) : r.keys.Nodup := by
  obtain ⟨document, -, examined⟩ := (s.validate_eq_ok_iff_examine _ _ _).mp accepted
  obtain ⟨-, -, rfl⟩ := (s.examine_eq_ok_iff _ _ _ _).mp examined
  have distinct : (s.fieldValues document (mergeOverlays overlays).1).keys.Nodup := by
    rw [fieldValues, values_examineFields]
    exact Object.nodup_keys_storing _
  unfold completed
  split
  · exact nodup_keys_copyUnknown distinct _ _
  · exact distinct

end Schema

namespace Object

/-- The objects that edits start from: the empty one and the results of validations. -/
inductive Initial : Object → Prop where
  | empty : Initial empty
  | result {s : Schema} {text : String} {overlays : List Overlay} {r : Object}
      (accepted : s.validate text overlays = .ok r) : Initial r

theorem Initial.nodup_keys {o : Object} (initial : o.Initial) : o.keys.Nodup := by
  cases initial with
  | empty => exact List.nodup_nil
  | result accepted => exact Schema.nodup_keys_of_validate accepted

/-- After any run of edits, an addition is refused exactly if its key has a dot or is in use, and a
replacement exactly if its key is not in use; an edit that is refused leaves the object as it was.
Under a key without dots there is what was written last, or what there was at first. New keys stand
behind the others in the order in which they were added, and the sorted keys are all keys, each
once and in the order of their bytes. -/
theorem edits_exact {o : Object} (initial : o.Initial) (edits : List Edit) :
    let now := o.attemptAll edits
    (∀ key value, (∃ misuse, now.add key value = .error misuse) ↔
      '.' ∈ key.toList ∨ key ∈ now.keys) ∧
    (∀ key value, (∃ misuse, now.update key value = .error misuse) ↔ key ∉ now.keys) ∧
    (∀ e misuse, e.apply now = .error misuse → o.attemptAll (edits ++ [e]) = now) ∧
    (∀ e next, e.apply now = .ok next → o.attemptAll (edits ++ [e]) = next) ∧
    o.attemptAll (o.performed edits) = now ∧
    (∀ key, '.' ∉ key.toList →
      (∀ v, Entries.LastWrite (o.written edits) key v → now.get key = .ok (some v)) ∧
      (key ∉ (o.written edits).map Prod.fst → now.get key = o.get key)) ∧
    now.keys = o.keys ++ (o.performed edits).filterMap Edit.newKey? ∧
    now.keys.Nodup ∧ now.fields.Perm now.keys ∧
    now.fields.Pairwise fun a b => Text.utf8 a < Text.utf8 b := by
  intro now
  have distinct : now.keys.Nodup := nodup_keys_attemptAll initial.nodup_keys edits
  refine ⟨?add, ?update, ?refused, ?made, o.attemptAll_performed edits,
    fun key plain => o.get_attemptAll edits plain, o.keys_attemptAll edits, distinct,
    now.fields_perm, fields_pairwise_utf8 distinct⟩
  case add =>
    intro key value
    refine (Edit.apply_eq_error_iff (e := .add key value)).trans ?_
    rw [Edit.Fits, not_and_or, not_not, not_not]
  case update =>
    intro key value
    exact Edit.apply_eq_error_iff (e := .update key value)
  case refused =>
    intro e misuse failed
    rw [attemptAll_concat, attempt, failed]
  case made =>
    intro e next made
    rw [attemptAll_concat, attempt, made]

def sampleNotesText : String := "\x7b\"t.a\":\"x\",\"k\":\"y\"\x7d"

/-- What a schema without fields copies, one key with a dot. -/
def sampleNotes : Object := ⟨[("k", .string "y"), ("t.a", .string "x")]⟩

theorem read_sampleNotesText :
    readDocument sampleNotesText = .ok [("k", .string "y"), ("t.a", .string "x")] := rfl

theorem validate_sampleNotes :
    (⟨[], true⟩ : Schema).validate sampleNotesText [] = .ok sampleNotes :=
  Schema.validate_eq_ok_of_clean read_sampleNotesText rfl rfl rfl

def sampleEdits : List Edit :=
  [.add "k" (.string "z"), .update "t.a" (.bool true), .add "n" (.bool false),
    .update "k" (.string "w"), .add "a.b" (.string "z")]

/-- The first and the last of the edits are refused. -/
theorem edits_exact_sampleNotes :
    sampleNotes.Initial ∧
      (sampleNotes.attemptAll sampleEdits).keys = ["k", "t.a", "n"] ∧
      (sampleNotes.attemptAll sampleEdits).get "k" = .ok (some (.string "w")) ∧
      (sampleNotes.attemptAll sampleEdits).get "n" = .ok (some (.bool false)) ∧
      ∃ misuse, (sampleNotes.attemptAll sampleEdits).add "t.a" (.bool true) = .error misuse := by
  have initial : sampleNotes.Initial := .result validate_sampleNotes
  obtain ⟨refused, -, -, -, -, reads, keys, -⟩ := edits_exact initial sampleEdits
  have written : sampleNotes.written sampleEdits =
      [("t.a", .bool true), ("n", .bool false), ("k", .string "w")] := rfl
  have last : Entries.LastWrite (sampleNotes.written sampleEdits) "k" (.string "w") :=
    ⟨[("t.a", .bool true), ("n", .bool false)], [], written, List.not_mem_nil⟩
  have once : Entries.LastWrite (sampleNotes.written sampleEdits) "n" (.bool false) :=
    ⟨[("t.a", .bool true)], [("k", .string "w")], written, by decide⟩
  exact ⟨initial, keys, (reads "k" (by decide)).1 _ last, (reads "n" (by decide)).1 _ once,
    (refused "t.a" _).mpr (.inl (by decide))⟩

end Object

end Intake
