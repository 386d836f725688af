import Intake.Proofs.Numeral.Rounding
import Intake.Proofs.Schema.Columns
import Intake.Proofs.Schema.Copies

/-!
# Values of undeclared trees

A tree whose type nothing declares has a value unless it is null, and arrays and objects have the
values of all that is not null in them. A number that is rounded to infinity is the one exception:
it has no value either, and is left out as if it were null.
-/

namespace Intake

open Numeral (IntegerLiteral Literal Format Binary)

namespace Json

/-- The text names a decimal that is rounded to infinity, because it is at least half a unit above
the greatest number. -/
def Beyond (text : List Char) : Prop :=
  ∃ negative digits exponent, Literal.read? text = some (.decimal negative digits exponent) ∧
    (2 ^ 54 - 1) * 2 ^ 970 ≤ (digits : ℚ) * 10 ^ exponent

/-- A tree has no value only if it is null, and what stands in it is left out only if it is null. -/
structure DropsOnlyNull (j : Json) : Prop where
  none_iff : Value.ofJson? j = none ↔ j = .null
  array : ∀ items, j = .array items → ∃ values, Value.ofJson? j = some (.array values) ∧
    List.Forall₂ (fun item v => Value.ofJson? item = some v)
      (items.filter fun item => item.form ≠ .null) values
  object : ∀ members, j = .object members → ∃ o, Value.ofJson? j = some (.object o) ∧
    List.Forall₂ (fun member entry => entry.1 = member.1 ∧ Value.ofJson? member.2 = some entry.2)
      (members.filter fun member => member.2.form ≠ .null) o.entries

end Json

/-! ### Numbers -/

theorem isFinite_ofDecimal_iff (negative : Bool) (digits : Nat) (exponent : Int) :
    (Binary.ofDecimal .double negative digits exponent).isFinite = true ↔
      ¬ (2 ^ 54 - 1) * 2 ^ 970 ≤ (digits : ℚ) * 10 ^ exponent := by
  rw [← Format.limit_double, ← Format.nearestDecimal_eq_top_iff (by decide) (by decide)]
  have bounded := Format.double.nearestDecimal_le_top digits exponent
  rw [Binary.ofDecimal, Binary.isFinite, decide_eq_true_iff]
  omega

theorem IntKind.natAbs_lt {k : IntKind} (n : k.Number) : n.value.natAbs < 2 ^ 64 := by
  have range := n.in_range
  cases k <;> dsimp only [IntKind.low, IntKind.high] at range <;> omega

/-- What is read as an integer of a kind is far below all that is rounded to infinity. -/
theorem not_beyond_of_literal {signed : Bool} {cs : List Char} {k : IntKind} {n : k.Number}
    (literal : IntegerLiteral signed cs n.value) : ¬ Json.Beyond cs := by
  rintro ⟨negative, digits, exponent, read, beyond⟩
  obtain ⟨_, decimal⟩ := literal.decimal
  have named := (Numeral.read?_eq_decimal_iff _ _ _ _).mpr decimal
  obtain ⟨-, rfl, rfl⟩ := Literal.decimal.inj (Option.some.inj (read.symm.trans named))
  have small : (n.value.natAbs : ℚ) < 2 ^ 64 := by exact_mod_cast IntKind.natAbs_lt n
  have large : (2 : ℚ) ^ 64 ≤ (2 ^ 54 - 1) * 2 ^ 970 := by
    calc (2 : ℚ) ^ 64 ≤ 2 ^ 970 := pow_le_pow_right₀ one_le_two (by decide)
      _ ≤ (2 ^ 54 - 1) * 2 ^ 970 := le_mul_of_one_le_left (by positivity) (by norm_num)
  rw [zpow_zero, mul_one] at beyond
  exact absurd beyond (not_le.mpr (small.trans_le large))

theorem literal_of_bind {α : Type} {toInt : α → Int} {signed : Bool} {cs : List Char} {k : IntKind}
    {n : k.Number} {found : Except Numeral.IntegerFault α}
    (literal : ∀ a, found = .ok a → IntegerLiteral signed cs (toInt a))
    (read : found.toOption.bind (fun a => k.ofInt? (toInt a)) = some n) :
    IntegerLiteral signed cs n.value := by
  cases found with
  | error fault => cases read
  | ok a =>
    rw [(k.ofInt?_eq_some_iff _ n).mp read]
    exact literal a rfl

theorem untypedNumber_eq_none_iff {cs : List Char} (number : Json.NumberText cs) :
    untypedNumber cs = none ↔ Json.Beyond cs := by
  unfold untypedNumber
  split
  · next n found =>
    have literal := literal_of_bind (fun _ => Numeral.literal_of_readSigned) found
    exact iff_of_false (Option.some_ne_none _) (not_beyond_of_literal literal)
  split
  · next n found =>
    have literal := literal_of_bind (fun _ => Numeral.literal_of_readUnsigned) found
    exact iff_of_false (Option.some_ne_none _) (not_beyond_of_literal literal)
  · obtain ⟨negative, digits, exponent, decimal⟩ := number.decimal
    have read := (Numeral.read?_eq_decimal_iff _ _ _ _).mpr decimal
    have finite := isFinite_ofDecimal_iff negative digits exponent
    have beyond : Json.Beyond cs ↔ (2 ^ 54 - 1) * 2 ^ 970 ≤ (digits : ℚ) * 10 ^ exponent := by
      constructor
      · rintro ⟨_, _, _, read', beyond⟩
        obtain ⟨-, rfl, rfl⟩ := Literal.decimal.inj (Option.some.inj (read'.symm.trans read))
        exact beyond
      · exact fun beyond => ⟨negative, digits, exponent, read, beyond⟩
    rw [beyond, read]
    show (if (Binary.ofDecimal .double negative digits exponent).isFinite then _ else _) = none ↔ _
    split
    · next within => exact iff_of_false (Option.some_ne_none _) (finite.mp within)
    · next infinite => exact iff_of_true rfl (not_not.mp (mt finite.mpr infinite))

/-! ### Trees -/

theorem itemsOfJson_eq (items : List Json) : itemsOfJson items = items.filterMap Value.ofJson? := by
  induction items with
  | nil => rfl
  | cons item rest ih =>
    rw [itemsOfJson, ih, List.filterMap_cons]
    cases Value.ofJson? item <;> rfl

theorem entriesOfJson_eq (members : List (String × Json)) :
    entriesOfJson members =
      members.filterMap fun member => (Value.ofJson? member.2).map fun v => (member.1, v) := by
  induction members with
  | nil => rfl
  | cons member rest ih =>
    rw [entriesOfJson, ih, List.filterMap_cons]
    cases Value.ofJson? member.2 <;> rfl

namespace Json

theorem Regular.ofJson?_eq_none_iff {j : Json} (regular : j.Regular) :
    Value.ofJson? j = none ↔ j = .null ∨ ∃ cs, j = .number cs ∧ Beyond cs := by
  cases regular with
  | null => simp [Value.ofJson?]
  | number number => simp [Value.ofJson?, untypedNumber_eq_none_iff number]
  | _ => simp [Value.ofJson?]

theorem form_eq_null_iff (j : Json) : j.form = .null ↔ j = .null := by
  cases j <;> simp [form]

/-- Where no number is rounded to infinity only null is dropped. -/
theorem Regular.dropsOnlyNull {j : Json} (regular : j.Regular)
    (within : ∀ cs, (Json.number cs).PartOf j → ¬ Beyond cs) : j.DropsOnlyNull := by
  have none_iff : ∀ part : Json, part.PartOf j → (Value.ofJson? part = none ↔ part = .null) := by
    intro part inside
    rw [(regular.part inside).ofJson?_eq_none_iff, or_iff_left]
    rintro ⟨cs, rfl, beyond⟩
    exact within cs inside beyond
  have kept : ∀ part : Json, part.PartOf j → decide (part.form ≠ .null) = true →
      ∃ v, Value.ofJson? part = some v := by
    intro part inside present
    rw [decide_eq_true_iff, ne_eq, form_eq_null_iff, ← none_iff part inside] at present
    exact Option.ne_none_iff_exists'.mp present
  have dropped : ∀ part : Json, part.PartOf j → decide (part.form ≠ .null) = false →
      Value.ofJson? part = none := by
    intro part inside absent
    rw [decide_eq_false_iff_not, not_not, form_eq_null_iff] at absent
    exact (none_iff part inside).mpr absent
  constructor
  case none_iff => exact none_iff j .whole
  case array =>
    rintro items rfl
    refine ⟨_, rfl, ?_⟩
    rw [itemsOfJson_eq]
    refine forall₂_filter_filterMap (fun item among present => ?_) fun item among absent => ?_
    · obtain ⟨v, value⟩ := kept item (.item among .whole) present
      exact ⟨v, value, value⟩
    · exact dropped item (.item among .whole) absent
  case object =>
    rintro members rfl
    refine ⟨_, rfl, ?_⟩
    rw [entriesOfJson_eq]
    refine forall₂_filter_filterMap (fun member among present => ?_) fun member among absent => ?_
    · obtain ⟨v, value⟩ := kept member.2 (.member among .whole) present
      rw [value]
      exact ⟨(member.1, v), rfl, rfl, rfl⟩
    · rw [dropped member.2 (.member among .whole) absent]
      rfl

end Json

/-! ### Members that are let through -/

/-- A member that names no field, and whose key the values of the fields leave free, is in the
result unless it is null or rounded to infinity. -/
theorem Schema.contains_unknown_iff {s : Schema} {text : String} {overlays : List Overlay}
    {document : Document} {r : Object} (permissive : s.permissive = true)
    (read : IsDocument text document) (accepted : s.validate text overlays = .ok r)
    {member : String × Json} (among : member ∈ document) (unknown : s.declares member.1 = false)
    (free : (s.fieldValues document (mergeOverlays overlays).1).contains member.1 = false) :
    r.contains member.1 = true ↔
      member.2 ≠ .null ∧ ∀ cs, member.2 = .number cs → ¬ Json.Beyond cs := by
  obtain ⟨_, same, examined⟩ := (s.validate_eq_ok_iff_examine _ _ _).mp accepted
  obtain rfl := Except.ok.inj (((readDocument_eq_ok_iff _ _).mpr read).symm.trans same)
  have copied := copiedInto_of_examine permissive read.regular.inKeyOrder examined
  have regular : member.2.Regular := read.regular.part (.member among .whole)
  rw [Object.contains, copied.kept member among unknown free, Option.isSome_iff_ne_none, ne_eq,
    regular.ofJson?_eq_none_iff]
  simp only [not_or, not_exists, not_and, ne_eq]

/-- Null is all that is dropped, at any depth of a tree that is read, exactly if no number in it is
rounded to infinity. So a member that a schema lets through is in its result, beside the values of
the fields, unless it is null or such a number. -/
theorem Json.dropsOnlyNull_iff {text : String} {j : Json} (read : Json.read text = .ok j) :
    ((∀ part : Json, part.PartOf j → part.DropsOnlyNull) ↔
      ∀ cs, (Json.number cs).PartOf j → ¬ Beyond cs) ∧
    ∀ (s : Schema) (overlays : List Overlay) (document : Document) (r : Object),
      s.permissive = true → IsDocument text document → s.validate text overlays = .ok r →
        ∀ member ∈ document, s.declares member.1 = false →
          (s.fieldValues document (mergeOverlays overlays).1).contains member.1 = false →
            (r.contains member.1 = true ↔
              member.2 ≠ .null ∧ ∀ cs, member.2 = .number cs → ¬ Beyond cs) := by
  have regular := regular_of_read read
  refine ⟨⟨fun drops cs inside beyond => ?_, fun within part inside => ?_⟩, ?_⟩
  · have absent := (regular.part inside).ofJson?_eq_none_iff.mpr (.inr ⟨cs, rfl, beyond⟩)
    cases (drops _ inside).none_iff.mp absent
  · exact (regular.part inside).dropsOnlyNull fun cs deeper => within cs (deeper.trans inside)
  · intro s overlays document r permissive document accepted member among unknown free
    exact Schema.contains_unknown_iff permissive document accepted among unknown free

def sampleCrateText : String := "\x7b\"a\":null,\"b\":[null,18446744073709551615]\x7d"

def sampleCrate : Document :=
  [("a", .null), ("b", .array [.null, .number "18446744073709551615".toList])]

/-- The greatest integer of all is kept next to what is null. -/
theorem dropsOnlyNull_sampleCrate :
    Json.read sampleCrateText = .ok (.object sampleCrate) ∧
      (∀ part : Json, part.PartOf (.object sampleCrate) → part.DropsOnlyNull) ∧
      ∃ r, Schema.sampleBox.validate sampleCrateText [] = .ok r ∧ r.contains "b" = true := by
  have read : Json.read sampleCrateText = .ok (.object sampleCrate) := rfl
  have document : IsDocument sampleCrateText sampleCrate := .object rfl read
  have accepted : Schema.sampleBox.validate sampleCrateText [] = .ok _ :=
    Schema.validate_eq_ok_of_clean ((readDocument_eq_ok_iff _ _).mpr document) rfl rfl rfl
  obtain ⟨drops, survives⟩ := Json.dropsOnlyNull_iff read
  refine ⟨read, drops.mpr fun cs inside => ?_, _, accepted, ?_⟩
  · cases inside with
    | member among within =>
      rcases List.mem_pair.mp among with rfl | rfl
      · cases within
      · cases within with
        | item among within =>
          rcases List.mem_pair.mp among with rfl | rfl
          · cases within
          · cases within
            let greatest : IntKind.u64.Number := ⟨18446744073709551615, by decide⟩
            have literal : IntegerLiteral false "18446744073709551615".toList greatest.value :=
              .bare (.of_all (by decide) rfl)
            exact not_beyond_of_literal literal
  · refine (survives Schema.sampleBox [] _ _ rfl document accepted
      ("b", .array [.null, .number "18446744073709551615".toList]) ?_ rfl rfl).mpr ⟨?_, ?_⟩
    · exact List.mem_cons_of_mem _ List.mem_cons_self
    · exact Json.noConfusion
    · intro cs same
      cases same

/-- A number that is rounded to infinity is left out of an array like null. -/
theorem not_dropsOnlyNull_sampleLarge :
    let large := Json.number "1e+999".toList
    let items := [.number ['1'], large, .number ['2']]
    Json.read "[1,1e999,2]" = .ok (.array items) ∧
      Value.ofJson? (.array items) =
        some (.array [.scalar (.int .i64) ⟨1, by decide⟩, .scalar (.int .i64) ⟨2, by decide⟩]) ∧
      ¬ ∀ part : Json, part.PartOf (.array items) → part.DropsOnlyNull := by
  intro large items
  refine ⟨rfl, rfl, fun drops => ?_⟩
  have inside : large.PartOf (.array items) :=
    .item (List.mem_cons_of_mem _ List.mem_cons_self) .whole
  have absent : Value.ofJson? large = none := rfl
  have same : Json.number "1e+999".toList = .null := (drops large inside).none_iff.mp absent
  cases same

end Intake
