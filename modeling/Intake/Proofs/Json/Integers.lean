import Intake.Proofs.Json.Regular
import Intake.Proofs.Schema.Interchange

/-!
# Integers among JSON numbers

Each kind of integers takes a JSON number in one of three ways. It is accepted if its text is the
decimal text of an integer in the range of the kind. A point makes it no integer. Anything else
overflows the kind, also a number with an exponent and a zero with a minus.
-/

namespace Intake

open Numeral (IsDigits IntegerLiteral integerText)

namespace IntKind

variable {k : IntKind} {text : String} {cs : List Char}

theorem ofNumber_eq_ok_iff (k : IntKind) (cs : List Char) (v : k.Number) :
    k.ofNumber (String.ofList cs) = .ok v ↔ (integerText v.value).toList = cs := by
  constructor
  · intro read
    unfold ofNumber at read
    split at read
    · cases read
    split at read
    · cases read
    split at read
    · cases read
    · split at read
      · next canonical =>
        obtain rfl := Except.ok.inj read
        rw [canonical, String.toList_ofList]
      · cases read
  · rintro rfl
    rw [String.ofList_toList]
    exact k.ofNumber_integerText v

/-- Digits, alone or behind a minus, are never malformed. -/
theorem ofText_of_digits {ds : List Char} (digits : IsDigits ds)
    (shape : text.toList = ds ∨ text.toList = '-' :: ds) :
    (∃ v, k.ofText text = .ok v) ∨ k.ofText text = .error (.overflow text (.int k)) := by
  have ofLiteral : ∀ n, IntegerLiteral k.isSigned text.toList n →
      (∃ v, k.ofText text = .ok v) ∨ k.ofText text = .error (.overflow text (.int k)) := by
    intro n literal
    rw [ofText_of_literal literal]
    cases k.ofInt? n with
    | some v => exact .inl ⟨v, rfl⟩
    | none => exact .inr rfl
  rcases shape with bare | minus
  · exact ofLiteral _ (bare.symm ▸ IntegerLiteral.bare digits)
  · cases signed : k.isSigned with
    | true =>
      exact ofLiteral _ (minus.symm ▸ IntegerLiteral.minus signed digits)
    | false =>
      have begins : text.toList.head? = some '-' := by rw [minus, List.head?_cons]
      refine .inr (ofText_minus signed begins ?_)
      have literal : IntegerLiteral true ('-' :: ds) _ := .minus rfl digits
      rw [minus]
      exact hasFraction_of_literal literal

theorem ofNumber_of_point (point : '.' ∈ cs) :
    k.ofNumber (String.ofList cs) = .error (.floatToInteger (String.ofList cs) (.int k)) :=
  if_pos (by rwa [String.toList_ofList])

/-- Without a point, a JSON number that is refused overflows the kind. -/
theorem ofNumber_of_noPoint (number : Json.NumberText cs) (noPoint : '.' ∉ cs) :
    (∃ v, k.ofNumber (String.ofList cs) = .ok v) ∨
      k.ofNumber (String.ofList cs) = .error (.overflow (String.ofList cs) (.int k)) := by
  rw [ofNumber, String.toList_ofList, if_neg noPoint]
  cases fraction : hasFraction cs with
  | true => exact .inr rfl
  | false =>
    obtain ⟨-, noMark, -⟩ := (hasFraction_eq_false_iff _).mp fraction
    obtain ⟨ds, digits, shape⟩ := number.digits noPoint noMark
    rw [← String.toList_ofList (l := cs)] at shape
    rcases ofText_of_digits (k := k) digits shape with ⟨v, read⟩ | read
    · rw [read]
      by_cases canonical : integerText v.value = String.ofList cs
      · exact .inl ⟨v, if_pos canonical⟩
      · exact .inr (if_neg canonical)
    · rw [read]
      exact .inr rfl

theorem ofNumber_eq_floatToInteger_iff (number : Json.NumberText cs) :
    k.ofNumber (String.ofList cs) = .error (.floatToInteger (String.ofList cs) (.int k)) ↔
      '.' ∈ cs := by
  refine ⟨fun refused => ?_, ofNumber_of_point⟩
  by_contra noPoint
  rcases ofNumber_of_noPoint (k := k) number noPoint with ⟨v, read⟩ | overflow
  · cases read.symm.trans refused
  · cases overflow.symm.trans refused

theorem ofNumber_eq_overflow_iff (number : Json.NumberText cs) :
    k.ofNumber (String.ofList cs) = .error (.overflow (String.ofList cs) (.int k)) ↔
      '.' ∉ cs ∧ ∀ v : k.Number, (integerText v.value).toList ≠ cs := by
  constructor
  · intro overflow
    refine ⟨fun point => ?_, fun v same => ?_⟩
    · cases overflow.symm.trans (ofNumber_of_point point)
    · cases overflow.symm.trans ((k.ofNumber_eq_ok_iff cs v).mpr same)
  · rintro ⟨noPoint, other⟩
    rcases ofNumber_of_noPoint (k := k) number noPoint with ⟨v, read⟩ | overflow
    · exact absurd ((k.ofNumber_eq_ok_iff cs v).mp read) (other v)
    · exact overflow

theorem ofNumber_ne_invalidFormat (number : Json.NumberText cs) (input : String) (expected : Kind) :
    k.ofNumber (String.ofList cs) ≠ .error (.invalidFormat input expected) := by
  intro malformed
  by_cases point : '.' ∈ cs
  · cases malformed.symm.trans (ofNumber_of_point point)
  · rcases ofNumber_of_noPoint (k := k) number point with ⟨v, read⟩ | overflow
    · cases malformed.symm.trans read
    · cases malformed.symm.trans overflow

theorem integerText_plain {n : Int} (same : (integerText n).toList = cs) :
    cs ≠ ['-', '0'] ∧ 'e' ∉ cs := by
  subst same
  obtain ⟨-, noMark, -⟩ := (hasFraction_eq_false_iff _).mp (hasFraction_integerText n)
  refine ⟨fun zero => ?_, noMark⟩
  rw [Numeral.toList_integerText] at zero
  split at zero
  · next negative =>
    obtain ⟨c, cs, digits, nonzero⟩ := Numeral.toDigits_eq_cons (n := n.natAbs) (by omega)
    rw [digits] at zero
    simp only [List.cons.injEq, true_and] at zero
    exact nonzero zero.1
  · have minus : '-' ∈ Nat.toDigits 10 n.natAbs := zero ▸ List.mem_cons_self
    cases Numeral.isDigit_toDigits _ minus

end IntKind

/-- How a kind of integers takes any number in any text that is read. What it accepts is the
decimal text of the integer, and is read as the same integer where it stands as a text. -/
theorem Json.integer_of_number {text : String} {j : Json} (read : Json.read text = .ok j)
    {cs : List Char} (part : (Json.number cs).PartOf j) (k : IntKind) :
    (∀ v : k.Number, (Kind.int k).ofJson (.number cs) = .ok v ↔
      (integerText v.value).toList = cs) ∧
    (∀ v : k.Number, (Kind.int k).ofJson (.number cs) = .ok v →
      (Kind.int k).ofText (String.ofList cs) = .ok v) ∧
    ((Kind.int k).ofJson (.number cs) = .error (.floatToInteger (String.ofList cs) (.int k)) ↔
      '.' ∈ cs) ∧
    ((Kind.int k).ofJson (.number cs) = .error (.overflow (String.ofList cs) (.int k)) ↔
      '.' ∉ cs ∧ ∀ v : k.Number, (integerText v.value).toList ≠ cs) ∧
    (∀ input expected,
      (Kind.int k).ofJson (.number cs) ≠ .error (.invalidFormat input expected)) ∧
    (cs = ['-', '0'] ∨ 'e' ∈ cs → ∀ v : k.Number, (Kind.int k).ofJson (.number cs) ≠ .ok v) := by
  have number : NumberText cs := by
    cases (regular_of_read read).part part with
    | number number => exact number
  refine ⟨k.ofNumber_eq_ok_iff cs, fun v => IntKind.ofText_of_ofNumber,
    IntKind.ofNumber_eq_floatToInteger_iff number, IntKind.ofNumber_eq_overflow_iff number,
    IntKind.ofNumber_ne_invalidFormat number, fun refused v accepted => ?_⟩
  obtain ⟨zero, mark⟩ := IntKind.integerText_plain ((k.ofNumber_eq_ok_iff cs v).mp accepted)
  exact refused.elim zero mark

/-- Four numbers at the bounds of a kind: its greatest one, the next above it, one with a point
and one with an exponent. -/
theorem Json.integer_of_number_bounds :
    let top := Json.number "127".toList
    let above := Json.number "128".toList
    let pointed := Json.number "1.0".toList
    let scaled := Json.number "1e+0".toList
    Json.read "[127,\x7b\"a\":[128,1.0]\x7d,1e0]" =
        .ok (.array [top, .object [("a", .array [above, pointed])], scaled]) ∧
      (Kind.int .i8).ofJson top = .ok ⟨127, by decide⟩ ∧
      (Kind.int .i8).ofText "127" = .ok ⟨127, by decide⟩ ∧
      (Kind.int .i8).ofJson above = .error (.overflow "128" (.int .i8)) ∧
      (∀ v : IntKind.i8.Number, (integerText v.value).toList ≠ "128".toList) ∧
      (Kind.int .i8).ofJson pointed = .error (.floatToInteger "1.0" (.int .i8)) ∧
      ∀ v : IntKind.i8.Number, (Kind.int .i8).ofJson scaled ≠ .ok v := by
  intro top above pointed scaled
  have read : Json.read "[127,\x7b\"a\":[128,1.0]\x7d,1e0]" =
      .ok (.array [top, .object [("a", .array [above, pointed])], scaled]) := rfl
  have inner : ∀ part ∈ [above, pointed], part.PartOf
      (.array [top, .object [("a", .array [above, pointed])], scaled]) := by
    intro part among
    refine .item (List.mem_cons_of_mem _ List.mem_cons_self) ?_
    exact .member List.mem_cons_self (.item among .whole)
  obtain ⟨accepts, asText, -⟩ :=
    Json.integer_of_number read (.item List.mem_cons_self .whole) .i8
  obtain ⟨-, -, -, overflows, -⟩ :=
    Json.integer_of_number read (inner _ List.mem_cons_self) .i8
  obtain ⟨-, -, refuses, -⟩ :=
    Json.integer_of_number read (inner _ (List.mem_cons_of_mem _ List.mem_cons_self)) .i8
  obtain ⟨-, -, -, -, -, never⟩ :=
    Json.integer_of_number read
      (.item (List.mem_cons_of_mem _ (List.mem_cons_of_mem _ List.mem_cons_self)) .whole) .i8
  have greatest := (accepts ⟨127, by decide⟩).mpr rfl
  have overflow : (Kind.int .i8).ofJson above = .error (.overflow "128" (.int .i8)) := rfl
  exact ⟨read, greatest, asText _ greatest, overflow, (overflows.mp overflow).2,
    refuses.mpr (by decide), never (.inr (by decide))⟩

end Intake
