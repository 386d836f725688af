import Intake.Coercion
import Intake.Proofs.Numeral.ReadBack

/-!
# Numbers of single precision

A decimal is compared with the greatest number of single precision as it is rounded with double
precision, and gets its value with single precision. All that single precision rounds to infinity is
half a unit or more above the greatest number, where double precision still tells it apart, so no
decimal becomes infinite. But decimals nearer to the greatest number are refused as well, its own
text among them.
-/

namespace Intake

namespace Numeral

def Binary.greatest {f : Format} (negative : Bool) : Binary f :=
  .number negative (f.top - 1) (Nat.sub_le _ _)

end Numeral

namespace FloatKind

open Numeral

variable {k : FloatKind} {text : String} {negative : Bool} {digits : Nat} {exponent : Int}

/-! ### The bound -/

/-- The greatest number of single precision. -/
def bound : Nat := (2 ^ 24 - 1) * 2 ^ 104

/-- The least number that single precision rounds to infinity. -/
def halfway : Nat := (2 ^ 25 - 1) * 2 ^ 103

theorem nearestDecimal_bound : Format.single.nearestDecimal bound 0 = Format.single.top - 1 := by
  decide +kernel

theorem overflows_iff (negative : Bool) (digits : Nat) (exponent : Int) :
    FloatKind.f32.overflows (.decimal negative digits exponent) = true ↔
      Format.double.nearestDecimal bound 0 < Format.double.nearestDecimal digits exponent := by
  have greatest : Format.single.units (Format.single.top - 1) *
      Nat.pow 2 (Format.double.depth - Format.single.depth) =
        Format.double.units (Format.double.nearestDecimal bound 0) := by
    decide +kernel
  unfold overflows
  rw [greatest, decide_eq_true_iff, Format.double.units_strictMono.lt_iff_lt]

/-- A decimal up to the greatest number does not overflow. -/
theorem overflows_eq_false (negative : Bool) (within : (digits : ℚ) * 10 ^ exponent ≤ bound) :
    FloatKind.f32.overflows (.decimal negative digits exponent) = false := by
  rw [← Bool.not_eq_true, overflows_iff, Nat.not_lt]
  exact Format.nearestDecimal_mono (by decide) (by decide) (by simpa using within)

theorem limit_single : Format.single.limit = halfway := by
  norm_num [Format.limit, Format.single, halfway]

/-- A decimal that does not overflow is not rounded to infinity either. -/
theorem nearestDecimal_lt_top
    (within : FloatKind.f32.overflows (.decimal negative digits exponent) = false) :
    Format.single.nearestDecimal digits exponent < Format.single.top := by
  refine Nat.lt_of_le_of_ne (Format.single.nearestDecimal_le_top _ _) fun infinite => ?_
  rw [Format.nearestDecimal_eq_top_iff (by decide) (by decide), limit_single] at infinite
  have apart : Format.double.nearestDecimal bound 0 <
      Format.double.nearestDecimal halfway 0 := by decide +kernel
  have above : Format.double.nearestDecimal halfway 0 ≤
      Format.double.nearestDecimal digits exponent :=
    Format.nearestDecimal_mono (by decide) (by decide) (by simpa using infinite)
  rw [(overflows_iff _ _ _).mpr (Nat.lt_of_lt_of_le apart above)] at within
  cases within

/-- What is rounded to a lesser number than the greatest does not overflow. -/
theorem overflows_of_lt (negative : Bool)
    (less : Format.single.nearestDecimal digits exponent < Format.single.top - 1) :
    FloatKind.f32.overflows (.decimal negative digits exponent) = false := by
  refine overflows_eq_false negative (le_of_not_ge fun above => absurd less (Nat.not_lt.mpr ?_))
  rw [← nearestDecimal_bound]
  exact Format.nearestDecimal_mono (by decide) (by decide) (by simpa using above)

/-! ### Texts -/

theorem ofText_of_literal {literal : Literal} (read : Literal.read? text.toList = some literal) :
    k.ofText text = if k.overflows literal then .error (.overflow text (.float k))
      else .ok (literal.toBinary k.format) := by
  unfold ofText
  rw [read]

theorem literal_of_ofText {b : Binary k.format} (read : k.ofText text = .ok b) :
    ∃ literal, Literal.read? text.toList = some literal ∧ k.overflows literal = false ∧
      literal.toBinary k.format = b := by
  unfold ofText at read
  split at read
  · cases read
  · next literal found =>
    split at read
    · cases read
    · next within => exact ⟨literal, found, Bool.eq_false_iff.mpr within, Except.ok.inj read⟩

/-- The ways in which a text is read as a float: from an overlay, as a JSON string and as a JSON
number. -/
def readings (k : FloatKind) (text : String) : List (Except CoercionFault (Binary k.format)) :=
  [(Kind.float k).ofText text, (Kind.float k).ofJson (.string text),
    (Kind.float k).ofJson (.number text.toList)]

theorem eq_ofText_of_mem_readings {read : Except CoercionFault (Binary k.format)}
    (among : read ∈ k.readings text) : read = k.ofText text := by
  have number : (Kind.float k).ofJson (.number text.toList) = k.ofText text := by
    show k.ofText (String.ofList text.toList) = k.ofText text
    rw [String.ofList_toList]
  rcases List.mem_cons.mp among with rfl | among
  · rfl
  · rcases List.mem_cons.mp among with rfl | among
    · rfl
    · rw [List.mem_singleton.mp among, number]

/-- In single precision only the words for infinity are infinite. A decimal is finite or overflows,
however large it is. -/
theorem f32_never_saturates (text : String) :
    ∀ read ∈ FloatKind.f32.readings text,
      (∀ negative, read = .ok (.infinity negative) ↔ InfinityLiteral text.toList negative) ∧
      (IsDecimal text.toList → (∃ b, read = .ok b ∧ b.isFinite = true) ∨
        read = .error (.overflow text (.float .f32))) := by
  intro read among
  rw [eq_ofText_of_mem_readings among]
  refine ⟨fun negative => ⟨fun infinite => ?_, fun word => ?_⟩, fun decimal => ?_⟩
  · obtain ⟨literal, found, within, same⟩ := literal_of_ofText infinite
    cases literal with
    | nan => cases same
    | infinity sign =>
      obtain ⟨rfl, -⟩ := Binary.number.inj same
      exact (read?_eq_infinity_iff _ _).mp found
    | decimal sign digits exponent =>
      have finite := nearestDecimal_lt_top within
      obtain ⟨-, top⟩ := Binary.number.inj same
      exact absurd top finite.ne
  · exact ofText_of_literal ((read?_eq_infinity_iff _ _).mpr word)
  · obtain ⟨negative, digits, exponent, literal⟩ := decimal
    have found := ofText_of_literal (k := .f32) ((read?_eq_decimal_iff _ _ _ _).mpr literal)
    split at found
    · exact .inr found
    · next within =>
      have finite := nearestDecimal_lt_top (Bool.eq_false_iff.mpr within)
      exact .inl ⟨_, found, decide_eq_true finite⟩

/-- Minus infinity in capitals, and the least decimal that single precision alone would take for
infinity. -/
theorem f32_never_saturates_halfway :
    InfinityLiteral "-INF".toList true ∧ FloatKind.f32.ofText "-INF" = .ok (.infinity true) ∧
      IsDecimal "340282356779733661637539395458142568448".toList ∧
      FloatKind.f32.ofText "340282356779733661637539395458142568448" =
        .error (.overflow "340282356779733661637539395458142568448" (.float .f32)) := by
  have word : InfinityLiteral ('-' :: "INF".toList) true := .minus (.inl (by decide))
  have named : Literal.read? "340282356779733661637539395458142568448".toList =
      some (.decimal false halfway 0) := by decide
  have decimal : IsDecimal "340282356779733661637539395458142568448".toList :=
    ⟨false, halfway, 0, (read?_eq_decimal_iff _ _ _ _).mp named⟩
  have beyond : FloatKind.f32.overflows (.decimal false halfway 0) = true := by decide +kernel
  obtain ⟨words, -⟩ := f32_never_saturates "-INF" _ List.mem_cons_self
  obtain ⟨-, decimals⟩ :=
    f32_never_saturates "340282356779733661637539395458142568448" _ List.mem_cons_self
  refine ⟨word, (words true).mpr word, decimal, (decimals decimal).resolve_left ?_⟩
  rintro ⟨b, read, -⟩
  have refused := ofText_of_literal (k := .f32) named
  rw [beyond, if_pos rfl] at refused
  cases refused.symm.trans read

/-! ### Written numbers -/

theorem written_greatest :
    Format.single.written .up (Format.single.top - 1) = (34028235, 31) := by
  have found : ((List.range Format.single.precision).findSome? fun (n : Nat) =>
      Format.single.candidate .up (Format.single.top - 1)
        (Format.single.leadingExponent (Format.single.top - 1) - n)) = some (34028235, 31) := by
    decide +kernel
  have stripped : stripZeros 34028235 31 = (34028235, 31) := by
    rw [stripZeros, dif_neg (by decide)]
  unfold Format.written Format.shortest
  rw [if_neg (by decide)]
  dsimp only
  rw [found]
  exact stripped

theorem overflows_greatest (negative : Bool)
    (value : (digits : ℚ) * 10 ^ exponent = (34028235 : ℕ) * 10 ^ (31 : ℤ)) :
    FloatKind.f32.overflows (.decimal negative digits exponent) = true := by
  rw [overflows_iff, Format.nearestDecimal_congr (by decide) (by decide) value]
  decide +kernel

theorem text_toList {f : Format} (b : Binary f) : b.text.toList = Layout.plain.write b :=
  String.toList_ofList

/-- The text of a finite number of single precision is a shortest decimal that is rounded to it. It
is read as the number unless the number is the greatest one, whose text overflows: with double
precision it is above the number. -/
theorem f32_rereads_iff (b : Binary .single) (finite : b.isFinite = true) :
    b.IsShortestText b.text.toList ∧
    (FloatKind.f32.ofText b.text = .ok b ∧ (Kind.float .f32).ofJson (.string b.text) = .ok b ↔
      ∀ negative, b ≠ .greatest negative) ∧
    ∀ negative, b = .greatest negative →
      FloatKind.f32.ofText b.text = .error (.overflow b.text (.float .f32)) := by
  refine ⟨?_, ?_⟩
  · rw [text_toList]
    exact Layout.plain.write_isShortestText (by decide) (by decide) b finite
  cases b with
  | nan => cases finite
  | number negative rank bounded =>
    have below : rank < Format.single.top := of_decide_eq_true finite
    obtain ⟨digits, exponent, literal, value⟩ := Layout.plain.write_literal negative bounded below.ne
    rw [← text_toList] at literal
    have found := ofText_of_literal (k := .f32) ((read?_eq_decimal_iff _ _ _ _).mpr literal)
    by_cases greatest : rank = Format.single.top - 1
    · subst greatest
      have shortest : (digits : ℚ) * 10 ^ exponent = (34028235 : ℕ) * 10 ^ (31 : ℤ) := by
        rw [value, show Layout.plain.tie = Tie.up from rfl, written_greatest]
      rw [overflows_greatest negative shortest, if_pos rfl] at found
      refine ⟨iff_of_false (fun reread => ?_) fun other => other negative rfl, fun _ _ => found⟩
      rw [found] at reread
      cases reread.1
    · have rounded : Format.single.nearestDecimal digits exponent = rank := by
        rw [Format.nearestDecimal_congr (by decide) (by decide) value]
        exact Format.nearestDecimal_written (by decide) (by decide) _ bounded
      have same : Binary.ofDecimal .single negative digits exponent = .number negative rank bounded :=
        Binary.ofDecimal_eq_iff.mpr ⟨rfl, rounded⟩
      rw [overflows_of_lt negative (by omega), if_neg Bool.false_ne_true] at found
      have read := found.trans (congrArg Except.ok same)
      refine ⟨iff_of_true ⟨read, read⟩ fun sign same => ?_, fun sign same => ?_⟩
      all_goals exact absurd (Binary.number.inj same).2 greatest

/-- The least magnitude with a minus, in forty-five places. -/
theorem f32_rereads_least :
    let least : Binary .single := .number true 1 (by decide)
    least.isFinite = true ∧ FloatKind.f32.ofText least.text = .ok least ∧
      (Kind.float .f32).ofJson (.string least.text) = .ok least := by
  intro least
  obtain ⟨-, rereads, -⟩ := f32_rereads_iff least (by decide)
  refine ⟨by decide, rereads.mpr fun negative same => ?_⟩
  have one : 1 = Format.single.top - 1 := (Binary.number.inj same).2
  exact absurd one (by decide)

/-- The greatest number has a text of thirty-nine places, and it overflows. -/
theorem f32_not_reread_greatest :
    let greatest : Binary .single := .greatest false
    greatest.isFinite = true ∧ greatest.text = "340282350000000000000000000000000000000" ∧
      FloatKind.f32.ofText greatest.text = .error (.overflow greatest.text (.float .f32)) := by
  intro greatest
  have text : greatest.text = "340282350000000000000000000000000000000" := by
    have written : Layout.plain.write greatest = "340282350000000000000000000000000000000".toList := by
      refine (Layout.plain.write_eq _ _ (by decide)).trans ?_
      rw [Layout.writeMagnitude_eq, show Layout.plain.tie = Tie.up from rfl, written_greatest]
      decide
    rw [Binary.text, written, String.ofList_toList]
  have named : Literal.read? greatest.text.toList = some (.decimal false (34028235 * 10 ^ 31) 0) := by
    rw [text]
    decide
  have value : ((34028235 * 10 ^ 31 : ℕ) : ℚ) * 10 ^ (0 : ℤ) = (34028235 : ℕ) * 10 ^ (31 : ℤ) := by
    norm_num
  refine ⟨by decide, text, ?_⟩
  rw [ofText_of_literal named, overflows_greatest false value, if_pos rfl]

end FloatKind

end Intake
