import Intake.Numeral.Layout
import Intake.Proofs.Numeral.DecimalLiterals
import Intake.Proofs.Numeral.Shortest

/-!
# Written numbers are read back

In every layout a finite number is written as a decimal that is rounded to it, with the digits of a
shortest one: the zeros, the point and the exponent of a layout do not change its value.
-/

namespace Intake.Numeral

/-! ### Decimals of magnitudes -/

namespace Format

variable {f : Format} {tie : Tie} {rank : Nat}

def written (f : Format) (tie : Tie) (rank : Nat) : Nat × Int :=
  if rank = 0 then (0, 0) else f.shortest tie rank

theorem nearestDecimal_written (precise : 1 ≤ f.precision) (blocks : 2 ≤ f.binades) (tie : Tie)
    (bounded : rank ≤ f.top) :
    f.nearestDecimal (f.written tie rank).1 (f.written tie rank).2 = rank := by
  unfold written
  split
  · next zero => exact zero.symm
  · exact nearestDecimal_shortest precise blocks tie bounded

theorem digitCount_written_le (precise : 2 ≤ f.precision) (blocks : 2 ≤ f.binades) (tie : Tie)
    (finite : rank < f.top) {digits : Nat} {exponent : Int}
    (reads : f.nearestDecimal digits exponent = rank) :
    digitCount (f.written tie rank).1 ≤ digitCount digits := by
  unfold written
  split
  · exact digitCount_pos digits
  · exact digitCount_shortest_le precise blocks tie (by omega) finite reads

end Format

/-! ### Layouts -/

/-- The text is a decimal without a sign and has the value. -/
def HasValue (cs : List Char) (value : ℚ) : Prop :=
  ∃ digits exponent, Magnitude cs digits exponent ∧ (digits : ℚ) * 10 ^ exponent = value

theorem Mantissa.hasValue {ms es : List Char} {digits places : Nat} {n : Int}
    (mantissa : Mantissa ms digits places) (scale : Scale es n) :
    HasValue (ms ++ es) (digits * 10 ^ (n - places)) :=
  ⟨_, _, .scaled mantissa scale, rfl⟩

theorem Mantissa.hasValue_alone {ms : List Char} {digits places : Nat}
    (mantissa : Mantissa ms digits places) : HasValue ms (digits * 10 ^ (-places : ℤ)) := by
  simpa using mantissa.hasValue .none

theorem isDigits_toDigits (n : Nat) : IsDigits (Nat.toDigits 10 n) :=
  ⟨Nat.toDigits_ne_nil, isDigit_toDigits⟩

theorem isDigit_replicate (n : Nat) : ∀ c ∈ List.replicate n '0', c.isDigit = true := by
  intro c among
  rw [List.eq_of_mem_replicate among]
  rfl

theorem ofDigitChars_zeros (ds : List Char) (n : Nat) :
    Nat.ofDigitChars 10 (ds ++ List.replicate n '0') 0 = 10 ^ n * Nat.ofDigitChars 10 ds 0 := by
  rw [Nat.ofDigitChars_append, Nat.ofDigitChars_replicate_zero]

theorem ofDigitChars_padding (n : Nat) (ds : List Char) :
    Nat.ofDigitChars 10 (List.replicate n '0' ++ ds) 0 = Nat.ofDigitChars 10 ds 0 := by
  rw [Nat.ofDigitChars_append, Nat.ofDigitChars_replicate_zero, Nat.mul_zero]

namespace Layout

theorem writePositional_value (wholeFraction : Bool) (digits : Nat) (exponent : Int) :
    HasValue (writePositional wholeFraction digits exponent) (digits * 10 ^ exponent) := by
  have own := isDigits_toDigits digits
  have number : Nat.ofDigitChars 10 (Nat.toDigits 10 digits) 0 = digits :=
    Nat.ofDigitChars_ten_toDigits
  unfold writePositional
  generalize Nat.toDigits 10 digits = ds at own number
  cases exponent with
  | ofNat e =>
    have whole := own.append (isDigit_replicate e)
    have zeros := ofDigitChars_zeros ds e
    rw [number] at zeros
    cases wholeFraction with
    | false =>
      have written := (Mantissa.whole whole).hasValue_alone
      rw [zeros] at written
      simpa [mul_comm] using written
    | true =>
      have written := (Mantissa.pointed (whole.append (isDigit_replicate 1))).hasValue_alone
      have value : ((10 ^ 1 * (10 ^ e * digits) : ℕ) : ℚ) * 10 ^ (-1 : ℤ) = digits * 10 ^ e := by
        push_cast
        ring
      rw [ofDigitChars_zeros, zeros, List.length_replicate, Nat.cast_one, value] at written
      exact written
  | negSucc e =>
    dsimp only
    split
    · next inside =>
      have split := List.take_append_drop (ds.length - (e + 1)) ds
      have written := (Mantissa.pointed (split.symm ▸ own)).hasValue_alone
      rw [split, number, List.length_drop] at written
      have places : ds.length - (ds.length - (e + 1)) = e + 1 := by omega
      rw [places] at written
      exact written
    · next before =>
      have zero : IsDigits ['0'] := .of_all (List.cons_ne_nil _ _) rfl
      have padding := isDigit_replicate (e + 1 - ds.length)
      have padded := zero.append (List.forall_mem_append.mpr ⟨padding, own.2⟩)
      have written := (Mantissa.pointed padded).hasValue_alone
      have places : e + 1 - ds.length + ds.length = e + 1 := by omega
      have unpadded := ofDigitChars_padding (e + 1 - ds.length + 1) ds
      rw [number] at unpadded
      rw [List.length_append, List.length_replicate, places] at written
      exact unpadded ▸ written

theorem scale_power (lead : Int) :
    Scale ((if lead < 0 then ['e', '-'] else ['e', '+']) ++ Nat.toDigits 10 lead.natAbs) lead := by
  have own := isDigits_toDigits lead.natAbs
  split
  · have literal : IntegerLiteral true _ _ := .minus rfl own
    rw [Nat.ofDigitChars_ten_toDigits, show -(lead.natAbs : Int) = lead by omega] at literal
    exact .power (.inl rfl) literal
  · have literal : IntegerLiteral true _ _ := .plus own
    rw [Nat.ofDigitChars_ten_toDigits, show (lead.natAbs : Int) = lead by omega] at literal
    exact .power (.inl rfl) literal

theorem writeScientific_value (digits : Nat) (lead : Int) :
    HasValue (writeScientific digits lead) (digits * 10 ^ (lead + 1 - digitCount digits)) := by
  have own := isDigits_toDigits digits
  have number : Nat.ofDigitChars 10 (Nat.toDigits 10 digits) 0 = digits :=
    Nat.ofDigitChars_ten_toDigits
  have scale := scale_power lead
  unfold writeScientific digitCount
  generalize Nat.toDigits 10 digits = ds at own number
  dsimp only
  split
  · next d r rest =>
    have parts : IsDigits ([d] ++ r :: rest) := own
    have written := (Mantissa.pointed parts).hasValue scale
    have places : lead + 1 - ((d :: r :: rest).length : Int) = lead - (r :: rest).length := by
      simp only [List.length_cons]
      omega
    rw [places, ← number]
    exact written
  · next short =>
    have written := (Mantissa.whole own).hasValue scale
    have one : ds.length = 1 := by
      match ds, own.1 with
      | [d], _ => rfl
      | d :: r :: rest, _ => exact absurd rfl (short d r rest)
    rw [one, ← number]
    simpa using written

theorem writeMagnitude_eq (l : Layout) (f : Format) (rank : Nat) :
    l.writeMagnitude f rank =
      let (digits, exponent) := f.written l.tie rank
      let lead := exponent + digitCount digits - 1
      if l.positional lead then writePositional l.wholeFraction digits exponent
      else writeScientific digits lead := rfl

theorem writeMagnitude_value (l : Layout) (f : Format) (rank : Nat) :
    HasValue (l.writeMagnitude f rank)
      ((f.written l.tie rank).1 * 10 ^ (f.written l.tie rank).2) := by
  rw [writeMagnitude_eq]
  obtain ⟨digits, exponent⟩ := f.written l.tie rank
  dsimp only
  split
  · exact writePositional_value _ _ _
  · have written := writeScientific_value digits (exponent + digitCount digits - 1)
    rwa [sub_add_cancel, add_sub_cancel_right] at written

theorem write_eq (l : Layout) {f : Format} (negative : Bool) {rank : Nat} (bounded : rank ≤ f.top)
    (finite : rank ≠ f.top) :
    l.write (.number negative rank bounded) =
      (if negative then ['-'] else []) ++ l.writeMagnitude f rank := by
  rw [write, if_neg finite]

end Layout

namespace Binary

variable {f : Format}

theorem ofDecimal_eq_iff {negative sign : Bool} {rank digits : Nat} {exponent : Int}
    {bounded : rank ≤ f.top} :
    Binary.ofDecimal f sign digits exponent = .number negative rank bounded ↔
      sign = negative ∧ f.nearestDecimal digits exponent = rank := by
  rw [ofDecimal, number.injEq]

/-- The decimal is rounded to the number, and no decimal with fewer digits is. -/
structure IsShortest (b : Binary f) (negative : Bool) (digits : Nat) (exponent : Int) : Prop where
  rounded : Binary.ofDecimal f negative digits exponent = b
  fewest : ∀ sign digits' exponent', Binary.ofDecimal f sign digits' exponent' = b →
    digitCount digits ≤ digitCount digits'

/-- The text is a decimal and has the value of a shortest one that is rounded to the number. -/
def IsShortestText (b : Binary f) (cs : List Char) : Prop :=
  ∃ negative digits exponent, DecimalLiteral cs negative digits exponent ∧
    ∃ digits' exponent', b.IsShortest negative digits' exponent' ∧
      (digits : ℚ) * 10 ^ exponent = digits' * 10 ^ exponent'

end Binary

namespace Layout

/-- A finite number is written as a decimal of the same value as the one that is found for it. -/
theorem write_literal (l : Layout) {f : Format} (negative : Bool) {rank : Nat}
    (bounded : rank ≤ f.top) (finite : rank ≠ f.top) :
    ∃ digits exponent, DecimalLiteral (l.write (.number negative rank bounded)) negative digits exponent ∧
      (digits : ℚ) * 10 ^ exponent = (f.written l.tie rank).1 * 10 ^ (f.written l.tie rank).2 := by
  obtain ⟨digits, exponent, magnitude, value⟩ := l.writeMagnitude_value f rank
  refine ⟨digits, exponent, ?_, value⟩
  rw [l.write_eq negative bounded finite]
  cases negative with
  | false => exact .bare magnitude
  | true => exact .minus magnitude

theorem isShortest_written {f : Format} (precise : 2 ≤ f.precision) (blocks : 2 ≤ f.binades)
    (tie : Tie) (negative : Bool) {rank : Nat} (bounded : rank ≤ f.top) (finite : rank ≠ f.top) :
    (Binary.number negative rank bounded).IsShortest negative (f.written tie rank).1
      (f.written tie rank).2 where
  rounded := Binary.ofDecimal_eq_iff.mpr
    ⟨rfl, f.nearestDecimal_written (by omega) blocks tie bounded⟩
  fewest _ _ _ rounded :=
    f.digitCount_written_le precise blocks tie (Nat.lt_of_le_of_ne bounded finite)
      (Binary.ofDecimal_eq_iff.mp rounded).2

/-- In every layout a finite number is written as a shortest decimal that is rounded to it. -/
theorem write_isShortestText (l : Layout) {f : Format} (precise : 2 ≤ f.precision)
    (blocks : 2 ≤ f.binades) (b : Binary f) (finite : b.isFinite = true) :
    b.IsShortestText (l.write b) := by
  cases b with
  | nan => cases finite
  | number negative rank bounded =>
    have below : rank < f.top := of_decide_eq_true finite
    obtain ⟨digits, exponent, literal, value⟩ := l.write_literal negative bounded below.ne
    exact ⟨negative, digits, exponent, literal, _, _,
      isShortest_written precise blocks l.tie negative bounded below.ne, value⟩

end Layout

end Intake.Numeral
