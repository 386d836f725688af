import Intake.Coercion
import Intake.Json.Number

/-!
# Written integers

The decimal text of an integer is the text of a JSON number, and each kind reads it as the
integer again if it is in the range of the kind.
-/

namespace Intake

namespace Numeral

/-- The digits of a number begin with a zero only if it is zero. -/
theorem toDigits_eq_cons {n : Nat} (positive : 0 < n) :
    ∃ c cs, Nat.toDigits 10 n = c :: cs ∧ c ≠ '0' := by
  induction n using Nat.strongRecOn with
  | ind n ih =>
    rw [Nat.toDigits_eq_if (by decide)]
    split
    · next small =>
      have digit : ∀ d : Fin 10, 0 < d.val → Nat.digitChar d ≠ '0' := by decide
      exact ⟨_, _, rfl, digit ⟨n, small⟩ positive⟩
    · next large =>
      obtain ⟨c, cs, digits, nonzero⟩ := ih (n / 10) (by omega) (by omega)
      rw [digits]
      exact ⟨c, _, rfl, nonzero⟩

theorem isDigit_toDigits {n : Nat} : ∀ c ∈ Nat.toDigits 10 n, c.isDigit = true :=
  fun _ hc => Nat.isDigit_of_mem_toDigits (by decide) (by decide) hc

theorem toList_integerText (n : Int) :
    (integerText n).toList =
      if n < 0 then '-' :: Nat.toDigits 10 n.natAbs else Nat.toDigits 10 n.natAbs := by
  cases n with
  | ofNat n => exact (Nat.toList_repr (n := n)).trans (if_neg (by simp)).symm
  | negSucc n =>
    have text : integerText (Int.negSucc n) = "-" ++ (n + 1).repr := rfl
    rw [text, String.toList_append, Nat.toList_repr, if_pos (Int.negSucc_lt_zero n)]
    rfl

/-! ### Reading -/

theorem readMagnitude_toDigits {limit n : Nat} (within : n ≤ limit) :
    readMagnitude limit (Nat.toDigits 10 n) = .ok n :=
  (readMagnitude_eq_ok_iff _ _ _).mpr
    ⟨Nat.toDigits_ne_nil, isDigit_toDigits, Nat.ofDigitChars_ten_toDigits, within⟩

theorem readUnsigned_of_digits {limit : Nat} {cs : List Char}
    (digits : ∀ c ∈ cs, c.isDigit = true) : readUnsigned limit cs = readMagnitude limit cs := by
  unfold readUnsigned
  split
  · exact absurd (digits '+' List.mem_cons_self) (by decide)
  · rfl

theorem readSigned_of_digits {limit : Nat} {cs : List Char} (digits : ∀ c ∈ cs, c.isDigit = true) :
    readSigned limit cs = (readMagnitude limit cs).map Int.ofNat := by
  unfold readSigned
  split
  · exact absurd (digits '-' List.mem_cons_self) (by decide)
  · rw [readUnsigned_of_digits digits]

theorem readSigned_integerText {limit : Nat} {n : Int} (above : -(limit + 1) ≤ n)
    (below : n ≤ limit) : readSigned limit (integerText n).toList = .ok n := by
  rw [toList_integerText]
  split
  · next negative =>
    have magnitude : readMagnitude (limit + 1) (Nat.toDigits 10 n.natAbs) = .ok n.natAbs :=
      readMagnitude_toDigits (by omega)
    have value : -(n.natAbs : Int) = n := by omega
    rw [readSigned, magnitude]
    exact congrArg Except.ok value
  · next positive =>
    have value : (n.natAbs : Int) = n := by omega
    rw [readSigned_of_digits isDigit_toDigits, readMagnitude_toDigits (by omega)]
    exact congrArg Except.ok value

end Numeral

/-! ### JSON numbers -/

namespace Json

open Numeral (integerText toList_integerText toDigits_eq_cons isDigit_toDigits)

theorem go_of_digits {ds : List Char} (digits : ∀ c ∈ ds, c.isDigit = true) (p : Position)
    (kept : List Char) : readNumberText.go p .whole kept ds = .ok (kept ++ ds) := by
  induction ds generalizing p kept with
  | nil => simp [readNumberText.go, NumberPart.complete]
  | cons d ds ih =>
    have digit := digits d List.mem_cons_self
    have step : NumberPart.step .whole d = .more .whole [d] := if_pos digit
    rw [readNumberText.go, step]
    show readNumberText.go _ .whole (kept ++ [d]) ds = _
    rw [ih fun c hc => digits c (List.mem_cons_of_mem d hc), List.append_assoc]
    rfl

theorem go_toDigits (p : Position) (kept : List Char) (n : Nat) :
    readNumberText.go p .sign kept (Nat.toDigits 10 n) = .ok (kept ++ Nat.toDigits 10 n) := by
  rcases Nat.eq_zero_or_pos n with rfl | positive
  · rfl
  · have all := isDigit_toDigits (n := n)
    obtain ⟨c, cs, digits, nonzero⟩ := toDigits_eq_cons positive
    rw [digits] at all ⊢
    have digit := all c List.mem_cons_self
    have step : NumberPart.step .sign c = .more .whole [c] := by
      rw [NumberPart.step, if_neg nonzero, if_pos digit]
    rw [readNumberText.go, step]
    show readNumberText.go _ .whole (kept ++ [c]) cs = _
    rw [go_of_digits fun d hd => all d (List.mem_cons_of_mem c hd), List.append_assoc]
    rfl

/-- The text of an integer is kept as it is. -/
theorem readNumberText_integerText (n : Int) :
    readNumberText (integerText n).toList = .ok (integerText n).toList := by
  rw [toList_integerText]
  split
  · rw [readNumberText, go_toDigits]
    rfl
  · have digits := go_toDigits .start [] n.natAbs
    have all := isDigit_toDigits (n := n.natAbs)
    cases text : Nat.toDigits 10 n.natAbs with
    | nil => exact absurd text Nat.toDigits_ne_nil
    | cons c cs =>
      rw [text] at digits all
      have digit := all c List.mem_cons_self
      unfold readNumberText
      split
      · next none => cases none
      · next rest minus =>
        obtain ⟨rfl, rfl⟩ := List.cons.inj minus
        cases digit
      · next c' rest _ same =>
        obtain ⟨rfl, rfl⟩ := List.cons.inj same
        rw [if_pos digit]
        exact digits

end Json

/-! ### Kinds of integers -/

namespace IntKind

open Numeral (integerText)

theorem hasFraction_integerText (n : Int) : hasFraction (integerText n).toList = false := by
  have digits : ∀ c ∈ Nat.toDigits 10 n.natAbs, (c == '.' || c == 'e' || c == 'E') = false := by
    intro c hc
    have digit := Numeral.isDigit_toDigits c hc
    simp only [Bool.or_eq_false_iff, beq_eq_false_iff_ne, ne_eq]
    refine ⟨⟨?_, ?_⟩, ?_⟩ <;> rintro rfl <;> cases digit
  have whole : hasFraction (Nat.toDigits 10 n.natAbs) = false := by
    simpa [hasFraction] using digits
  rw [Numeral.toList_integerText]
  split
  · exact whole
  · exact whole

theorem range_of_signed {k : IntKind} (signed : k.isSigned = true) :
    -(Numeral.maxSigned + 1 : Int) ≤ k.low ∧ k.high ≤ Numeral.maxSigned := by
  revert signed
  cases k <;> decide

theorem range_of_unsigned {k : IntKind} (unsigned : ¬ k.isSigned = true) :
    k.low = 0 ∧ k.high ≤ Numeral.maxUnsigned := by
  revert unsigned
  cases k <;> decide

theorem readWide_integerText (k : IntKind) (v : k.Number) :
    k.readWide (integerText v.value).toList = .ok v.value := by
  have range := v.in_range
  unfold readWide
  split
  · next signed =>
    obtain ⟨least, greatest⟩ := range_of_signed signed
    exact Numeral.readSigned_integerText (by omega) (by omega)
  · next unsigned =>
    obtain ⟨least, greatest⟩ := range_of_unsigned unsigned
    have value : (v.value.natAbs : Int) = v.value := by omega
    rw [Numeral.toList_integerText, if_neg (by omega)]
    split
    · next rest text =>
      have minus := Numeral.isDigit_toDigits (n := v.value.natAbs) '-' (by simp [text])
      cases minus
    · rw [Numeral.readUnsigned_of_digits Numeral.isDigit_toDigits,
        Numeral.readMagnitude_toDigits (by omega)]
      exact congrArg Except.ok value

theorem ofText_integerText (k : IntKind) (v : k.Number) :
    k.ofText (integerText v.value) = .ok v := by
  have value : k.ofInt? v.value = some v := (k.ofInt?_eq_some_iff _ _).mpr rfl
  rw [ofText, hasFraction_integerText, readWide_integerText]
  simp [value]

/-- The text of an integer is canonical. -/
theorem ofNumber_integerText (k : IntKind) (v : k.Number) :
    k.ofNumber (integerText v.value) = .ok v := by
  have plain := hasFraction_integerText v.value
  have point : '.' ∉ (integerText v.value).toList := by
    intro has
    have fraction : hasFraction (integerText v.value).toList = true :=
      List.any_eq_true.mpr ⟨_, has, rfl⟩
    rw [plain] at fraction
    cases fraction
  rw [ofNumber, if_neg point, plain, ofText_integerText]
  simp

end IntKind

end Intake
