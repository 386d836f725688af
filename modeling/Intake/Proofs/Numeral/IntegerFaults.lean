import Intake.Proofs.Numeral.DecimalLiterals

/-!
# Faults of integer texts

What each kind of integers says of a text that it does not read. The fault is found by a mark of a
fraction anywhere in the text, by a minus in front of a kind that has none, and by digits in front
that are beyond the widest kind, whatever comes after them. So it is true of every decimal, but of
other texts only if they have none of the three.
-/

namespace Intake

namespace Numeral

section Fronts

variable {limit : Nat} {cs : List Char}

theorem le_ofDigitChars (n : Nat) (cs : List Char) : n ≤ Nat.ofDigitChars 10 cs n := by
  induction cs generalizing n with
  | nil => simp
  | cons c cs ih =>
    rw [Nat.ofDigitChars_cons]
    exact Nat.le_trans (by omega) (ih _)

theorem readMagnitude_eq_outOfRange_iff (limit : Nat) (cs : List Char) :
    readMagnitude limit cs = .error .outOfRange ↔
      ∃ ds, ds <+: cs ∧ IsDigits ds ∧ limit < Nat.ofDigitChars 10 ds 0 := by
  have beyond : readMagnitude limit cs = .error .outOfRange ↔
      limit < Nat.ofDigitChars 10 (cs.takeWhile Char.isDigit) 0 := by
    unfold readMagnitude
    dsimp only
    split
    · next beyond => exact iff_of_true rfl beyond
    · next within => split <;> simpa using within
  rw [beyond]
  constructor
  · intro beyond
    refine ⟨_, List.takeWhile_prefix _, ⟨?_, fun _ => List.mem_takeWhile_imp⟩, beyond⟩
    intro none
    rw [none, Nat.ofDigitChars_nil] at beyond
    exact Nat.not_lt_zero _ beyond
  · rintro ⟨ds, ⟨rest, rfl⟩, digits, beyond⟩
    rw [List.takeWhile_append_of_pos digits.2, Nat.ofDigitChars_append]
    exact Nat.lt_of_lt_of_le beyond (le_ofDigitChars _ _)

theorem map_eq_error_iff {ε α β : Type} {found : Except ε α} {give : α → β} {fault : ε} :
    found.map give = .error fault ↔ found = .error fault := by
  cases found <;> simp [Except.map]

theorem readSigned_minus_eq_error_iff {ds : List Char} {fault : IntegerFault} :
    readSigned limit ('-' :: ds) = .error fault ↔ readMagnitude (limit + 1) ds = .error fault := by
  rw [readSigned]
  cases readMagnitude (limit + 1) ds <;> simp [Except.map, bind, Except.bind, pure, Except.pure]

theorem readUnsigned_of_front {ds : List Char} (digits : IsDigits ds) (rest : List Char) :
    readUnsigned limit (ds ++ rest) = readMagnitude limit (ds ++ rest) := by
  obtain ⟨c, ds, rfl⟩ := List.exists_cons_of_ne_nil digits.1
  have digit := digits.2 c List.mem_cons_self
  unfold readUnsigned
  split
  · next plus =>
    obtain ⟨rfl, -⟩ := List.cons.inj plus
    cases digit
  · rfl

theorem readUnsigned_eq_outOfRange_iff (limit : Nat) (cs : List Char) :
    readUnsigned limit cs = .error .outOfRange ↔
      ∃ front n, front <+: cs ∧ IntegerLiteral false front n ∧ limit < n := by
  constructor
  · intro read
    unfold readUnsigned at read
    split at read
    · obtain ⟨ds, front, digits, beyond⟩ := (readMagnitude_eq_outOfRange_iff _ _).mp read
      exact ⟨_, _, List.cons_prefix_cons.mpr ⟨rfl, front⟩, .plus digits, by omega⟩
    · obtain ⟨ds, front, digits, beyond⟩ := (readMagnitude_eq_outOfRange_iff _ _).mp read
      exact ⟨_, _, front, .bare digits, by omega⟩
  · rintro ⟨_, _, ⟨rest, rfl⟩, literal, beyond⟩
    cases literal with
    | bare digits =>
      rw [readUnsigned_of_front digits]
      exact (readMagnitude_eq_outOfRange_iff _ _).mpr ⟨_, ⟨rest, rfl⟩, digits, by omega⟩
    | plus digits =>
      exact (readMagnitude_eq_outOfRange_iff _ _).mpr ⟨_, ⟨rest, rfl⟩, digits, by omega⟩
    | minus allowed => cases allowed

theorem readSigned_eq_outOfRange_iff (limit : Nat) (cs : List Char) :
    readSigned limit cs = .error .outOfRange ↔
      ∃ front n, front <+: cs ∧ IntegerLiteral true front n ∧
        ¬ (-(limit + 1 : Int) ≤ n ∧ n ≤ limit) := by
  have unsigned : ∀ {front n}, front <+: cs → IntegerLiteral false front n → (limit : Int) < n →
      readSigned limit cs = .error .outOfRange := by
    intro front n begins literal beyond
    have read := (readUnsigned_eq_outOfRange_iff limit cs).mpr ⟨front, n, begins, literal, beyond⟩
    unfold readSigned
    split
    · -- The text would begin both with a minus and with a literal that has none.
      obtain ⟨rest, same⟩ := begins
      cases literal with
      | bare digits =>
        obtain ⟨c, ds, rfl⟩ := List.exists_cons_of_ne_nil digits.1
        obtain ⟨rfl, -⟩ := List.cons.inj same
        cases digits.2 '-' List.mem_cons_self
      | plus => cases same
      | minus allowed => cases allowed
    · exact map_eq_error_iff.mpr read
  constructor
  · intro read
    by_cases minus : ∃ ds, cs = '-' :: ds
    · obtain ⟨ds, rfl⟩ := minus
      obtain ⟨ds, front, digits, beyond⟩ :=
        (readMagnitude_eq_outOfRange_iff _ _).mp (readSigned_minus_eq_error_iff.mp read)
      exact ⟨_, _, List.cons_prefix_cons.mpr ⟨rfl, front⟩, .minus rfl digits, by omega⟩
    · have bare : readSigned limit cs = (readUnsigned limit cs).map Int.ofNat := by
        unfold readSigned
        split
        · exact absurd ⟨_, rfl⟩ minus
        · rfl
      rw [bare, map_eq_error_iff] at read
      obtain ⟨front, n, begins, literal, beyond⟩ := (readUnsigned_eq_outOfRange_iff _ _).mp read
      exact ⟨front, n, begins, literal.signed, by omega⟩
  · rintro ⟨_, _, begins, literal, beyond⟩
    cases literal with
    | bare digits => exact unsigned begins (.bare digits) (by omega)
    | plus digits => exact unsigned begins (.plus digits) (by omega)
    | @minus ds _ digits =>
      obtain ⟨rest, rfl⟩ := begins
      refine readSigned_minus_eq_error_iff.mpr ((readMagnitude_eq_outOfRange_iff _ _).mpr ?_)
      exact ⟨ds, ⟨rest, rfl⟩, digits, by omega⟩

end Fronts

theorem IntegerLiteral.nonneg {cs : List Char} {n : Int} (literal : IntegerLiteral false cs n) :
    0 ≤ n := by
  cases literal with
  | bare => exact Int.natCast_nonneg _
  | plus => exact Int.natCast_nonneg _
  | minus allowed => cases allowed

theorem Scale.eq_nil {cs : List Char} {n : Int} (scale : Scale cs n)
    (plain : IntKind.hasFraction cs = false) : cs = [] := by
  cases scale with
  | none => rfl
  | power marks =>
    obtain ⟨-, lower, upper⟩ := (IntKind.hasFraction_eq_false_iff _).mp plain
    rcases marks with rfl | rfl
    · exact absurd List.mem_cons_self lower
    · exact absurd List.mem_cons_self upper

/-- A decimal without a point and without an exponent is an integer. -/
theorem IsDecimal.integer {cs : List Char} (decimal : IsDecimal cs)
    (plain : IntKind.hasFraction cs = false) : ∃ n, IntegerLiteral true cs n := by
  have digits : ∀ {cs digits exponent}, Magnitude cs digits exponent →
      IntKind.hasFraction cs = false → IsDigits cs := by
    rintro _ _ _ ⟨mantissa, scale⟩ plain
    have parts := plain
    rw [IntKind.hasFraction, List.any_append, Bool.or_eq_false_iff] at parts
    rw [scale.eq_nil parts.2, List.append_nil] at plain ⊢
    cases mantissa with
    | whole digits => exact digits
    | pointed =>
      obtain ⟨point, -⟩ := (IntKind.hasFraction_eq_false_iff _).mp plain
      simp at point
  obtain ⟨_, _, _, literal⟩ := decimal
  cases literal with
  | bare magnitude => exact ⟨_, .bare (digits magnitude plain)⟩
  | plus magnitude => exact ⟨_, .plus (digits magnitude plain)⟩
  | minus magnitude => exact ⟨_, .minus rfl (digits magnitude plain)⟩

end Numeral

namespace IntKind

open Numeral (IntegerLiteral IsDecimal)

variable {k : IntKind} {cs : List Char} {n : Int} {text : String}

def widest (k : IntKind) : IntKind := if k.isSigned then .i64 else .u64

/-- The text begins with a literal whose integer is not even in the range of the widest kind. -/
def BeginsBeyond (k : IntKind) (cs : List Char) : Prop :=
  ∃ front n, front <+: cs ∧ IntegerLiteral k.isSigned front n ∧
    ¬ (k.widest.low ≤ n ∧ n ≤ k.widest.high)

/-- A minus stands in front, where the kind has none. -/
def HasWrongMinus (k : IntKind) (cs : List Char) : Prop :=
  k.isSigned = false ∧ cs.head? = some '-'

/-- The fault that a kind finds in a text, if any, is what is wrong with it: what overflows is the
literal of an integer that does not fit the kind, what has a fraction is a decimal with a point or
an exponent, and a text that is no decimal is of the wrong format. -/
structure FaultsTrue (k : IntKind) (text : String) : Prop where
  overflow : ∀ input target, k.ofText text = .error (.overflow input target) →
    ∃ n, IntegerLiteral true text.toList n ∧
      (¬ (k.low ≤ n ∧ n ≤ k.high) ∨ k.HasWrongMinus text.toList)
  floatToInteger : ∀ input expected, k.ofText text = .error (.floatToInteger input expected) →
    IsDecimal text.toList ∧ hasFraction text.toList = true
  invalidFormat : ¬ IsDecimal text.toList → k.ofText text = .error (.invalidFormat text (.int k))

theorem readWide_eq_outOfRange_iff (k : IntKind) (cs : List Char) :
    k.readWide cs = .error .outOfRange ↔ k.BeginsBeyond cs ∨ k.HasWrongMinus cs := by
  unfold readWide BeginsBeyond HasWrongMinus widest
  cases k.isSigned with
  | true =>
    simp only [if_true, Bool.true_eq_false, false_and, or_false]
    exact Numeral.readSigned_eq_outOfRange_iff _ _
  | false =>
    simp only [Bool.false_eq_true, if_false, true_and]
    split
    · exact iff_of_true rfl (.inr rfl)
    · next bare =>
      have noMinus : cs.head? ≠ some '-' := fun minus =>
        have ⟨_, same⟩ := List.head?_eq_some_iff.mp minus
        bare _ same
      rw [Numeral.map_eq_error_iff, Numeral.readUnsigned_eq_outOfRange_iff, or_iff_left noMinus]
      refine exists_congr fun front => exists_congr fun n => and_congr_right fun _ =>
        and_congr_right fun literal => ?_
      have positive := literal.nonneg
      show (Numeral.maxUnsigned : Int) < n ↔ ¬ (0 ≤ n ∧ n ≤ Numeral.maxUnsigned)
      omega

/-- What a kind makes of a text, step by step. -/
theorem ofText_cases (k : IntKind) (text : String) :
    (hasFraction text.toList = true ∧ k.ofText text = .error (.floatToInteger text (.int k))) ∨
    hasFraction text.toList = false ∧
      ((k.readWide text.toList = .error .malformed ∧
          k.ofText text = .error (.invalidFormat text (.int k))) ∨
        (k.readWide text.toList = .error .outOfRange ∧
          k.ofText text = .error (.overflow text (.int k))) ∨
        ∃ n, IntegerLiteral k.isSigned text.toList n ∧ ((∃ v, k.ofText text = .ok v) ∨
          ¬ (k.low ≤ n ∧ n ≤ k.high) ∧ k.ofText text = .error (.overflow text (.int k)))) := by
  unfold ofText
  cases hasFraction text.toList with
  | true => exact .inl ⟨rfl, rfl⟩
  | false =>
    refine .inr ⟨rfl, ?_⟩
    cases wide : k.readWide text.toList with
    | error fault =>
      cases fault with
      | malformed => exact .inl ⟨rfl, rfl⟩
      | outOfRange => exact .inr (.inl ⟨rfl, rfl⟩)
    | ok n =>
      refine .inr (.inr ⟨n, literal_of_readWide wide, ?_⟩)
      by_cases within : k.low ≤ n ∧ n ≤ k.high
      · have value : k.ofInt? n = some ⟨n, within⟩ := dif_pos within
        exact .inl ⟨⟨n, within⟩, by simp [value]⟩
      · have absent : k.ofInt? n = none := dif_neg within
        exact .inr ⟨within, by simp [absent]⟩

theorem unfit_of_outOfRange (wide : k.readWide cs = .error .outOfRange)
    (literal : IntegerLiteral true cs n) :
    ¬ (k.low ≤ n ∧ n ≤ k.high) ∨ k.HasWrongMinus cs := by
  have own : IntegerLiteral k.isSigned cs n ∨ k.HasWrongMinus cs := by
    unfold HasWrongMinus
    cases k.isSigned with
    | true => exact .inl literal
    | false =>
      cases literal with
      | bare digits => exact .inl (.bare digits)
      | plus digits => exact .inl (.plus digits)
      | minus => exact .inr ⟨rfl, rfl⟩
  rcases own with own | minus
  · rcases readWide_of_literal own with read | ⟨-, outside⟩
    · rw [read] at wide
      cases wide
    · exact .inl outside
  · exact .inr minus

namespace FaultsTrue

theorem of_ok {v : k.Number} (found : k.ofText text = .ok v) (decimal : IsDecimal text.toList) :
    k.FaultsTrue text where
  overflow := by simp [found]
  floatToInteger := by simp [found]
  invalidFormat noDecimal := absurd decimal noDecimal

theorem of_floatToInteger (found : k.ofText text = .error (.floatToInteger text (.int k)))
    (decimal : IsDecimal text.toList) (mark : hasFraction text.toList = true) :
    k.FaultsTrue text where
  overflow := by simp [found]
  floatToInteger _ _ _ := ⟨decimal, mark⟩
  invalidFormat noDecimal := absurd decimal noDecimal

theorem of_overflow (found : k.ofText text = .error (.overflow text (.int k)))
    (literal : IntegerLiteral true text.toList n)
    (unfit : ¬ (k.low ≤ n ∧ n ≤ k.high) ∨ k.HasWrongMinus text.toList) : k.FaultsTrue text where
  overflow _ _ _ := ⟨n, literal, unfit⟩
  floatToInteger := by simp [found]
  invalidFormat noDecimal := absurd literal.isDecimal noDecimal

theorem of_invalidFormat (found : k.ofText text = .error (.invalidFormat text (.int k))) :
    k.FaultsTrue text where
  overflow := by simp [found]
  floatToInteger := by simp [found]
  invalidFormat _ := found

end FaultsTrue

/-- The fault is true of every decimal. Of another text it is true exactly if the text has no mark
of a fraction, does not begin with digits beyond the widest kind, and does not begin with a minus
if the kind has none. -/
theorem faultsTrue_iff (k : IntKind) (text : String) :
    k.FaultsTrue text ↔ IsDecimal text.toList ∨
      (hasFraction text.toList = false ∧ ¬ k.BeginsBeyond text.toList ∧
        ¬ k.HasWrongMinus text.toList) := by
  constructor
  · intro faults
    refine or_iff_not_imp_left.mpr fun noDecimal => ?_
    have format := faults.invalidFormat noDecimal
    rcases k.ofText_cases text with ⟨-, found⟩ | ⟨plain, ⟨wide, -⟩ | ⟨-, found⟩ | ⟨n, literal, -⟩⟩
    · rw [found] at format
      cases format
    · refine ⟨plain, not_or.mp fun misread => ?_⟩
      rw [← readWide_eq_outOfRange_iff, wide] at misread
      cases misread
    · rw [found] at format
      cases format
    · exact absurd literal.isDecimal noDecimal
  · intro holds
    rcases k.ofText_cases text with ⟨mark, found⟩ | ⟨plain, ⟨-, found⟩ | ⟨wide, found⟩ |
      ⟨n, literal, ⟨v, found⟩ | ⟨outside, found⟩⟩⟩
    · rcases holds with decimal | ⟨plain, -⟩
      · exact .of_floatToInteger found decimal mark
      · rw [plain] at mark
        cases mark
    · exact .of_invalidFormat found
    · rcases holds with decimal | ⟨-, within, bare⟩
      · obtain ⟨n, literal⟩ := decimal.integer plain
        exact .of_overflow found literal (unfit_of_outOfRange wide literal)
      · rcases (readWide_eq_outOfRange_iff k _).mp wide with beyond | minus
        · exact absurd beyond within
        · exact absurd minus bare
    · exact .of_ok found literal.isDecimal
    · exact .of_overflow found literal.signed (.inl outside)

/-- A word with an `e` in it, a word behind a minus, and twenty digits with a letter behind them are
no numbers. The first is said to have a fraction, the others to overflow. -/
theorem not_faultsTrue_samples :
    ¬ IntKind.i64.FaultsTrue "hello" ∧ ¬ IntKind.u8.FaultsTrue "-abc" ∧
      ¬ IntKind.i64.FaultsTrue "99999999999999999999x" := by
  have noDecimal : ∀ {cs}, Numeral.Literal.read? cs = none → ¬ IsDecimal cs := by
    rintro cs unread ⟨negative, digits, exponent, literal⟩
    rw [(Numeral.read?_eq_decimal_iff _ _ _ _).mpr literal] at unread
    cases unread
  refine ⟨fun faults => ?_, fun faults => ?_, fun faults => ?_⟩
  all_goals cases faults.invalidFormat (noDecimal (by decide))

end IntKind

end Intake
