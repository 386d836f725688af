import Intake.Proofs.Numeral.IntegerLiterals
import Mathlib.Data.List.TakeWhile

/-!
# Decimal literals

The texts that name a number of a binary format, as a grammar: digits with an optional point and an
optional exponent, or a word for infinity, and a sign in front of either. They are the texts that
the reader of literals takes for a decimal or for infinity.
-/

namespace Intake.Numeral

/-- Digits with an optional point, as a number of so many decimal places. -/
inductive Mantissa : List Char → Nat → Nat → Prop where
  | whole {ds : List Char} (digits : IsDigits ds) : Mantissa ds (Nat.ofDigitChars 10 ds 0) 0
  | pointed {ds fs : List Char} (digits : IsDigits (ds ++ fs)) :
      Mantissa (ds ++ '.' :: fs) (Nat.ofDigitChars 10 (ds ++ fs) 0) fs.length

/-- An exponent behind its mark, or nothing. -/
inductive Scale : List Char → Int → Prop where
  | none : Scale [] 0
  | power {mark : Char} {cs : List Char} {n : Int} (marks : mark = 'e' ∨ mark = 'E')
      (literal : IntegerLiteral true cs n) : Scale (mark :: cs) n

/-- A decimal without a sign, as `digits * 10 ^ exponent`. -/
inductive Magnitude : List Char → Nat → Int → Prop where
  | scaled {ms es : List Char} {digits places : Nat} {n : Int} (mantissa : Mantissa ms digits places)
      (scale : Scale es n) : Magnitude (ms ++ es) digits (n - places)

/-- A decimal with an optional sign; `true` for a minus. -/
inductive DecimalLiteral : List Char → Bool → Nat → Int → Prop where
  | bare {cs : List Char} {digits : Nat} {exponent : Int} (magnitude : Magnitude cs digits exponent) :
      DecimalLiteral cs false digits exponent
  | plus {cs : List Char} {digits : Nat} {exponent : Int} (magnitude : Magnitude cs digits exponent) :
      DecimalLiteral ('+' :: cs) false digits exponent
  | minus {cs : List Char} {digits : Nat} {exponent : Int} (magnitude : Magnitude cs digits exponent) :
      DecimalLiteral ('-' :: cs) true digits exponent

def IsDecimal (cs : List Char) : Prop :=
  ∃ negative digits exponent, DecimalLiteral cs negative digits exponent

/-- `inf` or `infinity` in any case. -/
def IsInfinityWord (cs : List Char) : Prop :=
  cs.map Char.toLower = "inf".toList ∨ cs.map Char.toLower = "infinity".toList

/-- A word for infinity with an optional sign; `true` for a minus. -/
inductive InfinityLiteral : List Char → Bool → Prop where
  | bare {cs : List Char} (word : IsInfinityWord cs) : InfinityLiteral cs false
  | plus {cs : List Char} (word : IsInfinityWord cs) : InfinityLiteral ('+' :: cs) false
  | minus {cs : List Char} (word : IsInfinityWord cs) : InfinityLiteral ('-' :: cs) true

/-! ### Signs -/

section Signs

variable {cs : List Char}

theorem takeSign_of_unsigned (unsigned : ∀ c ∈ cs.head?, c ≠ '-' ∧ c ≠ '+') :
    Literal.takeSign cs = (false, cs) := by
  unfold Literal.takeSign
  split
  · exact absurd rfl (unsigned '-' rfl).1
  · exact absurd rfl (unsigned '+' rfl).2
  · rfl

/-- What is behind the sign of a text, and what sign there is. -/
theorem takeSign_cases (cs : List Char) :
    (∃ body, cs = '-' :: body ∧ Literal.takeSign cs = (true, body)) ∨
    (∃ body, cs = '+' :: body ∧ Literal.takeSign cs = (false, body)) ∨
    Literal.takeSign cs = (false, cs) := by
  unfold Literal.takeSign
  split
  · exact .inl ⟨_, rfl, rfl⟩
  · exact .inr (.inl ⟨_, rfl, rfl⟩)
  · exact .inr (.inr rfl)

theorem IsDigits.unsigned (digits : IsDigits cs) : ∀ c ∈ cs.head?, c ≠ '-' ∧ c ≠ '+' := by
  intro c first
  have digit := digits.2 c (List.mem_of_mem_head? first)
  constructor
  all_goals
    rintro rfl
    cases digit

theorem integerLiteral_iff (cs : List Char) (n : Int) :
    IntegerLiteral true cs n ↔ IsDigits (Literal.takeSign cs).2 ∧
      n = if (Literal.takeSign cs).1 then -(Nat.ofDigitChars 10 (Literal.takeSign cs).2 0 : Int)
        else Nat.ofDigitChars 10 (Literal.takeSign cs).2 0 := by
  constructor
  · intro literal
    cases literal with
    | bare digits =>
      rw [takeSign_of_unsigned digits.unsigned]
      exact ⟨digits, rfl⟩
    | plus digits => exact ⟨digits, rfl⟩
    | minus _ digits => exact ⟨digits, rfl⟩
  · rintro ⟨digits, rfl⟩
    rcases takeSign_cases cs with ⟨body, rfl, sign⟩ | ⟨body, rfl, sign⟩ | sign
    · rw [sign] at digits ⊢
      exact .minus rfl digits
    · rw [sign] at digits ⊢
      exact .plus digits
    · rw [sign] at digits ⊢
      exact .bare digits

end Signs

/-! ### Exponents -/

theorem readExponent_eq_some_iff (cs : List Char) (n : Int) :
    Literal.readExponent cs = some n ↔ Scale cs n := by
  have behind : ∀ mark cs, mark = 'e' ∨ mark = 'E' →
      (Literal.readExponent (mark :: cs) = some n ↔ IntegerLiteral true cs n) := by
    intro mark cs marks
    have digits : IsDigits (Literal.takeSign cs).2 ↔
        ¬ ((Literal.takeSign cs).2.isEmpty || !(Literal.takeSign cs).2.all Char.isDigit) = true := by
      simp [IsDigits]
    rw [Literal.readExponent, if_pos marks, integerLiteral_iff, digits]
    dsimp only
    split
    · next other => exact iff_of_false (Option.some_ne_none n).symm fun literal => literal.1 other
    · next digits =>
      rw [Option.some.injEq]
      exact ⟨fun same => ⟨digits, same.symm⟩, fun literal => literal.2.symm⟩
  constructor
  · intro read
    cases cs with
    | nil =>
      obtain rfl := Option.some.inj read
      exact .none
    | cons mark cs =>
      by_cases marks : mark = 'e' ∨ mark = 'E'
      · exact .power marks ((behind mark cs marks).mp read)
      · rw [Literal.readExponent, if_neg marks] at read
        cases read
  · intro scale
    cases scale with
    | none => rfl
    | power marks literal => exact (behind _ _ marks).mpr literal

theorem Scale.stop {cs : List Char} {n : Int} (scale : Scale cs n) :
    ∀ c ∈ cs.head?, c.isDigit = false ∧ c ≠ '.' := by
  cases scale with
  | none => simp
  | power marks =>
    intro c first
    obtain rfl := Option.some.inj first
    rcases marks with rfl | rfl <;> exact ⟨rfl, by decide⟩

/-! ### Decimals without a sign -/

section Magnitudes

variable {ds fs rest : List Char}

theorem readDecimal_whole (negative : Bool) (digits : ∀ c ∈ ds, c.isDigit = true)
    (stop : ∀ c ∈ rest.head?, c.isDigit = false ∧ c ≠ '.') :
    Literal.readDecimal negative (ds ++ rest) =
      if ds.isEmpty then none
      else (Literal.readExponent rest).map (.decimal negative (Nat.ofDigitChars 10 ds 0)) := by
  obtain ⟨before, behind⟩ := Text.span_append digits rest fun c first => (stop c first).1
  have noPoint : ∀ tail, rest ≠ '.' :: tail := by
    rintro tail rfl
    exact (stop '.' rfl).2 rfl
  unfold Literal.readDecimal
  rw [before, behind]
  dsimp only
  split
  · exact absurd rfl (noPoint _)
  · simp

theorem readDecimal_pointed (negative : Bool) (digits : ∀ c ∈ ds, c.isDigit = true)
    (places : ∀ c ∈ fs, c.isDigit = true) (stop : ∀ c ∈ rest.head?, c.isDigit = false) :
    Literal.readDecimal negative (ds ++ '.' :: (fs ++ rest)) =
      if (ds ++ fs).isEmpty then none
      else (Literal.readExponent rest).map fun exponent =>
        .decimal negative (Nat.ofDigitChars 10 (ds ++ fs) 0) (exponent - fs.length) := by
  obtain ⟨before, behind⟩ := Text.span_append digits ('.' :: (fs ++ rest)) (by simp)
  obtain ⟨before', behind'⟩ := Text.span_append places rest stop
  unfold Literal.readDecimal
  rw [before, behind]
  simp [before', behind']

/-- Where the digits of a text end, with a point among them or without one. -/
theorem exists_digits (cs : List Char) :
    ∃ ds, (∀ c ∈ ds, c.isDigit = true) ∧
      ((∃ rest, (∀ c ∈ rest.head?, c.isDigit = false ∧ c ≠ '.') ∧ cs = ds ++ rest) ∨
        ∃ fs rest, (∀ c ∈ fs, c.isDigit = true) ∧ (∀ c ∈ rest.head?, c.isDigit = false) ∧
          cs = ds ++ '.' :: (fs ++ rest)) := by
  have digits : ∀ cs : List Char, ∀ c ∈ cs.takeWhile Char.isDigit, c.isDigit = true :=
    fun _ _ => List.mem_takeWhile_imp
  have stop : ∀ cs : List Char, ∀ c ∈ (cs.dropWhile Char.isDigit).head?, c.isDigit = false := by
    intro cs c first
    simpa [Option.mem_def.mp first] using List.head?_dropWhile_not Char.isDigit cs
  have whole := List.takeWhile_append_dropWhile (p := Char.isDigit) (l := cs)
  refine ⟨cs.takeWhile Char.isDigit, digits cs, ?_⟩
  by_cases point : (cs.dropWhile Char.isDigit).head? = some '.'
  · obtain ⟨tail, behind⟩ := List.head?_eq_some_iff.mp point
    refine .inr ⟨_, _, digits tail, stop tail, ?_⟩
    rw [List.takeWhile_append_dropWhile, ← behind, whole]
  · exact .inl ⟨_, fun c first => ⟨stop cs c first, fun same => point (same ▸ first)⟩, whole.symm⟩

theorem readDecimal_eq_some_iff (negative : Bool) (cs : List Char) (literal : Literal) :
    Literal.readDecimal negative cs = some literal ↔
      ∃ digits exponent, Magnitude cs digits exponent ∧
        literal = .decimal negative digits exponent := by
  constructor
  · intro read
    obtain ⟨ds, digits, ⟨rest, stop, rfl⟩ | ⟨fs, rest, places, stop, rfl⟩⟩ := exists_digits cs
    · rw [readDecimal_whole negative digits stop] at read
      split at read
      · cases read
      · next more =>
        obtain ⟨n, scale, rfl⟩ := Option.map_eq_some_iff.mp read
        have mantissa := Mantissa.whole ⟨mt List.isEmpty_iff.mpr more, digits⟩
        have magnitude := Magnitude.scaled mantissa ((readExponent_eq_some_iff _ _).mp scale)
        exact ⟨_, _, magnitude, by simp⟩
    · rw [readDecimal_pointed negative digits places stop] at read
      split at read
      · cases read
      · next more =>
        obtain ⟨n, scale, rfl⟩ := Option.map_eq_some_iff.mp read
        have mantissa := Mantissa.pointed
          ⟨mt List.isEmpty_iff.mpr more, List.forall_mem_append.mpr ⟨digits, places⟩⟩
        have magnitude := Magnitude.scaled mantissa ((readExponent_eq_some_iff _ _).mp scale)
        rw [List.append_assoc, List.cons_append] at magnitude
        exact ⟨_, _, magnitude, rfl⟩
  · rintro ⟨_, _, ⟨mantissa, scale⟩, rfl⟩
    have read := (readExponent_eq_some_iff _ _).mpr scale
    cases mantissa with
    | whole digits =>
      rw [readDecimal_whole negative digits.2 scale.stop, digits.isEmpty, read]
      simp
    | @pointed ds fs digits =>
      obtain ⟨before, behind⟩ := List.forall_mem_append.mp digits.2
      rw [List.append_assoc, List.cons_append,
        readDecimal_pointed negative before behind fun c first => (scale.stop c first).1,
        digits.isEmpty, read]
      simp

end Magnitudes

/-! ### Words -/

section Words

variable {cs : List Char} {digits : Nat} {exponent : Int} {negative : Bool}

theorem isInfinityWord_iff (cs : List Char) :
    Literal.isInfinityWord cs = true ↔ IsInfinityWord cs := by
  simp [Literal.isInfinityWord, IsInfinityWord]

theorem toLower_of_isDigit {c : Char} (digit : c.isDigit = true) : c.toLower = c := by
  simp only [Char.isDigit, Bool.and_eq_true, decide_eq_true_eq] at digit
  refine dif_neg fun upper => ?_
  have large : 'A'.val ≤ '9'.val := UInt32.le_trans upper.1 digit.2
  exact absurd large (by decide)

theorem Magnitude.head (magnitude : Magnitude cs digits exponent) :
    ∃ c tail, cs = c :: tail ∧ (c.isDigit = true ∨ c = '.') := by
  obtain ⟨mantissa, scale⟩ := magnitude
  cases mantissa with
  | whole digits =>
    obtain ⟨c, tail, rfl⟩ := List.exists_cons_of_ne_nil digits.1
    exact ⟨c, _, rfl, .inl (digits.2 c List.mem_cons_self)⟩
  | @pointed ds fs digits =>
    cases ds with
    | nil => exact ⟨'.', _, rfl, .inr rfl⟩
    | cons c ds => exact ⟨c, _, rfl, .inl (digits.2 c List.mem_cons_self)⟩

theorem Magnitude.unsigned (magnitude : Magnitude cs digits exponent) :
    ∀ c ∈ cs.head?, c ≠ '-' ∧ c ≠ '+' := by
  obtain ⟨c, tail, rfl, begins⟩ := magnitude.head
  intro d first
  obtain rfl := Option.some.inj first
  constructor
  all_goals
    rintro rfl
    rcases begins with digit | point
    · cases digit
    · cases point

theorem Magnitude.not_word (magnitude : Magnitude cs digits exponent) :
    Literal.isInfinityWord cs = false ∧ Literal.isNanWord cs = false := by
  obtain ⟨c, tail, rfl, begins⟩ := magnitude.head
  have other : ∀ d : Char, d.isDigit = false → d ≠ '.' → (c.toLower == d) = false := by
    intro d letter noPoint
    rw [beq_eq_false_iff_ne]
    rintro rfl
    rcases begins with digit | rfl
    · rw [toLower_of_isDigit digit, digit] at letter
      cases letter
    · exact noPoint rfl
  have noInfinity := other 'i' rfl (by decide)
  have noNan := other 'n' rfl (by decide)
  simp [Literal.isInfinityWord, Literal.isNanWord, noInfinity, noNan]

theorem IsInfinityWord.unsigned (word : IsInfinityWord cs) :
    ∀ c ∈ cs.head?, c ≠ '-' ∧ c ≠ '+' := by
  intro c first
  obtain ⟨tail, rfl⟩ := List.head?_eq_some_iff.mp first
  constructor
  all_goals
    rintro rfl
    rcases word with word | word
    all_goals cases word

end Words

/-! ### Literals -/

section Literals

variable {cs body : List Char} {digits : Nat} {exponent : Int} {negative sign : Bool}

theorem read?_eq (signed : Literal.takeSign cs = (sign, body)) :
    Literal.read? cs =
      if Literal.isInfinityWord body then some (.infinity sign)
      else if Literal.isNanWord body then some .nan
      else Literal.readDecimal sign body := by
  rw [Literal.read?, signed]

theorem Magnitude.read? (magnitude : Magnitude body digits exponent)
    (signed : Literal.takeSign cs = (sign, body)) :
    Literal.read? cs = some (.decimal sign digits exponent) := by
  obtain ⟨noInfinity, noNan⟩ := magnitude.not_word
  rw [read?_eq signed, noInfinity, noNan]
  exact (readDecimal_eq_some_iff _ _ _).mpr ⟨_, _, magnitude, rfl⟩

theorem IsInfinityWord.read? (word : IsInfinityWord body)
    (signed : Literal.takeSign cs = (sign, body)) : Literal.read? cs = some (.infinity sign) := by
  rw [read?_eq signed, if_pos ((isInfinityWord_iff body).mpr word)]

theorem magnitude_of_read? (signed : Literal.takeSign cs = (sign, body))
    (read : Literal.read? cs = some (.decimal negative digits exponent)) :
    negative = sign ∧ Magnitude body digits exponent := by
  rw [read?_eq signed] at read
  split at read
  · cases read
  split at read
  · cases read
  obtain ⟨_, _, magnitude, same⟩ := (readDecimal_eq_some_iff _ _ _).mp read
  obtain ⟨rfl, rfl, rfl⟩ := Literal.decimal.inj same
  exact ⟨rfl, magnitude⟩

theorem infinityWord_of_read? (signed : Literal.takeSign cs = (sign, body))
    (read : Literal.read? cs = some (.infinity negative)) :
    negative = sign ∧ IsInfinityWord body := by
  rw [read?_eq signed] at read
  split at read
  · next word =>
    obtain rfl := Literal.infinity.inj (Option.some.inj read)
    exact ⟨rfl, (isInfinityWord_iff body).mp word⟩
  split at read
  · cases read
  obtain ⟨_, _, -, same⟩ := (readDecimal_eq_some_iff _ _ _).mp read
  cases same

/-- The reader takes for decimals exactly the texts of the grammar, as the numbers it names. -/
theorem read?_eq_decimal_iff (cs : List Char) (negative : Bool) (digits : Nat) (exponent : Int) :
    Literal.read? cs = some (.decimal negative digits exponent) ↔
      DecimalLiteral cs negative digits exponent := by
  constructor
  · intro read
    rcases takeSign_cases cs with ⟨body, rfl, signed⟩ | ⟨body, rfl, signed⟩ | signed
    · obtain ⟨rfl, magnitude⟩ := magnitude_of_read? signed read
      exact .minus magnitude
    · obtain ⟨rfl, magnitude⟩ := magnitude_of_read? signed read
      exact .plus magnitude
    · obtain ⟨rfl, magnitude⟩ := magnitude_of_read? signed read
      exact .bare magnitude
  · intro literal
    cases literal with
    | bare magnitude => exact magnitude.read? (takeSign_of_unsigned magnitude.unsigned)
    | plus magnitude => exact magnitude.read? rfl
    | minus magnitude => exact magnitude.read? rfl

/-- It takes for infinity exactly the words. -/
theorem read?_eq_infinity_iff (cs : List Char) (negative : Bool) :
    Literal.read? cs = some (.infinity negative) ↔ InfinityLiteral cs negative := by
  constructor
  · intro read
    rcases takeSign_cases cs with ⟨body, rfl, signed⟩ | ⟨body, rfl, signed⟩ | signed
    · obtain ⟨rfl, word⟩ := infinityWord_of_read? signed read
      exact .minus word
    · obtain ⟨rfl, word⟩ := infinityWord_of_read? signed read
      exact .plus word
    · obtain ⟨rfl, word⟩ := infinityWord_of_read? signed read
      exact .bare word
  · intro literal
    cases literal with
    | bare word => exact word.read? (takeSign_of_unsigned word.unsigned)
    | plus word => exact word.read? rfl
    | minus word => exact word.read? rfl

/-- The text of an integer is a decimal without places. -/
theorem IntegerLiteral.decimal {signed : Bool} {n : Int} (literal : IntegerLiteral signed cs n) :
    ∃ negative, DecimalLiteral cs negative n.natAbs 0 := by
  have magnitude : ∀ {ds}, IsDigits ds → Magnitude ds (Nat.ofDigitChars 10 ds 0) 0 := by
    intro ds digits
    simpa using Magnitude.scaled (.whole digits) .none
  cases literal with
  | bare digits => exact ⟨false, .bare (magnitude digits)⟩
  | plus digits => exact ⟨false, .plus (magnitude digits)⟩
  | minus _ digits => exact ⟨true, by simpa using DecimalLiteral.minus (magnitude digits)⟩

theorem IntegerLiteral.isDecimal {signed : Bool} {n : Int} (literal : IntegerLiteral signed cs n) :
    IsDecimal cs :=
  have ⟨negative, decimal⟩ := literal.decimal
  ⟨negative, _, _, decimal⟩

end Literals

end Intake.Numeral
