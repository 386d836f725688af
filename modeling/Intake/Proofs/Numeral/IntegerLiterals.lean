import Intake.Proofs.Numeral.Integers
import Intake.Text.Segments
import Mathlib.Logic.Basic

/-!
# Integer literals

Which texts each kind of integers reads, and as which integer: digits, with a sign in front of them
if the kind has one. A literal whose integer is not in the range of the kind overflows it.
-/

namespace Intake

namespace Numeral

def IsDigits (cs : List Char) : Prop := cs ≠ [] ∧ ∀ c ∈ cs, c.isDigit = true

/-- The text is digits with an optional sign, and names the integer. A minus must be allowed. -/
inductive IntegerLiteral (signed : Bool) : List Char → Int → Prop where
  | bare {ds : List Char} (digits : IsDigits ds) :
      IntegerLiteral signed ds (Nat.ofDigitChars 10 ds 0)
  | plus {ds : List Char} (digits : IsDigits ds) :
      IntegerLiteral signed ('+' :: ds) (Nat.ofDigitChars 10 ds 0)
  | minus {ds : List Char} (allowed : signed = true) (digits : IsDigits ds) :
      IntegerLiteral signed ('-' :: ds) (-(Nat.ofDigitChars 10 ds 0 : Int))

namespace IsDigits

variable {c : Char} {cs : List Char}

theorem cons (digit : c.isDigit = true) (digits : ∀ d ∈ cs, d.isDigit = true) :
    IsDigits (c :: cs) :=
  ⟨List.cons_ne_nil c cs, List.forall_mem_cons.mpr ⟨digit, digits⟩⟩

theorem of_all (more : cs ≠ []) (all : cs.all Char.isDigit = true) : IsDigits cs :=
  ⟨more, List.all_eq_true.mp all⟩

theorem append {ds : List Char} (digits : IsDigits cs) (more : ∀ d ∈ ds, d.isDigit = true) :
    IsDigits (cs ++ ds) :=
  ⟨List.append_ne_nil_of_left_ne_nil digits.1 ds, List.forall_mem_append.mpr ⟨digits.2, more⟩⟩

theorem isEmpty (digits : IsDigits cs) : cs.isEmpty = false := by simpa using digits.1

theorem not_mem (digits : IsDigits cs) (other : c.isDigit = false) : c ∉ cs := by
  intro among
  rw [digits.2 c among] at other
  cases other

theorem span (digits : IsDigits cs) :
    cs.takeWhile Char.isDigit = cs ∧ cs.dropWhile Char.isDigit = [] := by
  simpa using Text.span_append digits.2 [] (by simp)

theorem readMagnitude_eq (digits : IsDigits cs) (limit : Nat) :
    readMagnitude limit cs =
      if Nat.ofDigitChars 10 cs 0 ≤ limit then .ok (Nat.ofDigitChars 10 cs 0)
      else .error .outOfRange := by
  split
  · next within => exact (readMagnitude_eq_ok_iff _ _ _).mpr ⟨digits.1, digits.2, rfl, within⟩
  · next beyond =>
    rw [readMagnitude, digits.span.1]
    exact if_pos (by omega)

end IsDigits

/-! ### Reading literals -/

theorem exists_of_map_eq_ok {ε α β : Type} {found : Except ε α} {give : α → β} {b : β}
    (mapped : found.map give = .ok b) : ∃ a, found = .ok a ∧ give a = b := by
  cases found with
  | error fault => cases mapped
  | ok a => exact ⟨a, rfl, Except.ok.inj mapped⟩

section Reading

variable {limit : Nat} {cs : List Char} {n : Int}

theorem readUnsigned_of_literal (literal : IntegerLiteral false cs n) :
    (readUnsigned limit cs).map Int.ofNat = if n ≤ limit then .ok n else .error .outOfRange := by
  cases literal with
  | bare digits =>
    rw [readUnsigned_of_digits digits.2, digits.readMagnitude_eq]
    split <;> simp_all [Except.map]
  | plus digits =>
    rw [readUnsigned, digits.readMagnitude_eq]
    split <;> simp_all [Except.map]
  | minus allowed => cases allowed

theorem readSigned_of_literal (literal : IntegerLiteral true cs n) :
    readSigned limit cs =
      if -(limit + 1 : Int) ≤ n ∧ n ≤ limit then .ok n else .error .outOfRange := by
  have unsigned : ∀ {n}, IntegerLiteral false cs n → 0 ≤ n →
      readSigned limit cs = (readUnsigned limit cs).map Int.ofNat →
      readSigned limit cs =
        if -(limit + 1 : Int) ≤ n ∧ n ≤ limit then .ok n else .error .outOfRange := by
    intro n literal positive same
    rw [same, readUnsigned_of_literal literal]
    exact if_congr (by omega) rfl rfl
  cases literal with
  | bare digits =>
    refine unsigned (.bare digits) (Int.natCast_nonneg _) ?_
    rw [readSigned_of_digits digits.2, readUnsigned_of_digits digits.2]
  | plus digits => exact unsigned (.plus digits) (Int.natCast_nonneg _) rfl
  | minus _ digits =>
    rw [readSigned, digits.readMagnitude_eq]
    split
    · rw [if_pos (by omega)]
      rfl
    · rw [if_neg (by omega)]
      rfl

theorem literal_of_readUnsigned {m : Nat} (read : readUnsigned limit cs = .ok m) :
    IntegerLiteral false cs m := by
  unfold readUnsigned at read
  split at read
  · obtain ⟨more, digits, rfl, -⟩ := (readMagnitude_eq_ok_iff _ _ _).mp read
    exact .plus ⟨more, digits⟩
  · obtain ⟨more, digits, rfl, -⟩ := (readMagnitude_eq_ok_iff _ _ _).mp read
    exact .bare ⟨more, digits⟩

theorem IntegerLiteral.signed {signed : Bool} (literal : IntegerLiteral signed cs n) :
    IntegerLiteral true cs n := by
  cases literal with
  | bare digits => exact .bare digits
  | plus digits => exact .plus digits
  | minus _ digits => exact .minus rfl digits

theorem literal_of_readSigned (read : readSigned limit cs = .ok n) : IntegerLiteral true cs n := by
  unfold readSigned at read
  split at read
  · cases magnitude : readMagnitude (limit + 1) _ with
    | error fault =>
      rw [magnitude] at read
      cases read
    | ok m =>
      rw [magnitude] at read
      obtain rfl := Except.ok.inj read
      obtain ⟨more, digits, rfl, -⟩ := (readMagnitude_eq_ok_iff _ _ _).mp magnitude
      exact .minus rfl ⟨more, digits⟩
  · obtain ⟨m, magnitude, rfl⟩ := exists_of_map_eq_ok read
    exact (literal_of_readUnsigned magnitude).signed

end Reading

end Numeral

/-! ### Kinds of integers -/

namespace IntKind

open Numeral (IsDigits IntegerLiteral integerText)

variable {k : IntKind} {cs : List Char} {n : Int} {text : String}

theorem hasFraction_eq_false_iff (cs : List Char) :
    hasFraction cs = false ↔ '.' ∉ cs ∧ 'e' ∉ cs ∧ 'E' ∉ cs := by
  simp only [hasFraction, List.any_eq_false, Bool.or_eq_true, beq_iff_eq, not_or, ← ne_eq]
  constructor
  · intro apart
    exact ⟨fun h => (apart _ h).1.1 rfl, fun h => (apart _ h).1.2 rfl, fun h => (apart _ h).2 rfl⟩
  · rintro ⟨point, lower, upper⟩ c hc
    exact ⟨⟨fun h => point (h ▸ hc), fun h => lower (h ▸ hc)⟩, fun h => upper (h ▸ hc)⟩

theorem hasFraction_of_literal {signed : Bool} (literal : IntegerLiteral signed cs n) :
    hasFraction cs = false := by
  have bare : ∀ {ds}, IsDigits ds → hasFraction ds = false := fun digits =>
    (hasFraction_eq_false_iff _).mpr ⟨digits.not_mem rfl, digits.not_mem rfl, digits.not_mem rfl⟩
  cases literal with
  | bare digits => exact bare digits
  | @plus ds digits =>
    show hasFraction ds = false
    exact bare digits
  | @minus ds _ digits =>
    show hasFraction ds = false
    exact bare digits

theorem literal_of_readWide (read : k.readWide cs = .ok n) : IntegerLiteral k.isSigned cs n := by
  unfold readWide at read
  split at read
  · next signed =>
    rw [signed]
    exact Numeral.literal_of_readSigned read
  · next unsigned =>
    rw [Bool.not_eq_true] at unsigned
    rw [unsigned]
    split at read
    · cases read
    · obtain ⟨m, magnitude, rfl⟩ := Numeral.exists_of_map_eq_ok read
      exact Numeral.literal_of_readUnsigned magnitude

/-- A literal beyond the widest kind is in the range of no kind with the same sign. -/
theorem readWide_of_literal (literal : IntegerLiteral k.isSigned cs n) :
    k.readWide cs = .ok n ∨
      k.readWide cs = .error .outOfRange ∧ ¬ (k.low ≤ n ∧ n ≤ k.high) := by
  unfold readWide
  split
  · next signed =>
    obtain ⟨least, greatest⟩ := range_of_signed signed
    rw [signed] at literal
    rw [Numeral.readSigned_of_literal literal]
    split
    · exact .inl rfl
    · exact .inr ⟨rfl, by omega⟩
  · next unsigned =>
    obtain ⟨least, greatest⟩ := range_of_unsigned unsigned
    rw [Bool.not_eq_true] at unsigned
    rw [unsigned] at literal
    have wide : ∀ ds, cs ≠ '-' :: ds := by
      rintro ds rfl
      cases literal with
      | bare digits => exact digits.not_mem rfl List.mem_cons_self
      | minus allowed => cases allowed
    split
    · exact absurd rfl (wide _)
    · rw [Numeral.readUnsigned_of_literal literal]
      split
      · exact .inl rfl
      · exact .inr ⟨rfl, by omega⟩

theorem ofText_of_literal (literal : IntegerLiteral k.isSigned text.toList n) :
    k.ofText text = match k.ofInt? n with
      | some v => .ok v
      | none => .error (.overflow text (.int k)) := by
  rw [ofText, hasFraction_of_literal literal, if_neg Bool.false_ne_true]
  rcases readWide_of_literal literal with read | ⟨read, outside⟩
  · cases value : k.ofInt? n <;> simp only [read, value]
  · have absent : k.ofInt? n = none := dif_neg outside
    simp only [read, absent]

theorem ofText_eq_ok_iff (k : IntKind) (text : String) (v : k.Number) :
    k.ofText text = .ok v ↔ IntegerLiteral k.isSigned text.toList v.value := by
  constructor
  · intro read
    unfold ofText at read
    split at read
    · cases read
    split at read
    · cases read
    · cases read
    · next n wide =>
      split at read
      · next w value =>
        obtain rfl := Except.ok.inj read
        rw [(k.ofInt?_eq_some_iff _ _).mp value]
        exact literal_of_readWide wide
      · cases read
  · intro literal
    rw [ofText_of_literal literal, (k.ofInt?_eq_some_iff _ _).mpr rfl]

theorem ofText_minus (unsigned : k.isSigned = false) (minus : text.toList.head? = some '-')
    (plain : hasFraction text.toList = false) :
    k.ofText text = .error (.overflow text (.int k)) := by
  obtain ⟨ds, same⟩ := List.head?_eq_some_iff.mp minus
  have wide : k.readWide text.toList = .error .outOfRange := by
    simp [readWide, unsigned, same]
  rw [ofText, plain, wide]
  rfl

/-- A kind reads the literals of the integers in its range, and nothing else; a number of the kind
is in its range. A literal of any other integer overflows the kind, and so does a minus where the
kind has none. -/
theorem ofText_accepts_literals (k : IntKind) (text : String) :
    (∀ v, k.ofText text = .ok v ↔ IntegerLiteral k.isSigned text.toList v.value) ∧
    (∀ v : k.Number, k.ofText (integerText v.value) = .ok v) ∧
    (∀ n, IntegerLiteral k.isSigned text.toList n → ¬ (k.low ≤ n ∧ n ≤ k.high) →
      k.ofText text = .error (.overflow text (.int k))) ∧
    (k.isSigned = false → text.toList.head? = some '-' → '.' ∉ text.toList →
      'e' ∉ text.toList → 'E' ∉ text.toList → k.ofText text = .error (.overflow text (.int k))) := by
  refine ⟨k.ofText_eq_ok_iff text, k.ofText_integerText, ?_, ?_⟩
  · intro n literal outside
    have absent : k.ofInt? n = none := dif_neg outside
    rw [ofText_of_literal literal, absent]
  · intro unsigned minus point lower upper
    exact ofText_minus unsigned minus ((hasFraction_eq_false_iff _).mpr ⟨point, lower, upper⟩)

/-- The least number of a kind with a needless zero, the next one below it, and a minus before a
kind that has none. -/
theorem ofText_accepts_literals_bounds :
    IntegerLiteral true "-0128".toList (-128) ∧
      IntKind.i8.ofText "-0128" = .ok ⟨-128, by decide⟩ ∧
      IntegerLiteral true "-129".toList (-129) ∧
      IntKind.i8.ofText "-129" = .error (.overflow "-129" (.int .i8)) ∧
      IntKind.u8.ofText "-" = .error (.overflow "-" (.int .u8)) := by
  have least : IntegerLiteral true ('-' :: "0128".toList) (-128) :=
    .minus rfl (.of_all (by decide) rfl)
  have below : IntegerLiteral true ('-' :: "129".toList) (-129) :=
    .minus rfl (.of_all (by decide) rfl)
  obtain ⟨reads, -⟩ := ofText_accepts_literals .i8 "-0128"
  obtain ⟨-, -, overflows, -⟩ := ofText_accepts_literals .i8 "-129"
  obtain ⟨-, -, -, minus⟩ := ofText_accepts_literals .u8 "-"
  exact ⟨least, (reads ⟨-128, by decide⟩).mpr least, below,
    overflows (-129) below (by decide),
    minus rfl rfl (by decide) (by decide) (by decide)⟩

end IntKind

end Intake
