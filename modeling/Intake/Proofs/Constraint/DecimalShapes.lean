import Intake.Constraint
import Mathlib.Data.List.TakeWhile

/-!
# Texts of a decimal shape

Which texts the check of a decimal shape accepts, as a grammar: an optional sign, digits, and
optionally a point and digits, with blanks around them, or blanks alone. Digits may be missing
before the point and behind it. A missing whole part counts as a digit, so a text that has no digit
at all passes as well, and this is the only difference from the decimals of the shape.
-/

namespace Intake

namespace Text

def BlankAround (body cs : List Char) : Prop :=
  ∃ before after, (∀ c ∈ before, isBlank c = true) ∧ (∀ c ∈ after, isBlank c = true) ∧
    cs = before ++ (body ++ after)

theorem blankAround_trim (cs : List Char) : BlankAround (trim cs) cs := by
  have behind : trimStart cs =
      trim cs ++ ((trimStart cs).reverse.takeWhile isBlank).reverse := by
    have whole := @List.takeWhile_append_dropWhile _ isBlank (trimStart cs).reverse
    rw [trim, ← List.reverse_append]
    exact List.reverse_eq_iff.mp whole.symm
  refine ⟨cs.takeWhile isBlank, ((trimStart cs).reverse.takeWhile isBlank).reverse, ?_, ?_, ?_⟩
  · exact fun c => List.mem_takeWhile_imp
  · intro c hc
    exact List.mem_takeWhile_imp (List.mem_reverse.mp hc)
  · rw [← behind, trimStart, List.takeWhile_append_dropWhile]

theorem trim_of_blankAround {body cs : List Char} (around : BlankAround body cs)
    (dense : ∀ c ∈ body, ¬ isBlank c = true) : trim cs = body := by
  obtain ⟨before, after, blank, blank', rfl⟩ := around
  by_cases empty : body = []
  · subst empty
    rw [trim_eq_nil_iff, List.all_eq_true, List.nil_append]
    exact List.forall_mem_append.mpr ⟨blank, blank'⟩
  have stops : ∀ ds rest : List Char, ds ≠ [] → (∀ c ∈ ds, ¬ isBlank c = true) →
      trimStart (ds ++ rest) = ds ++ rest := by
    intro ds rest more dense
    obtain ⟨c, ds, rfl⟩ := List.exists_cons_of_ne_nil more
    exact List.dropWhile_cons_of_neg (dense c List.mem_cons_self)
  have front : trimStart (before ++ (body ++ after)) = body ++ after := by
    rw [trimStart, List.dropWhile_append_of_pos blank]
    exact stops body after empty dense
  have back : trimStart (after.reverse ++ body.reverse) = body.reverse := by
    have stops' := stops body.reverse [] (by simpa using empty) (by simpa using dense)
    rw [List.append_nil] at stops'
    rw [trimStart, List.dropWhile_append_of_pos (by simpa using blank')]
    exact stops'
  rw [← List.reverse_append] at back
  rw [trim, front, back, List.reverse_reverse]

/-- What is said of a body without blanks is said of the trimmed text. -/
theorem exists_blankAround_iff {P : List Char → Prop}
    (dense : ∀ body, P body → ∀ c ∈ body, ¬ isBlank c = true) (cs : List Char) :
    (∃ body, BlankAround body cs ∧ P body) ↔ P (trim cs) := by
  constructor
  · rintro ⟨body, around, holds⟩
    rwa [trim_of_blankAround around (dense body holds)]
  · intro holds
    exact ⟨trim cs, blankAround_trim cs, holds⟩

end Text

namespace DecimalShape

open Text (BlankAround trim isBlank not_isBlank_of_isDigit)

/-! ### The grammar -/

/-- Digits before a point and behind it, either of which may be none. Without a point there are
none behind it. -/
inductive Places : List Char → List Char → List Char → Prop where
  | whole {ds : List Char} (digits : ∀ c ∈ ds, c.isDigit = true) : Places ds ds []
  | pointed {ds fs : List Char} (digits : ∀ c ∈ ds, c.isDigit = true)
      (digits' : ∀ c ∈ fs, c.isDigit = true) : Places (ds ++ '.' :: fs) ds fs

/-- The same with an optional sign in front. -/
inductive SignedPlaces : List Char → List Char → List Char → Prop where
  | bare {cs ds fs : List Char} (places : Places cs ds fs) : SignedPlaces cs ds fs
  | plus {cs ds fs : List Char} (places : Places cs ds fs) : SignedPlaces ('+' :: cs) ds fs
  | minus {cs ds fs : List Char} (places : Places cs ds fs) : SignedPlaces ('-' :: cs) ds fs

/-- The digits are few enough. No digits before the point count as one. -/
def Fits (d : DecimalShape) (whole part : List Char) : Prop :=
  max 1 whole.length + part.length ≤ d.precision ∧ part.length ≤ d.scale

/-- The text is blank, or is a decimal of the shape with blanks around it; a decimal has a digit. -/
def Admits (d : DecimalShape) (cs : List Char) : Prop :=
  ∃ body, BlankAround body cs ∧
    (body = [] ∨ ∃ whole part, SignedPlaces body whole part ∧ whole ++ part ≠ [] ∧ d.Fits whole part)

/-- The text is a sign, a point, or both in this order, with blanks around it. -/
def IsDigitless (cs : List Char) : Prop :=
  ∃ body, BlankAround body cs ∧ body ∈ ["+", "-", ".", "+.", "-."].map String.toList

/-! ### Reading the grammar -/

section Grammar

variable {cs ds fs : List Char}

theorem Places.mem (places : Places cs ds fs) : ∀ c ∈ cs, c.isDigit = true ∨ c = '.' := by
  intro c hc
  cases places with
  | whole digits => exact .inl (digits c hc)
  | pointed digits digits' =>
    rcases List.mem_append.mp hc with hc | hc
    · exact .inl (digits c hc)
    · rcases List.mem_cons.mp hc with rfl | hc
      · exact .inr rfl
      · exact .inl (digits' c hc)

theorem Places.not_mem (places : Places cs ds fs) {c : Char} (other : c.isDigit = false)
    (point : c ≠ '.') : c ∉ cs := by
  intro hc
  rcases places.mem c hc with digit | same
  · rw [other] at digit
    cases digit
  · exact point same

theorem places_iff (cs ds fs : List Char) :
    Places cs ds fs ↔ ds = cs.takeWhile (· ≠ '.') ∧ fs = (cs.dropWhile (· ≠ '.')).drop 1 ∧
      (∀ c ∈ ds, c.isDigit = true) ∧ ∀ c ∈ fs, c.isDigit = true := by
  have plain : ∀ ds : List Char, (∀ c ∈ ds, c.isDigit = true) → '.' ∉ ds := by
    intro ds digits hc
    cases digits '.' hc
  constructor
  · intro places
    cases places with
    | whole digits =>
      have ends := Text.span_ne_append (plain cs digits) [] (by simp)
      rw [List.append_nil] at ends
      rw [ends.1, ends.2]
      exact ⟨rfl, rfl, digits, List.forall_mem_nil _⟩
    | pointed digits digits' =>
      obtain ⟨before, behind⟩ := Text.span_ne_append (plain ds digits) ('.' :: fs) (by simp)
      rw [before, behind]
      simpa using ⟨digits, digits'⟩
  · rintro ⟨rfl, rfl, digits, fraction⟩
    have whole := @List.takeWhile_append_dropWhile _ (fun c => decide (c ≠ '.')) cs
    cases behind : cs.dropWhile (· ≠ '.') with
    | nil =>
      rw [behind, List.append_nil] at whole
      rw [whole] at digits ⊢
      exact .whole digits
    | cons c rest =>
      obtain rfl : c = '.' := by
        have stop := List.head?_dropWhile_not (fun c => decide (c ≠ '.')) cs
        rw [behind] at stop
        simpa using stop
      rw [behind] at whole fraction
      have places := Places.pointed digits fraction
      rwa [List.drop_one, List.tail_cons, whole] at places

theorem dropSign_of_places (places : Places cs ds fs) : dropSign cs = cs := by
  unfold dropSign
  split
  · exact absurd List.mem_cons_self (places.not_mem rfl (by decide))
  · exact absurd List.mem_cons_self (places.not_mem rfl (by decide))
  · rfl

theorem signedPlaces_iff (cs ds fs : List Char) :
    SignedPlaces cs ds fs ↔ Places (dropSign cs) ds fs := by
  constructor
  · intro signed
    cases signed with
    | bare places => rwa [dropSign_of_places places]
    | plus places => exact places
    | minus places => exact places
  · intro places
    unfold dropSign at places
    split at places
    · exact .minus places
    · exact .plus places
    · exact .bare places

theorem SignedPlaces.mem (signed : SignedPlaces cs ds fs) :
    ∀ c ∈ cs, c.isDigit = true ∨ c ∈ ['.', '+', '-'] := by
  have within : ∀ {cs}, Places cs ds fs → ∀ c ∈ cs, c.isDigit = true ∨ c ∈ ['.', '+', '-'] := by
    intro cs places c hc
    exact (places.mem c hc).imp_right fun same => by simp [same]
  cases signed with
  | bare places => exact within places
  | plus places => exact List.forall_mem_cons.mpr ⟨.inr (by simp), within places⟩
  | minus places => exact List.forall_mem_cons.mpr ⟨.inr (by simp), within places⟩

theorem SignedPlaces.not_isBlank (signed : SignedPlaces cs ds fs) :
    ∀ c ∈ cs, ¬ isBlank c = true := by
  have marks : ∀ c ∈ ['.', '+', '-'], ¬ isBlank c = true := by simp [isBlank]
  intro c hc
  rcases signed.mem c hc with digit | mark
  · exact not_isBlank_of_isDigit digit
  · exact marks c mark

theorem SignedPlaces.unique {ds' fs' : List Char} (signed : SignedPlaces cs ds fs)
    (signed' : SignedPlaces cs ds' fs') : ds = ds' ∧ fs = fs' := by
  rw [signedPlaces_iff, places_iff] at signed signed'
  exact ⟨signed.1.trans signed'.1.symm, signed.2.1.trans signed'.2.1.symm⟩

/-- The texts without a digit that the grammar has. -/
theorem signedPlaces_nil_iff (cs : List Char) :
    SignedPlaces cs [] [] ↔ cs = [] ∨ cs ∈ ["+", "-", ".", "+.", "-."].map String.toList := by
  have bare : ∀ cs, Places cs [] [] ↔ cs = [] ∨ cs = ['.'] := by
    intro cs
    constructor
    · rintro (_ | _)
      · exact .inl rfl
      · exact .inr rfl
    · rintro (rfl | rfl)
      · exact .whole (List.forall_mem_nil _)
      · exact .pointed (List.forall_mem_nil _) (List.forall_mem_nil _)
  constructor
  · intro signed
    cases signed with
    | bare places => rcases (bare _).mp places with rfl | rfl <;> simp
    | plus places => rcases (bare _).mp places with rfl | rfl <;> simp
    | minus places => rcases (bare _).mp places with rfl | rfl <;> simp
  · intro listed
    simp only [List.map_cons, List.map_nil, List.mem_cons, List.not_mem_nil, or_false] at listed
    rcases listed with rfl | rfl | rfl | rfl | rfl | rfl
    · exact .bare ((bare _).mpr (.inl rfl))
    · exact .plus ((bare _).mpr (.inl rfl))
    · exact .minus ((bare _).mpr (.inl rfl))
    · exact .bare ((bare _).mpr (.inr rfl))
    · exact .plus ((bare _).mpr (.inr rfl))
    · exact .minus ((bare _).mpr (.inr rfl))

end Grammar

/-! ### What the check accepts -/

theorem guard_eq_none_iff {c : Prop} [Decidable c] {fault : Fault} {rest : Option Fault} :
    (if c then some fault else rest) = none ↔ ¬ c ∧ rest = none := by
  by_cases h : c <;> simp [h]

theorem allDigits_iff (ds fs : List Char) :
    ¬ (!ds.all Char.isDigit || !fs.all Char.isDigit) = true ↔
      (∀ c ∈ ds, c.isDigit = true) ∧ ∀ c ∈ fs, c.isDigit = true := by
  simp only [Bool.or_eq_true, Bool.not_eq_true', not_or, Bool.not_eq_false, List.all_eq_true]

theorem fault?_eq_none_iff (d : DecimalShape) (cs : List Char) :
    d.fault? cs = none ↔
      trim cs = [] ∨ ∃ whole part, SignedPlaces (trim cs) whole part ∧ d.Fits whole part := by
  simp only [signedPlaces_iff]
  by_cases blank : trim cs = []
  · simp [fault?, blank]
  simp only [fault?, List.isEmpty_iff, blank, if_false, false_or]
  generalize dropSign (trim cs) = body
  simp only [guard_eq_none_iff, allDigits_iff, and_true]
  constructor
  · rintro ⟨-, -, decimal, total, fraction⟩
    exact ⟨_, _, (places_iff _ _ _).mpr ⟨rfl, rfl, decimal⟩, by omega, by omega⟩
  · rintro ⟨whole, part, places, total, fraction⟩
    have exponent : ¬ body.any (fun c => c == 'e' || c == 'E') = true := by
      simp only [List.any_eq_true, not_exists, not_and, Bool.or_eq_true, beq_iff_eq]
      rintro c hc (rfl | rfl)
      · exact places.not_mem rfl (by decide) hc
      · exact places.not_mem rfl (by decide) hc
    obtain ⟨rfl, rfl, digits, digits'⟩ := (places_iff _ _ _).mp places
    have point : '.' ∉ (body.dropWhile (· ≠ '.')).drop 1 := by
      intro hc
      cases digits' '.' hc
    exact ⟨exponent, point, ⟨digits, digits'⟩, by omega, by omega⟩

theorem admits_iff (d : DecimalShape) (cs : List Char) :
    d.Admits cs ↔ trim cs = [] ∨
      ∃ whole part, SignedPlaces (trim cs) whole part ∧ whole ++ part ≠ [] ∧ d.Fits whole part := by
  apply Text.exists_blankAround_iff
  rintro body (rfl | ⟨whole, part, signed, -⟩)
  · exact List.forall_mem_nil _
  · exact signed.not_isBlank

theorem isDigitless_iff (cs : List Char) :
    IsDigitless cs ↔ trim cs ≠ [] ∧ SignedPlaces (trim cs) [] [] := by
  have listed : IsDigitless cs ↔ trim cs ∈ ["+", "-", ".", "+.", "-."].map String.toList := by
    apply Text.exists_blankAround_iff
    intro body among
    exact ((signedPlaces_nil_iff body).mpr (.inr among)).not_isBlank
  have more : ∀ body ∈ ["+", "-", ".", "+.", "-."].map String.toList, body ≠ [] := by decide
  rw [listed, signedPlaces_nil_iff]
  constructor
  · exact fun among => ⟨more _ among, .inr among⟩
  · rintro ⟨nonempty, empty | among⟩
    · exact absurd empty nonempty
    · exact among

theorem violation?_decimal_eq_none_iff (d : DecimalShape) (text : String) :
    (Constraint.decimal d).violation? text = none ↔ d.fault? text.toList = none := by
  simp [Constraint.violation?]

/-- The texts that pass are the decimals of the shape and blank texts, but where the shape has room
for a digit also the texts that are a sign, a point or both, which have no digit. -/
theorem admits_exactly_iff (d : DecimalShape) (text : String) :
    ((Constraint.decimal d).violation? text = none ↔ d.Admits text.toList) ↔
      ¬ (0 < d.precision ∧ IsDigitless text.toList) := by
  rw [violation?_decimal_eq_none_iff, fault?_eq_none_iff, admits_iff, isDigitless_iff]
  by_cases blank : trim text.toList = []
  · simp [blank]
  simp only [blank, false_or, ne_eq, not_false_eq_true, true_and]
  constructor
  · rintro same ⟨room, signed⟩
    have fits : d.Fits [] [] := ⟨room, Nat.zero_le _⟩
    obtain ⟨whole, part, signed', more, -⟩ := same.mp ⟨[], [], signed, fits⟩
    obtain ⟨rfl, rfl⟩ := signed.unique signed'
    exact more rfl
  · intro apart
    constructor
    · rintro ⟨whole, part, signed, fits⟩
      refine ⟨whole, part, signed, ?_, fits⟩
      intro none_
      obtain ⟨rfl, rfl⟩ := List.append_eq_nil_iff.mp none_
      have room := fits.1
      simp only [List.length_nil] at room
      exact apart ⟨by omega, signed⟩
    · rintro ⟨whole, part, signed, -, fits⟩
      exact ⟨whole, part, signed, fits⟩

/-- A lone sign passes, and is no decimal. -/
theorem not_admits_sampleSign :
    ¬ ((Constraint.decimal ⟨5, 2⟩).violation? "-" = none ↔ Admits ⟨5, 2⟩ "-".toList) := by
  intro same
  have passes : (Constraint.decimal ⟨5, 2⟩).violation? "-" = none := by rfl
  obtain blank | ⟨whole, part, signed, more, -⟩ := (admits_iff _ _).mp (same.mp passes)
  · cases blank
  · have digitless : SignedPlaces ['-'] [] [] := .minus (.whole (List.forall_mem_nil _))
    obtain ⟨rfl, rfl⟩ := signed.unique digitless
    exact more rfl

end DecimalShape

end Intake
