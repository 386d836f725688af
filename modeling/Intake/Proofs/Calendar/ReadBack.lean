import Intake.Calendar.Reading
import Intake.Calendar.Writing
import Intake.Text.Segments
import Mathlib.Algebra.Group.Nat.Defs

/-!
# Written timestamps are read back

Every part of a timestamp is written with as many digits as the reader of RFC 3339 takes for
it, so the text of a timestamp of the years 0 to 9999 is read as the same timestamp, whatever
text of its offset stands at the end.
-/

namespace Intake.Calendar

/-! ### Digits -/

theorem length_padded (width n : Nat) : (padded width n).length = width := by
  induction width generalizing n with
  | zero => rfl
  | succ width ih => rw [padded, List.length_append, ih, List.length_singleton]

theorem isDigit_padded {width n : Nat} : ∀ c ∈ padded width n, c.isDigit = true := by
  induction width generalizing n with
  | zero => exact List.forall_mem_nil _
  | succ width ih =>
    rw [padded, List.forall_mem_append]
    refine ⟨ih, List.forall_mem_singleton.mpr ?_⟩
    rw [Nat.isDigit_digitChar]
    exact decide_eq_true (Nat.mod_lt n (by decide))

theorem ofDigitChars_padded {width n : Nat} (fits : n < 10 ^ width) :
    Nat.ofDigitChars 10 (padded width n) 0 = n := by
  induction width generalizing n with
  | zero =>
    obtain rfl := Nat.lt_one_iff.mp fits
    rfl
  | succ width ih =>
    rw [Nat.pow_succ] at fits
    rw [padded, Nat.ofDigitChars_append, ih (by omega),
      Nat.ofDigitChars_cons_digitChar_of_lt_ten (Nat.mod_lt n (by decide)), Nat.ofDigitChars_nil]
    omega

theorem readExactly_append {width : Nat} {ds : List Char} (length : ds.length = width)
    (digits : ∀ c ∈ ds, c.isDigit = true) (rest : List Char) :
    readExactly width (ds ++ rest) = some (Nat.ofDigitChars 10 ds 0, rest) := by
  subst length
  simp only [readExactly, List.take_left, List.drop_left]
  rw [if_pos ⟨trivial, List.all_eq_true.mpr digits⟩]

theorem readExactly_padded {width n : Nat} (fits : n < 10 ^ width) (rest : List Char) :
    readExactly width (padded width n ++ rest) = some (n, rest) := by
  rw [readExactly_append (length_padded width n) isDigit_padded, ofDigitChars_padded fits]

def yearDigits (year : Int) : List Char :=
  List.replicate (4 - (Nat.toDigits 10 year.natAbs).length) '0' ++ Nat.toDigits 10 year.natAbs

theorem writeYear_eq (year : Int) :
    writeYear year = if 0 ≤ year ∧ year ≤ 9999 then yearDigits year
      else (if year < 0 then '-' else '+') :: yearDigits year := rfl

theorem isDigit_yearDigits (year : Int) : ∀ c ∈ yearDigits year, c.isDigit = true := by
  unfold yearDigits
  rw [List.forall_mem_append]
  refine ⟨fun c hc => ?_, fun c hc => Nat.isDigit_of_mem_toDigits (by decide) (by decide) hc⟩
  rw [List.eq_of_mem_replicate hc]
  rfl

theorem ofDigitChars_yearDigits (year : Int) :
    Nat.ofDigitChars 10 (yearDigits year) 0 = year.natAbs := by
  rw [yearDigits, Nat.ofDigitChars_append, Nat.ofDigitChars_replicate_zero, Nat.mul_zero,
    Nat.ofDigitChars_ten_toDigits]

theorem length_yearDigits (year : Int) :
    (yearDigits year).length = max 4 (Nat.toDigits 10 year.natAbs).length := by
  rw [yearDigits, List.length_append, List.length_replicate]
  omega

theorem readExactly_writeYear {year : Int} (range : 0 ≤ year ∧ year ≤ 9999) (rest : List Char) :
    readExactly 4 (writeYear year ++ rest) = some (year.natAbs, rest) := by
  have short : (Nat.toDigits 10 year.natAbs).length ≤ 4 :=
    (Nat.length_toDigits_le_iff (by decide) (by decide)).mpr (by omega)
  have length : (yearDigits year).length = 4 := by
    rw [length_yearDigits]
    omega
  rw [writeYear_eq, if_pos range, readExactly_append length (isDigit_yearDigits year),
    ofDigitChars_yearDigits]

/-! ### Parts -/

@[simp] theorem expect_cons (c : Char) (cs : List Char) : expect c (c :: cs) = some cs := if_pos rfl

@[simp] theorem readSeparator_cons (cs : List Char) : readSeparator ('T' :: cs) = some cs := by
  simp [readSeparator]

theorem daysInMonth_le (year : Int) (month : Nat) : daysInMonth year month ≤ 31 := by
  unfold daysInMonth
  split
  · split <;> omega
  all_goals omega

theorem Date.of?_self (d : Date) : Date.of? d.year d.month d.day = some d := by
  rw [Date.of?, dif_pos d.year_range, dif_pos d.month_range, dif_pos d.day_range]

theorem TimeOfDay.of?_self (t : TimeOfDay) :
    TimeOfDay.of? t.hour t.minute t.second t.nanosecond = some t :=
  dif_pos ⟨t.hour_range, t.minute_range, t.second_range, t.nanosecond_range⟩

/-- What stands after the seconds is neither a fraction nor a digit of one. -/
def EndsFraction (rest : List Char) : Prop := ∀ c ∈ rest.head?, c ≠ '.' ∧ c.isDigit = false

theorem readFraction_none {rest : List Char} (ends : EndsFraction rest) :
    readFraction rest = some (0, rest) := by
  unfold readFraction
  split
  · exact absurd rfl (ends '.' rfl).1
  · rfl

theorem readFraction_padded {width n : Nat} (positive : 0 < width) (le : width ≤ 9)
    (fits : n < 10 ^ width) {rest : List Char} (ends : EndsFraction rest) :
    readFraction ('.' :: padded width n ++ rest) = some (n * 10 ^ (9 - width), rest) := by
  have length := length_padded width n
  have nonempty : padded width n ≠ [] := by
    intro none
    rw [none] at length
    exact absurd length (by simp; omega)
  have digits : ∀ c ∈ padded width n, c.isDigit = true := isDigit_padded
  obtain ⟨taken, dropped⟩ := Text.span_append digits rest fun c hc => (ends c hc).2
  have kept : (padded width n).take 9 = padded width n := List.take_of_length_le (by omega)
  rw [List.cons_append, readFraction]
  simp only [taken, dropped, kept, length, ofDigitChars_padded fits, List.isEmpty_iff, nonempty,
    if_false]
  rfl

theorem readFraction_writeFraction {nanosecond : Nat} (range : nanosecond < 1000000000)
    {rest : List Char} (ends : EndsFraction rest) :
    readFraction (writeFraction nanosecond ++ rest) = some (nanosecond, rest) := by
  unfold writeFraction
  split
  · next zero =>
    rw [zero]
    exact readFraction_none ends
  · split
    · next millis =>
      rw [readFraction_padded (by decide) (by decide) (by omega) ends]
      congr
      omega
    · split
      · next micros =>
        rw [readFraction_padded (by decide) (by decide) (by omega) ends]
        congr
        omega
      · rw [readFraction_padded (by decide) (by decide) range ends]
        congr
        omega

theorem readOffset_writeOffset {offset : Int} (range : -1440 < offset ∧ offset < 1440) :
    readOffset (writeOffset offset) = some (offset, []) := by
  have hours : offset.natAbs / 60 < 10 ^ 2 := by omega
  have minutes : offset.natAbs % 60 < 10 ^ 2 := by omega
  have magnitude : ((offset.natAbs / 60 : Nat) : Int) * 60 + (offset.natAbs % 60 : Nat) =
      offset.natAbs := by omega
  have digits : ∀ c, c = '+' ∨ c = '-' → readOffset (c :: padded 2 (offset.natAbs / 60) ++
      ':' :: padded 2 (offset.natAbs % 60)) =
        some (if c = '+' then (offset.natAbs : Int) else -offset.natAbs, []) := by
    intro c sign
    have zulu : ¬ (c = 'Z' ∨ c = 'z') := by rcases sign with rfl | rfl <;> decide
    have minutes' := readExactly_padded minutes []
    rw [List.append_nil] at minutes'
    rw [List.cons_append, readOffset, if_neg zulu, if_pos (by simpa [or_assoc] using Or.inl sign)]
    simp only [readExactly_padded hours, Option.bind_eq_bind, Option.bind_some, expect_cons,
      minutes', Nat.mod_lt _ (by decide : 0 < 60), if_true, magnitude]
  unfold writeOffset
  split
  · next negative =>
    rw [digits '-' (.inr rfl), if_neg (by decide)]
    congr
    omega
  · next positive =>
    rw [digits '+' (.inl rfl), if_pos rfl]
    congr
    omega

/-- The text names the offset, and it ends the fraction before it. -/
structure Zone (offset : Int) (zone : List Char) : Prop where
  read : readOffset zone = some (offset, [])
  ends : EndsFraction zone

theorem zone_writeOffset {offset : Int} (range : -1440 < offset ∧ offset < 1440) :
    Zone offset (writeOffset offset) := by
  refine ⟨readOffset_writeOffset range, ?_⟩
  unfold EndsFraction writeOffset
  split <;> simp

/-- In JSON the offset of UTC has a letter of its own. -/
theorem zone_json {offset : Int} (range : -1440 < offset ∧ offset < 1440) :
    Zone offset (if offset = 0 then ['Z'] else writeOffset offset) := by
  split
  · next zero =>
    rw [zero]
    exact ⟨rfl, by simp [EndsFraction]⟩
  · exact zone_writeOffset range

/-! ### Timestamps -/

/-- What is written before the offset is read back, whatever text the offset has. -/
theorem readRfc3339_append (t : Timestamp) (range : 0 ≤ t.date.year ∧ t.date.year ≤ 9999)
    {zone : List Char} (named : Zone t.offset zone) :
    readRfc3339 (writeDate t.date ++ 'T' :: writeTime t.time ++ zone) = some t := by
  have year : (t.date.year.natAbs : Int) = t.date.year := by omega
  have month : t.date.month < 10 ^ 2 := by have := t.date.month_range; omega
  have day : t.date.day < 10 ^ 2 := by
    have last := t.date.day_range
    have longest := daysInMonth_le t.date.year t.date.month
    omega
  have hour : t.time.hour < 10 ^ 2 := by have := t.time.hour_range; omega
  have minute : t.time.minute < 10 ^ 2 := by have := t.time.minute_range; omega
  have second : t.time.second < 10 ^ 2 := by have := t.time.second_range; omega
  have fraction := readFraction_writeFraction t.time.nanosecond_range named.ends
  simp only [writeDate, writeTime, List.append_assoc, List.cons_append]
  refine Option.bind_eq_some_iff.mpr ⟨_, readExactly_writeYear range _, ?_⟩
  refine Option.bind_eq_some_iff.mpr ⟨_, expect_cons _ _, ?_⟩
  refine Option.bind_eq_some_iff.mpr ⟨_, readExactly_padded month _, ?_⟩
  refine Option.bind_eq_some_iff.mpr ⟨_, expect_cons _ _, ?_⟩
  refine Option.bind_eq_some_iff.mpr ⟨_, readExactly_padded day _, ?_⟩
  refine Option.bind_eq_some_iff.mpr ⟨_, readSeparator_cons _, ?_⟩
  refine Option.bind_eq_some_iff.mpr ⟨_, readExactly_padded hour _, ?_⟩
  refine Option.bind_eq_some_iff.mpr ⟨_, expect_cons _ _, ?_⟩
  refine Option.bind_eq_some_iff.mpr ⟨_, readExactly_padded minute _, ?_⟩
  refine Option.bind_eq_some_iff.mpr ⟨_, expect_cons _ _, ?_⟩
  refine Option.bind_eq_some_iff.mpr ⟨_, readExactly_padded second _, ?_⟩
  refine Option.bind_eq_some_iff.mpr ⟨_, fraction, ?_⟩
  refine Option.bind_eq_some_iff.mpr ⟨_, named.read, ?_⟩
  rw [year]
  refine Option.bind_eq_some_iff.mpr ⟨_, t.date.of?_self, ?_⟩
  refine Option.bind_eq_some_iff.mpr ⟨_, t.time.of?_self, ?_⟩
  exact dif_pos ⟨rfl, t.offset_range⟩

theorem Timestamp.read?_of_readRfc3339 {cs : List Char} {t : Timestamp}
    (read : readRfc3339 cs = some t) : Timestamp.read? cs = some t := by
  unfold Timestamp.read? Layout.all
  by_cases point : '.' ∈ cs <;> simp [Layout.read?, point, read]

/-- The text of a timestamp in JSON is read as the timestamp. -/
theorem Timestamp.read?_toJsonText (t : Timestamp)
    (range : 0 ≤ t.date.year ∧ t.date.year ≤ 9999) : Timestamp.read? t.toJsonText = some t := by
  apply Timestamp.read?_of_readRfc3339
  exact readRfc3339_append t range (zone_json t.offset_range)

end Intake.Calendar
