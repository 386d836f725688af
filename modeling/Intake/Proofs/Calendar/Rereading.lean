import Intake.Proofs.Calendar.Layouts
import Intake.Proofs.Numeral.IntegerLiterals
import Intake.Proofs.Value.Written

/-!
# Timestamps survive writing

Whatever layout a timestamp was read in, it is written in RFC 3339. Its text is read as the same
timestamp if the local year has four digits. A longer year has a sign, which RFC 3339 does not
allow, and the local layouts, which do, have no offset; so that text has no layout at all.
-/

namespace Intake.Calendar

/-! ### Local parts -/

theorem readUpTo_append {width : Nat} {ds rest : List Char} (digits : Numeral.IsDigits ds)
    (fits : ds.length ≤ width) (stop : ∀ c ∈ rest.head?, c.isDigit = false) :
    readUpTo width (ds ++ rest) = some (Nat.ofDigitChars 10 ds 0, rest) := by
  have cut : (ds ++ rest).take width = ds ++ rest.take (width - ds.length) := by
    rw [List.take_append, List.take_of_length_le fits]
  have stop' : ∀ c ∈ (rest.take (width - ds.length)).head?, c.isDigit = false := by
    intro c first
    rw [List.head?_take] at first
    split at first
    · cases first
    · exact stop c first
  have taken : ((ds ++ rest).take width).takeWhile Char.isDigit = ds := by
    rw [cut]
    exact (Text.span_append digits.2 _ stop').1
  unfold readUpTo
  rw [taken]
  simp [digits.isEmpty]

theorem readYear_writeYear (year : Int) {rest : List Char}
    (stop : ∀ c ∈ rest.head?, c.isDigit = false) :
    readYear (writeYear year ++ rest) = some (year, rest) := by
  by_cases range : 0 ≤ year ∧ year ≤ 9999
  · rw [readYear_of_readExactly (readExactly_writeYear range rest)]
    congr
    omega
  have digits : Numeral.IsDigits (yearDigits year) := by
    refine ⟨List.ne_nil_of_length_pos ?_, isDigit_yearDigits year⟩
    rw [length_yearDigits]
    omega
  have magnitude : readUpTo (yearDigits year ++ rest).length (yearDigits year ++ rest) =
      some (year.natAbs, rest) := by
    rw [readUpTo_append digits (by simp) stop, ofDigitChars_yearDigits]
  rw [writeYear_eq, if_neg range, List.cons_append]
  split
  · next negative =>
    have value : -1 * (year.natAbs : Int) = year := by omega
    show (readUpTo _ (yearDigits year ++ rest)).map _ = _
    rw [magnitude]
    exact congrArg (fun n => some (n, rest)) value
  · next positive =>
    have value : 1 * (year.natAbs : Int) = year := by omega
    show (readUpTo _ (yearDigits year ++ rest)).map _ = _
    rw [magnitude]
    exact congrArg (fun n => some (n, rest)) value

theorem readDate_writeDate (d : Date) (rest : List Char) :
    readDate (writeDate d ++ rest) = some (d, rest) := by
  have month : d.month < 10 ^ 2 := by have := d.month_range; omega
  have day : d.day < 10 ^ 2 := by
    have last := d.day_range
    have longest := daysInMonth_le d.year d.month
    omega
  have field : ∀ n < 10 ^ 2, ∀ rest, readField 2 (padded 2 n ++ rest) = some (n, rest) :=
    fun n fits rest => readField_of_readExactly (by decide) (readExactly_padded fits rest)
  have year : ∀ rest, readYear (writeYear d.year ++ '-' :: rest) = some (d.year, '-' :: rest) :=
    fun rest => readYear_writeYear d.year (by simp)
  simp only [writeDate, List.append_assoc, List.cons_append]
  unfold readDate
  simp only [year, expect_cons, field _ month, field _ day, d.of?_self, Option.bind_eq_bind,
    Option.bind_some]

theorem readTime_writeTime (t : TimeOfDay) {zone : List Char} (ends : EndsFraction zone) :
    readTime (writeTime t ++ zone) = some (t, zone) := by
  have hour : t.hour < 10 ^ 2 := by have := t.hour_range; omega
  have minute : t.minute < 10 ^ 2 := by have := t.minute_range; omega
  have second : t.second < 10 ^ 2 := by have := t.second_range; omega
  have field : ∀ n < 10 ^ 2, ∀ rest, readField 2 (padded 2 n ++ rest) = some (n, rest) :=
    fun n fits rest => readField_of_readExactly (by decide) (readExactly_padded fits rest)
  simp only [writeTime, List.append_assoc, List.cons_append]
  unfold readTime
  simp only [field _ hour, field _ minute, field _ second, expect_cons,
    readFraction_writeFraction t.nanosecond_range ends, t.of?_self, Option.bind_eq_bind,
    Option.bind_some]

/-! ### Years with a sign -/

theorem exists_head_writeDate {d : Date} (range : ¬ (0 ≤ d.year ∧ d.year ≤ 9999))
    (rest : List Char) : ∃ c cs, writeDate d ++ rest = c :: cs ∧ c.isDigit = false := by
  rw [writeDate, writeYear_eq, if_neg range]
  refine ⟨_, _, rfl, ?_⟩
  split <;> rfl

theorem readRfc3339_eq_none {cs : List Char} {c : Char} (other : c.isDigit = false) :
    readRfc3339 (c :: cs) = none := by
  cases read : readRfc3339 (c :: cs) with
  | none => rfl
  | some t =>
    unfold readRfc3339 at read
    obtain ⟨⟨year, rest⟩, yearRead, -⟩ := Option.bind_eq_some_iff.mp read
    obtain ⟨d, ds, same, digit⟩ := head_of_readExactly (by decide) yearRead
    obtain ⟨rfl, -⟩ := List.cons.inj same
    rw [digit] at other
    cases other

/-- Behind the date and the time of a local layout nothing may stand, and here the offset does. -/
theorem read?_eq_none_of_zone (t : Timestamp) (range : ¬ (0 ≤ t.date.year ∧ t.date.year ≤ 9999))
    {zone : List Char} (named : Zone t.offset zone) :
    Timestamp.read? (writeDate t.date ++ 'T' :: writeTime t.time ++ zone) = none := by
  rw [List.append_assoc, List.cons_append]
  have dateRead := readDate_writeDate t.date ('T' :: (writeTime t.time ++ zone))
  have timeRead := readTime_writeTime t.time named.ends
  have more : zone ≠ [] := by
    rintro rfl
    cases named.read
  obtain ⟨c, cs, same, other⟩ := exists_head_writeDate range ('T' :: (writeTime t.time ++ zone))
  have rfc3339 : readRfc3339 (c :: cs) = none := readRfc3339_eq_none other
  rw [same] at dateRead ⊢
  have dateTime : readDateTime (c :: cs) = none := by
    simp [readDateTime, dateRead, timeRead, more]
  have dateOnly : readDateOnly (c :: cs) = none := by
    simp [readDateOnly, dateRead]
  simp [Timestamp.read?, Layout.all, Layout.read?, rfc3339, dateTime, dateOnly]

/-- The text of a timestamp, with its offset in either form, is read as the timestamp exactly if
the local year has four digits. -/
theorem read?_written (t : Timestamp) {zone : List Char} (named : Zone t.offset zone) :
    Timestamp.read? (writeDate t.date ++ 'T' :: writeTime t.time ++ zone) =
      if 0 ≤ t.date.year ∧ t.date.year ≤ 9999 then some t else none := by
  split
  · next range => exact Timestamp.read?_of_readRfc3339 (readRfc3339_append t range named)
  · next range => exact read?_eq_none_of_zone t range named

namespace Timestamp

theorem ofText_of_read? {t : Timestamp} {cs : List Char} {four : Prop} [Decidable four]
    (read : Timestamp.read? cs = if four then some t else none) :
    Kind.timestamp.ofText (String.ofList cs) =
      if four then .ok t else .error (.invalidTimestamp (String.ofList cs)) := by
  rw [Kind.ofText, String.toList_ofList, read]
  by_cases h : four <;> simp [h]

theorem read_toJson (t : Timestamp) :
    Json.read (Kind.timestamp.toJson t).text = .ok (.string (String.ofList t.toJsonText)) := by
  have exact : Kind.timestamp.IsExact := fun _ => Kind.noConfusion
  obtain ⟨within, flat⟩ := Kind.toJson_flat exact t
  rw [Json.read_text (Kind.legible_toJson exact t) (within _), flat]
  rfl

/-- A timestamp that was read from a text is read again from the text it is written as, and from the
string it is written as in JSON: the same instant, offset and fraction of a second, leap seconds
included. This is so exactly if the local year has four digits, and refused otherwise. -/
theorem survives_writing {text : String} {t : Timestamp} (read : Kind.timestamp.ofText text = .ok t) :
    Json.read (Kind.timestamp.toJson t).text = .ok (.string (String.ofList t.toJsonText)) ∧
    ∀ written ∈ [t.toRfc3339, t.toJsonText],
      Kind.timestamp.ofText (String.ofList written) =
        if 0 ≤ t.date.year ∧ t.date.year ≤ 9999 then Kind.timestamp.ofText text
        else .error (.invalidTimestamp (String.ofList written)) := by
  refine ⟨read_toJson t, ?_⟩
  intro written among
  rw [read]
  apply ofText_of_read?
  rcases List.mem_pair.mp among with rfl | rfl
  · exact read?_written t (zone_writeOffset t.offset_range)
  · exact read?_written t (zone_json t.offset_range)

/-- A day of a year that is written with a sign. -/
def sampleFar : Timestamp := .utc ⟨12024, 5, 1, by decide, by decide, by decide⟩ .midnight

/-- The leap second keeps its fraction and its offset. The far day is not read again. -/
theorem survives_writing_sampleLeap :
    Kind.timestamp.ofText "2016-12-31t22:29:60.5000000009-01:30" = .ok sampleLeap ∧
      sampleLeap.toRfc3339 = "2016-12-31T22:29:60.500-01:30".toList ∧
      Kind.timestamp.ofText (String.ofList sampleLeap.toRfc3339) = .ok sampleLeap ∧
      Kind.timestamp.ofText (String.ofList sampleLeap.toJsonText) = .ok sampleLeap ∧
      Kind.timestamp.ofText "+12024-5-1" = .ok sampleFar ∧
      Kind.timestamp.ofText (String.ofList sampleFar.toRfc3339) =
        .error (.invalidTimestamp "+12024-05-01T00:00:00+00:00") := by
  have read : Kind.timestamp.ofText "2016-12-31t22:29:60.5000000009-01:30" = .ok sampleLeap := rfl
  have far : Kind.timestamp.ofText "+12024-5-1" = .ok sampleFar := rfl
  have year : 0 ≤ sampleLeap.date.year ∧ sampleLeap.date.year ≤ 9999 := by decide
  have long : ¬ (0 ≤ sampleFar.date.year ∧ sampleFar.date.year ≤ 9999) := by decide
  obtain ⟨-, again⟩ := survives_writing read
  obtain ⟨-, refused⟩ := survives_writing far
  refine ⟨read, by decide, ?_, ?_, far, ?_⟩
  · rw [again _ List.mem_cons_self, if_pos year, read]
  · rw [again _ (List.mem_cons_of_mem _ List.mem_cons_self), if_pos year, read]
  · rw [refused _ List.mem_cons_self, if_neg long]
    rfl

end Timestamp

end Intake.Calendar
