import Intake.Coercion

/-!
# Layouts exclude one another

A text in RFC 3339 is read by the readers of the local layouts as well, but only up to its offset,
which no local layout has. So the layouts of timestamps exclude one another, but for the two of
RFC 3339, which agree, and it makes no difference in which order they are tried.
-/

namespace Intake.Calendar

open Text (trimStart not_isBlank_of_isDigit)

/-! ### Numbers of fixed width -/

section Widths

variable {width n : Nat} {cs rest : List Char}

theorem readExactly_eq_some (read : readExactly width cs = some (n, rest)) :
    ∃ ds, cs = ds ++ rest ∧ ds.length = width ∧ (∀ c ∈ ds, c.isDigit = true) ∧
      Nat.ofDigitChars 10 ds 0 = n := by
  simp only [readExactly] at read
  split at read
  · next digits =>
    obtain ⟨rfl, rfl⟩ := Prod.mk.inj (Option.some.inj read)
    exact ⟨_, (List.take_append_drop width cs).symm, digits.1, List.all_eq_true.mp digits.2, rfl⟩
  · cases read

/-- Digits of the full width are as many as a reader up to that width takes. -/
theorem readUpTo_of_readExactly (positive : 0 < width)
    (read : readExactly width cs = some (n, rest)) : readUpTo width cs = some (n, rest) := by
  obtain ⟨ds, rfl, length, digits, rfl⟩ := readExactly_eq_some read
  have taken : ((ds ++ rest).take width).takeWhile Char.isDigit = ds := by
    rw [List.take_left' length]
    simpa using @List.takeWhile_append_of_pos _ Char.isDigit ds [] digits
  have more : ds.isEmpty = false := by
    rw [List.isEmpty_eq_false_iff]
    rintro rfl
    exact absurd length (Nat.ne_of_lt positive)
  simp only [readUpTo, taken, more, List.drop_left, Bool.false_eq_true, if_false]

/-- It begins with a digit, so there is no blank and no sign in front of it. -/
theorem head_of_readExactly (positive : 0 < width)
    (read : readExactly width cs = some (n, rest)) :
    ∃ c ds, cs = c :: ds ∧ c.isDigit = true := by
  obtain ⟨ds, rfl, length, digits, -⟩ := readExactly_eq_some read
  obtain ⟨c, ds, rfl⟩ := List.exists_cons_of_ne_nil (List.ne_nil_of_length_pos (length ▸ positive))
  exact ⟨c, ds ++ rest, rfl, digits c List.mem_cons_self⟩

theorem trimStart_of_readExactly (positive : 0 < width)
    (read : readExactly width cs = some (n, rest)) : trimStart cs = cs := by
  obtain ⟨c, ds, rfl, digit⟩ := head_of_readExactly positive read
  exact List.dropWhile_cons_of_neg (not_isBlank_of_isDigit digit)

theorem readField_of_readExactly (positive : 0 < width)
    (read : readExactly width cs = some (n, rest)) : readField width cs = some (n, rest) := by
  rw [readField, trimStart_of_readExactly positive read, readUpTo_of_readExactly positive read]

theorem readYear_of_readExactly (read : readExactly 4 cs = some (n, rest)) :
    readYear cs = some ((n : Int), rest) := by
  obtain ⟨c, ds, rfl, digit⟩ := head_of_readExactly (by decide) read
  unfold readYear
  rw [trimStart_of_readExactly (by decide) read]
  split
  · next minus =>
    obtain ⟨rfl, -⟩ := List.cons.inj minus
    cases digit
  · next plus =>
    obtain ⟨rfl, -⟩ := List.cons.inj plus
    cases digit
  · rw [readUpTo_of_readExactly (by decide) read, Option.map_some]

end Widths

/-! ### RFC 3339 and the local layouts -/

variable {cs : List Char} {t t' : Timestamp}

/-- A text in RFC 3339 is a local date and time with an offset behind it. -/
theorem readRfc3339_eq_some (read : readRfc3339 cs = some t) :
    ∃ separator clock zone, readDate cs = some (t.date, separator :: clock) ∧
      readTime clock = some (t.time, zone) ∧ readOffset zone = some (t.offset, []) := by
  unfold readRfc3339 at read
  obtain ⟨⟨year, _⟩, yearRead, read⟩ := Option.bind_eq_some_iff.mp read
  obtain ⟨_, hyphen, read⟩ := Option.bind_eq_some_iff.mp read
  obtain ⟨⟨month, _⟩, monthRead, read⟩ := Option.bind_eq_some_iff.mp read
  obtain ⟨_, hyphen', read⟩ := Option.bind_eq_some_iff.mp read
  obtain ⟨⟨day, separated⟩, dayRead, read⟩ := Option.bind_eq_some_iff.mp read
  obtain ⟨clock, separatorRead, read⟩ := Option.bind_eq_some_iff.mp read
  obtain ⟨⟨hour, _⟩, hourRead, read⟩ := Option.bind_eq_some_iff.mp read
  obtain ⟨_, colon, read⟩ := Option.bind_eq_some_iff.mp read
  obtain ⟨⟨minute, _⟩, minuteRead, read⟩ := Option.bind_eq_some_iff.mp read
  obtain ⟨_, colon', read⟩ := Option.bind_eq_some_iff.mp read
  obtain ⟨⟨second, _⟩, secondRead, read⟩ := Option.bind_eq_some_iff.mp read
  obtain ⟨⟨nanosecond, zone⟩, fractionRead, read⟩ := Option.bind_eq_some_iff.mp read
  obtain ⟨⟨offset, _⟩, offsetRead, read⟩ := Option.bind_eq_some_iff.mp read
  obtain ⟨date, dateMade, read⟩ := Option.bind_eq_some_iff.mp read
  obtain ⟨time, timeMade, whole⟩ := Option.bind_eq_some_iff.mp read
  split at whole
  · next ends =>
    obtain rfl := Option.some.inj whole
    obtain ⟨rfl, -⟩ := ends
    obtain ⟨separator, rfl⟩ : ∃ separator, separated = separator :: clock := by
      unfold readSeparator at separatorRead
      split at separatorRead
      · next c rest =>
        split at separatorRead
        · exact ⟨c, congrArg (c :: ·) (Option.some.inj separatorRead)⟩
        · cases separatorRead
      · cases separatorRead
    refine ⟨separator, clock, zone, ?_, ?_, offsetRead⟩
    · simp only [readDate, readYear_of_readExactly yearRead, hyphen,
        readField_of_readExactly (by decide) monthRead, hyphen',
        readField_of_readExactly (by decide) dayRead, dateMade, Option.bind_eq_bind,
        Option.bind_some]
    · simp only [readTime, readField_of_readExactly (by decide) hourRead, colon,
        readField_of_readExactly (by decide) minuteRead, colon',
        readField_of_readExactly (by decide) secondRead, fractionRead, timeMade,
        Option.bind_eq_bind, Option.bind_some]
  · cases whole

theorem readDateOnly_eq_some (read : readDateOnly cs = some t) :
    readDate cs = some (t.date, []) := by
  unfold readDateOnly at read
  obtain ⟨⟨date, rest⟩, dateRead, whole⟩ := Option.bind_eq_some_iff.mp read
  dsimp only at whole
  split at whole
  · next ends =>
    obtain rfl := Option.some.inj whole
    rw [dateRead, ends]
    rfl
  · cases whole

theorem readDateTime_eq_some (read : readDateTime cs = some t) :
    ∃ clock, readDate cs = some (t.date, 'T' :: clock) ∧ readTime clock = some (t.time, []) := by
  unfold readDateTime at read
  obtain ⟨⟨date, rest⟩, dateRead, read⟩ := Option.bind_eq_some_iff.mp read
  obtain ⟨clock, separatorRead, read⟩ := Option.bind_eq_some_iff.mp read
  obtain ⟨⟨time, after⟩, timeRead, whole⟩ := Option.bind_eq_some_iff.mp read
  obtain rfl : rest = 'T' :: clock := by
    unfold expect at separatorRead
    split at separatorRead
    · split at separatorRead
      · next same => rw [same, Option.some.inj separatorRead]
      · cases separatorRead
    · cases separatorRead
  dsimp only at whole
  split at whole
  · next ends =>
    obtain rfl := Option.some.inj whole
    exact ⟨clock, dateRead, ends ▸ timeRead⟩
  · cases whole

/-- Both read the same date and time, and only RFC 3339 reads the offset behind them. -/
theorem not_readDateTime_of_readRfc3339 (read : readRfc3339 cs = some t)
    (read' : readDateTime cs = some t') : False := by
  obtain ⟨_, _, zone, dateRead, timeRead, offsetRead⟩ := readRfc3339_eq_some read
  obtain ⟨clock, dateRead', timeRead'⟩ := readDateTime_eq_some read'
  obtain ⟨-, same⟩ := Prod.mk.inj (Option.some.inj (dateRead.symm.trans dateRead'))
  obtain ⟨-, rfl⟩ := List.cons.inj same
  obtain ⟨-, rfl⟩ := Prod.mk.inj (Option.some.inj (timeRead.symm.trans timeRead'))
  cases offsetRead

theorem not_readDateOnly_of_readRfc3339 (read : readRfc3339 cs = some t)
    (read' : readDateOnly cs = some t') : False := by
  obtain ⟨_, _, _, dateRead, -, -⟩ := readRfc3339_eq_some read
  obtain ⟨-, same⟩ := Prod.mk.inj
    (Option.some.inj (dateRead.symm.trans (readDateOnly_eq_some read')))
  cases same

theorem not_readDateOnly_of_readDateTime (read : readDateTime cs = some t)
    (read' : readDateOnly cs = some t') : False := by
  obtain ⟨_, dateRead, -⟩ := readDateTime_eq_some read
  obtain ⟨-, same⟩ := Prod.mk.inj
    (Option.some.inj (dateRead.symm.trans (readDateOnly_eq_some read')))
  cases same

/-! ### Orders of layouts -/

namespace Layout

variable {l l' : Layout}

theorem read?_rfc3339_of_fraction (read : Layout.rfc3339Fraction.read? cs = some t) :
    Layout.rfc3339.read? cs = some t := by
  rw [read?] at read
  split at read
  · exact read
  · cases read

/-- Leaving aside the fraction, a text has one layout at most. -/
theorem eq_of_read? (plain : l ≠ .rfc3339Fraction) (plain' : l' ≠ .rfc3339Fraction)
    (read : l.read? cs = some t) (read' : l'.read? cs = some t') : l = l' := by
  cases l with
  | rfc3339Fraction => exact absurd rfl plain
  | rfc3339 =>
    cases l' with
    | rfc3339Fraction => exact absurd rfl plain'
    | rfc3339 => rfl
    | localDateTime => exact (not_readDateTime_of_readRfc3339 read read').elim
    | dateOnly => exact (not_readDateOnly_of_readRfc3339 read read').elim
  | localDateTime =>
    cases l' with
    | rfc3339Fraction => exact absurd rfl plain'
    | rfc3339 => exact (not_readDateTime_of_readRfc3339 read' read).elim
    | localDateTime => rfl
    | dateOnly => exact (not_readDateOnly_of_readDateTime read read').elim
  | dateOnly =>
    cases l' with
    | rfc3339Fraction => exact absurd rfl plain'
    | rfc3339 => exact (not_readDateOnly_of_readRfc3339 read' read).elim
    | localDateTime => exact (not_readDateOnly_of_readDateTime read' read).elim
    | dateOnly => rfl

/-- What a text is read as in one layout it is read as in one that is not for fractions alone. -/
theorem exists_plain (read : l.read? cs = some t) :
    ∃ plain : Layout, plain ≠ .rfc3339Fraction ∧ plain.read? cs = some t := by
  cases l with
  | rfc3339Fraction =>
    exact ⟨.rfc3339, Layout.noConfusion, read?_rfc3339_of_fraction read⟩
  | rfc3339 => exact ⟨.rfc3339, Layout.noConfusion, read⟩
  | localDateTime => exact ⟨.localDateTime, Layout.noConfusion, read⟩
  | dateOnly => exact ⟨.dateOnly, Layout.noConfusion, read⟩

/-- All layouts that a text has give the same timestamp. -/
theorem read?_unique (read : l.read? cs = some t) (read' : l'.read? cs = some t') : t = t' := by
  obtain ⟨p, plain, read⟩ := exists_plain read
  obtain ⟨p', plain', read'⟩ := exists_plain read'
  obtain rfl := eq_of_read? plain plain' read read'
  exact Option.some.inj (read.symm.trans read')

theorem findSome?_eq_some_iff {order : List Layout} (complete : ∀ l : Layout, l ∈ order) :
    order.findSome? (·.read? cs) = some t ↔ ∃ l : Layout, l.read? cs = some t := by
  constructor
  · intro found
    obtain ⟨l, -, read⟩ := List.exists_of_findSome?_eq_some found
    exact ⟨l, read⟩
  · rintro ⟨l, read⟩
    cases found : order.findSome? (·.read? cs) with
    | none =>
      rw [List.findSome?_eq_none_iff.mp found l (complete l)] at read
      cases read
    | some t' =>
      obtain ⟨l', -, read'⟩ := List.exists_of_findSome?_eq_some found
      rw [read?_unique read read']

theorem mem_all (l : Layout) : l ∈ Layout.all := by
  cases l <;> decide

end Layout

/-- Reads a text as a timestamp, trying the layouts in a given order. -/
def Timestamp.ofTextIn (order : List Layout) (text : String) : Except CoercionFault Timestamp :=
  match order.findSome? (·.read? text.toList) with
  | some t => .ok t
  | none => .error (.invalidTimestamp text)

/-- A text has at most one of the layouts, if RFC 3339 with a fraction counts as RFC 3339: it is
read as the same timestamp. So a text is read alike in whichever order the layouts are tried, and
it is read exactly if it has one of them. -/
theorem Timestamp.ofText_of_any_order (text : String) :
    (∀ l ∈ [Layout.rfc3339, .localDateTime, .dateOnly],
      ∀ l' ∈ [Layout.rfc3339, .localDateTime, .dateOnly], ∀ t t',
        l.read? text.toList = some t → l'.read? text.toList = some t' → l = l') ∧
    (∀ t, Layout.rfc3339Fraction.read? text.toList = some t →
      Layout.rfc3339.read? text.toList = some t) ∧
    (∀ order : List Layout, order.Perm Layout.all →
      Timestamp.ofTextIn order text = Kind.timestamp.ofText text) ∧
    ∀ t, Kind.timestamp.ofText text = .ok t ↔ ∃ l : Layout, l.read? text.toList = some t := by
  have plain : ∀ l ∈ [Layout.rfc3339, .localDateTime, .dateOnly], l ≠ .rfc3339Fraction := by decide
  refine ⟨?_, fun t => Layout.read?_rfc3339_of_fraction, ?_, ?_⟩
  · intro l among l' among' t t' read read'
    exact Layout.eq_of_read? (plain l among) (plain l' among') read read'
  · intro order arranged
    have complete : ∀ l : Layout, l ∈ order := fun l => arranged.mem_iff.mpr (Layout.mem_all l)
    have same : order.findSome? (·.read? text.toList) =
        Layout.all.findSome? (·.read? text.toList) := by
      ext t
      rw [Layout.findSome?_eq_some_iff complete, Layout.findSome?_eq_some_iff Layout.mem_all]
    rw [Timestamp.ofTextIn, same]
    rfl
  · intro t
    rw [← Layout.findSome?_eq_some_iff Layout.mem_all]
    show Timestamp.ofTextIn Layout.all text = .ok t ↔ _
    unfold Timestamp.ofTextIn
    cases Layout.all.findSome? (·.read? text.toList) <;> simp

/-- Half a second into a leap second, west of Greenwich. -/
def sampleLeap : Timestamp :=
  ⟨⟨2016, 12, 31, by decide, by decide, by decide⟩,
    ⟨22, 29, 60, 500000000, by decide, by decide, by decide, by decide⟩, -90, by decide⟩

/-- With a fraction a text has both layouts of RFC 3339, and is read in the opposite order too. -/
theorem Timestamp.ofText_of_any_order_sampleLeap :
    let text := "2016-12-31t22:29:60.5-01:30"
    let opposite := [Layout.dateOnly, .localDateTime, .rfc3339, .rfc3339Fraction]
    Layout.rfc3339Fraction.read? text.toList = some sampleLeap ∧
      Layout.rfc3339.read? text.toList = some sampleLeap ∧
      Layout.localDateTime.read? text.toList = none ∧
      opposite.Perm Layout.all ∧ Timestamp.ofTextIn opposite text = .ok sampleLeap := by
  intro text opposite
  obtain ⟨unique, asRfc3339, anyOrder, accepts⟩ := Timestamp.ofText_of_any_order text
  have fraction : Layout.rfc3339Fraction.read? "2016-12-31t22:29:60.5-01:30".toList =
      some sampleLeap := by decide
  have whole := asRfc3339 sampleLeap fraction
  have arranged : opposite.Perm Layout.all := by decide
  refine ⟨fraction, whole, ?_, arranged, ?_⟩
  · refine Option.eq_none_iff_forall_ne_some.mpr fun t read => ?_
    cases unique .rfc3339 (by decide) .localDateTime (by decide) sampleLeap t whole read
  · exact (anyOrder opposite arranged).trans ((accepts sampleLeap).mpr ⟨_, fraction⟩)

end Intake.Calendar
