import Intake.Json.Number
import Intake.Proofs.Numeral.DecimalLiterals

/-!
# The grammar of JSON numbers

The texts of numbers as they are kept: an optional minus, digits without needless zeros, an
optional fraction and an optional exponent with its sign. Each step through a number keeps to
this grammar, so whatever is kept for a number is a text of it, and names a decimal.
-/

namespace Intake.Json

open Numeral (IsDigits Scale Magnitude IsDecimal)

/-- Nothing, or an exponent. -/
inductive ExponentText : List Char → Prop where
  | absent : ExponentText []
  | present {sign : Char} {ds : List Char} (signed : sign = '+' ∨ sign = '-') (digits : IsDigits ds) :
      ExponentText ('e' :: sign :: ds)

/-- What stands behind the whole part of a number: an optional fraction and an optional exponent. -/
inductive FractionText : List Char → Prop where
  | absent {rest : List Char} (exponent : ExponentText rest) : FractionText rest
  | present {ds rest : List Char} (digits : IsDigits ds) (exponent : ExponentText rest) :
      FractionText ('.' :: (ds ++ rest))

/-- A number without a sign. Only a zero begins with a zero. -/
inductive WholeText : List Char → Prop where
  | zero {rest : List Char} (fraction : FractionText rest) : WholeText ('0' :: rest)
  | positive {c : Char} {ds rest : List Char} (nonzero : c ≠ '0') (digits : IsDigits (c :: ds))
      (fraction : FractionText rest) : WholeText (c :: ds ++ rest)

inductive NumberText : List Char → Prop where
  | plain {cs : List Char} (whole : WholeText cs) : NumberText cs
  | minus {cs : List Char} (whole : WholeText cs) : NumberText ('-' :: cs)

/-! ### Steps through a number -/

namespace NumberPart

/-- What may follow in a number when a part of it has been read. -/
def Follows : NumberPart → List Char → Prop
  | .sign, cs => WholeText cs
  | .zero, cs => FractionText cs
  | .whole, cs => ∃ ds rest, (∀ d ∈ ds, d.isDigit = true) ∧ FractionText rest ∧ cs = ds ++ rest
  | .point, cs => ∃ ds rest, IsDigits ds ∧ ExponentText rest ∧ cs = ds ++ rest
  | .fraction, cs => ∃ ds rest, (∀ d ∈ ds, d.isDigit = true) ∧ ExponentText rest ∧ cs = ds ++ rest
  | .mark, cs => ∃ sign ds, (sign = '+' ∨ sign = '-') ∧ IsDigits ds ∧ cs = sign :: ds
  | .markSign, cs => IsDigits cs
  | .exponent, cs => ∀ d ∈ cs, d.isDigit = true

variable {part part' : NumberPart} {c : Char} {more rest : List Char}

theorem follows_nil_of_complete (complete : part.complete = true) : part.Follows [] := by
  cases part with
  | zero => exact .absent .absent
  | whole => exact ⟨[], [], List.forall_mem_nil _, .absent .absent, rfl⟩
  | fraction => exact ⟨[], [], List.forall_mem_nil _, .absent, rfl⟩
  | exponent => exact List.forall_mem_nil _
  | _ => cases complete

theorem complete_of_done (taken : part.step c = .done) : part.complete = true := by
  cases part <;> unfold step at taken <;> dsimp only at taken
  case sign | point | mark | markSign =>
    repeat' split at taken
    all_goals cases taken
  all_goals rfl

theorem exponentText_of_markOrDone (taken : markOrDone c = .more part' more)
    (follows : part'.Follows rest) : ExponentText (more ++ rest) := by
  unfold markOrDone at taken
  split at taken
  · obtain ⟨rfl, rfl⟩ := NumberStep.more.inj taken
    obtain ⟨sign, ds, signed, digits, rfl⟩ := follows
    exact .present signed digits
  · cases taken

/-- What may follow after a character may follow before it together with what is kept for it. -/
theorem follows_step (taken : part.step c = .more part' more) (follows : part'.Follows rest) :
    part.Follows (more ++ rest) := by
  cases part <;> unfold step at taken <;> dsimp only at taken
  case sign =>
    split at taken
    · next zero =>
      obtain ⟨rfl, rfl⟩ := NumberStep.more.inj taken
      subst zero
      exact .zero follows
    · next nonzero =>
      split at taken
      · next digit =>
        obtain ⟨rfl, rfl⟩ := NumberStep.more.inj taken
        obtain ⟨ds, rest, digits, fraction, rfl⟩ := follows
        have whole : WholeText (c :: ds ++ rest) := .positive nonzero (.cons digit digits) fraction
        exact whole
      · cases taken
  case zero =>
    split at taken
    · cases taken
    · split at taken
      · next point =>
        obtain ⟨rfl, rfl⟩ := NumberStep.more.inj taken
        obtain ⟨ds, rest, digits, exponent, rfl⟩ := follows
        subst point
        have point : FractionText ('.' :: (ds ++ rest)) := .present digits exponent
        exact point
      · exact .absent (exponentText_of_markOrDone taken follows)
  case whole =>
    split at taken
    · next digit =>
      obtain ⟨rfl, rfl⟩ := NumberStep.more.inj taken
      obtain ⟨ds, rest, digits, fraction, rfl⟩ := follows
      exact ⟨c :: ds, rest, List.forall_mem_cons.mpr ⟨digit, digits⟩, fraction, rfl⟩
    · split at taken
      · next point =>
        obtain ⟨rfl, rfl⟩ := NumberStep.more.inj taken
        obtain ⟨ds, rest, digits, exponent, rfl⟩ := follows
        subst point
        have point : FractionText ('.' :: (ds ++ rest)) := .present digits exponent
        exact ⟨[], _, List.forall_mem_nil _, point, rfl⟩
      · exact ⟨[], _, List.forall_mem_nil _, .absent (exponentText_of_markOrDone taken follows), rfl⟩
  case point =>
    split at taken
    · next digit =>
      obtain ⟨rfl, rfl⟩ := NumberStep.more.inj taken
      obtain ⟨ds, rest, digits, exponent, rfl⟩ := follows
      exact ⟨c :: ds, rest, .cons digit digits, exponent, rfl⟩
    · cases taken
  case fraction =>
    split at taken
    · next digit =>
      obtain ⟨rfl, rfl⟩ := NumberStep.more.inj taken
      obtain ⟨ds, rest, digits, exponent, rfl⟩ := follows
      exact ⟨c :: ds, rest, List.forall_mem_cons.mpr ⟨digit, digits⟩, exponent, rfl⟩
    · exact ⟨[], _, List.forall_mem_nil _, exponentText_of_markOrDone taken follows, rfl⟩
  case mark =>
    split at taken
    · next signed =>
      obtain ⟨rfl, rfl⟩ := NumberStep.more.inj taken
      exact ⟨c, rest, signed, follows, rfl⟩
    · split at taken
      · next digit =>
        -- A sign that is not written is kept all the same.
        obtain ⟨rfl, rfl⟩ := NumberStep.more.inj taken
        exact ⟨'+', c :: rest, .inl rfl, .cons digit follows, rfl⟩
      · cases taken
  case markSign =>
    split at taken
    · next digit =>
      obtain ⟨rfl, rfl⟩ := NumberStep.more.inj taken
      exact .cons digit follows
    · cases taken
  case exponent =>
    split at taken
    · next digit =>
      obtain ⟨rfl, rfl⟩ := NumberStep.more.inj taken
      exact List.forall_mem_cons.mpr ⟨digit, follows⟩
    · cases taken

/-- What is kept of a number so far becomes the text of a number with all that may follow. -/
def Keeps (part : NumberPart) (kept : List Char) : Prop :=
  ∀ rest, part.Follows rest → NumberText (kept ++ rest)

theorem Keeps.step {kept : List Char} (keeps : part.Keeps kept)
    (taken : part.step c = .more part' more) : part'.Keeps (kept ++ more) := by
  intro rest follows
  rw [List.append_assoc]
  exact keeps _ (follows_step taken follows)

theorem Keeps.numberText {kept : List Char} (keeps : part.Keeps kept)
    (complete : part.complete = true) : NumberText kept := by
  have whole := keeps [] (follows_nil_of_complete complete)
  rwa [List.append_nil] at whole

end NumberPart

theorem numberText_of_go {p : Position} {part : NumberPart} {kept cs text : List Char}
    (keeps : part.Keeps kept) (read : readNumberText.go p part kept cs = .ok text) :
    NumberText text := by
  induction cs generalizing p part kept with
  | nil =>
    rw [readNumberText.go] at read
    split at read
    · next complete =>
      obtain rfl := Except.ok.inj read
      exact keeps.numberText complete
    · cases read
  | cons c cs ih =>
    rw [readNumberText.go] at read
    split at read
    · next part' more taken => exact ih (keeps.step taken) read
    · cases read
    · cases read

theorem numberText_of_read {cs text : List Char} (read : readNumberText cs = .ok text) :
    NumberText text := by
  have start : NumberPart.sign.Keeps [] := fun rest follows => .plain follows
  have minus : NumberPart.sign.Keeps ['-'] := fun rest follows => .minus follows
  unfold readNumberText at read
  split at read
  · cases read
  · exact numberText_of_go minus read
  · split at read
    · exact numberText_of_go start read
    · cases read

/-! ### What the texts name -/

theorem WholeText.digits {cs : List Char} (whole : WholeText cs) :
    ∃ ds rest, IsDigits ds ∧ FractionText rest ∧ cs = ds ++ rest := by
  cases whole with
  | zero fraction => exact ⟨['0'], _, .of_all (List.cons_ne_nil _ _) rfl, fraction, rfl⟩
  | positive _ digits fraction => exact ⟨_, _, digits, fraction, rfl⟩

theorem FractionText.eq_nil {cs : List Char} (fraction : FractionText cs) (noPoint : '.' ∉ cs)
    (noMark : 'e' ∉ cs) : cs = [] := by
  cases fraction with
  | absent exponent =>
    cases exponent with
    | absent => rfl
    | present => exact absurd List.mem_cons_self noMark
  | present => exact absurd List.mem_cons_self noPoint

/-- Without a point and an exponent only digits are left, behind a minus or alone. -/
theorem NumberText.digits {cs : List Char} (number : NumberText cs) (noPoint : '.' ∉ cs)
    (noMark : 'e' ∉ cs) : ∃ ds, IsDigits ds ∧ (cs = ds ∨ cs = '-' :: ds) := by
  have bare : ∀ {cs}, WholeText cs → '.' ∉ cs → 'e' ∉ cs → IsDigits cs := by
    intro cs whole noPoint noMark
    obtain ⟨ds, rest, digits, fraction, rfl⟩ := whole.digits
    simp only [List.mem_append, not_or] at noPoint noMark
    rw [fraction.eq_nil noPoint.2 noMark.2, List.append_nil]
    exact digits
  cases number with
  | plain whole => exact ⟨cs, bare whole noPoint noMark, .inl rfl⟩
  | @minus ds whole =>
    rw [List.mem_cons, not_or] at noPoint noMark
    exact ⟨ds, bare whole noPoint.2 noMark.2, .inr rfl⟩

theorem ExponentText.scale {cs : List Char} (text : ExponentText cs) : ∃ n, Scale cs n := by
  cases text with
  | absent => exact ⟨0, .none⟩
  | present signed digits =>
    rcases signed with rfl | rfl
    · exact ⟨_, .power (.inl rfl) (.plus digits)⟩
    · exact ⟨_, .power (.inl rfl) (.minus rfl digits)⟩

theorem WholeText.magnitude {cs : List Char} (whole : WholeText cs) :
    ∃ digits exponent, Magnitude cs digits exponent := by
  obtain ⟨ds, rest, digits, fraction, rfl⟩ := whole.digits
  cases fraction with
  | absent text =>
    obtain ⟨n, scale⟩ := text.scale
    exact ⟨_, _, .scaled (.whole digits) scale⟩
  | @present fs rest places text =>
    obtain ⟨n, scale⟩ := text.scale
    have magnitude := Magnitude.scaled (.pointed (digits.append places.2)) scale
    rw [List.append_assoc, List.cons_append] at magnitude
    exact ⟨_, _, magnitude⟩

/-- Every number names a decimal. -/
theorem NumberText.decimal {cs : List Char} (number : NumberText cs) : IsDecimal cs := by
  cases number with
  | plain whole =>
    obtain ⟨digits, exponent, magnitude⟩ := whole.magnitude
    exact ⟨_, _, _, .bare magnitude⟩
  | minus whole =>
    obtain ⟨digits, exponent, magnitude⟩ := whole.magnitude
    exact ⟨_, _, _, .minus magnitude⟩

end Intake.Json
