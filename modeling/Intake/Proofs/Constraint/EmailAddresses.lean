import Intake.Constraint
import Mathlib.Computability.Language

/-!
# Email addresses

The texts that pass as an email address, told in two ways: by a regular expression, as the language
it denotes, and by the rules for its parts. The repetitions of the expression are bounded and nested
so that they come to rules for whole labels: their length, their characters and their ends.
-/

namespace Intake

namespace Email

open Computability

/-! ### The expression -/

def one (p : Char → Bool) : Language Char := {cs | ∃ c, p c = true ∧ cs = [c]}

/-- At most so many texts of a language, one behind the other. -/
def upTo : Nat → Language Char → Language Char
  | 0, _ => 1
  | n + 1, l => 1 + l * upTo n l

/-- A letter or digit, and optionally at most 61 letters, digits and hyphens and a letter or
digit. -/
def labels : Language Char :=
  one Char.isAlphanum * (1 + upTo 61 (one isLabelChar) * one Char.isAlphanum)

/-- At least one character of a local part, an at sign, a label, and any number of dots with a label
behind each. -/
def addresses : Language Char :=
  one isLocalChar * (one isLocalChar)∗ * one (· == '@') * labels * (one (· == '.') * labels)∗

/-! ### The rules -/

def localMarks : List Char :=
  ['.', '!', '#', '$', '%', '&', '\x27', '*', '+', '/', '=', '?', '^', '_', '\x60', '\x7b', '|',
    '\x7d', '~', '-']

/-- At least one character, and all are letters, digits or marks. -/
def IsLocalPart (cs : List Char) : Prop :=
  cs ≠ [] ∧ ∀ c ∈ cs, c.isAlphanum = true ∨ c ∈ localMarks

/-- From 1 to 63 characters, all letters, digits and hyphens, with no hyphen at either end. -/
structure Label (cs : List Char) : Prop where
  length : 1 ≤ cs.length ∧ cs.length ≤ 63
  chars : ∀ c ∈ cs, c.isAlphanum = true ∨ c = '-'
  first : cs.head? ≠ some '-'
  last : cs.getLast? ≠ some '-'

/-- A local part, an at sign, and at least one label, with a dot between two of them. -/
inductive Address : List Char → Prop where
  | intro {localPart : List Char} {labels : List (List Char)} (front : IsLocalPart localPart)
      (nonempty : labels ≠ []) (each : ∀ label ∈ labels, Label label) :
      Address (localPart ++ '@' :: ['.'].intercalate labels)

/-! ### Single characters -/

section Classes

variable {p : Char → Bool} {cs : List Char}

theorem isLocalChar_iff (c : Char) :
    isLocalChar c = true ↔ c.isAlphanum = true ∨ c ∈ localMarks := by
  have marks : ".!#$%&'*+/=?^_\x60\x7b|\x7d~-".toList = localMarks := by decide
  simp [isLocalChar, marks]

theorem isLabelChar_iff (c : Char) : isLabelChar c = true ↔ c.isAlphanum = true ∨ c = '-' := by
  simp [isLabelChar]

theorem IsLocalPart.not_mem (front : IsLocalPart cs) : '@' ∉ cs := by
  intro hc
  rcases front.2 _ hc with letter | mark
  · cases letter
  · revert mark
    decide

theorem ne_hyphen {c : Char} (letter : c.isAlphanum = true) : c ≠ '-' := by
  rintro rfl
  cases letter

theorem Label.not_mem (label : Label cs) {c : Char} (other : c.isAlphanum = false)
    (mark : c ≠ '-') : c ∉ cs := by
  intro hc
  rcases label.chars c hc with letter | same
  · rw [other] at letter
    cases letter
  · exact mark same

theorem mem_one_mul_iff {l : Language Char} :
    cs ∈ one p * l ↔ ∃ c rest, cs = c :: rest ∧ p c = true ∧ rest ∈ l := by
  rw [Language.mem_mul]
  constructor
  · rintro ⟨_, ⟨c, holds, rfl⟩, rest, among, rfl⟩
    exact ⟨c, rest, rfl, holds, among⟩
  · rintro ⟨c, rest, rfl, holds, among⟩
    exact ⟨[c], ⟨c, holds, rfl⟩, rest, among, rfl⟩

theorem mem_mul_one_iff {l : Language Char} :
    cs ∈ l * one p ↔ ∃ front d, cs = front ++ [d] ∧ front ∈ l ∧ p d = true := by
  rw [Language.mem_mul]
  constructor
  · rintro ⟨front, among, _, ⟨d, holds, rfl⟩, rfl⟩
    exact ⟨front, d, rfl, among, holds⟩
  · rintro ⟨front, d, rfl, among, holds⟩
    exact ⟨front, among, [d], ⟨d, holds, rfl⟩, rfl⟩

end Classes

/-! ### Repetitions -/

section Repetitions

variable {p : Char → Bool} {cs : List Char}

theorem mem_upTo_one_iff (n : Nat) :
    cs ∈ upTo n (one p) ↔ cs.length ≤ n ∧ ∀ c ∈ cs, p c = true := by
  induction n generalizing cs with
  | zero =>
    rw [upTo, Language.mem_one]
    constructor
    · rintro rfl
      simp
    · rintro ⟨short, -⟩
      exact List.eq_nil_of_length_eq_zero (Nat.le_zero.mp short)
  | succ n ih =>
    rw [upTo, Language.mem_add, Language.mem_one, mem_one_mul_iff]
    cases cs with
    | nil => simp
    | cons c rest => simp [ih, and_left_comm]

/-- A repetition of texts that are made from the items of a sort is made from a list of such
items. -/
theorem mem_kstar_iff {α : Type} {l : Language Char} {P : α → Prop} {text : α → List Char}
    (made : ∀ cs, cs ∈ l ↔ ∃ x, P x ∧ cs = text x) :
    cs ∈ l∗ ↔ ∃ xs : List α, (∀ x ∈ xs, P x) ∧ cs = xs.flatMap text := by
  rw [Language.mem_kstar]
  constructor
  · rintro ⟨parts, rfl, each⟩
    induction parts with
    | nil => exact ⟨[], by simp, rfl⟩
    | cons part parts ih =>
      obtain ⟨here, later⟩ := List.forall_mem_cons.mp each
      obtain ⟨x, holds, rfl⟩ := (made part).mp here
      obtain ⟨xs, holding, same⟩ := ih later
      refine ⟨x :: xs, List.forall_mem_cons.mpr ⟨holds, holding⟩, ?_⟩
      rw [List.flatten_cons, same, List.flatMap_cons]
  · rintro ⟨xs, holding, rfl⟩
    refine ⟨xs.map text, List.flatMap_def, ?_⟩
    intro part among
    obtain ⟨x, hx, rfl⟩ := List.mem_map.mp among
    exact (made _).mpr ⟨x, holding x hx, rfl⟩

theorem mem_kstar_one_iff : cs ∈ (one p)∗ ↔ ∀ c ∈ cs, p c = true := by
  have made : ∀ cs, cs ∈ one p ↔ ∃ c, p c = true ∧ cs = [c] := fun _ => Iff.rfl
  rw [mem_kstar_iff made]
  simp

end Repetitions

/-! ### Labels -/

section Labels

variable {cs : List Char}

theorem label_singleton_iff (c : Char) : Label [c] ↔ c.isAlphanum = true := by
  constructor
  · intro label
    rcases label.chars c (List.mem_singleton_self c) with letter | rfl
    · exact letter
    · exact absurd rfl label.first
  · intro letter
    have other := ne_hyphen letter
    exact ⟨by simp, by simp [letter], by simp [other], by simp [other]⟩

/-- The bound of 61 is that of 63 without the two ends. -/
theorem label_ends_iff (c d : Char) (middle : List Char) :
    Label (c :: (middle ++ [d])) ↔
      c.isAlphanum = true ∧ (middle.length ≤ 61 ∧ ∀ e ∈ middle, isLabelChar e = true) ∧
        d.isAlphanum = true := by
  have ending : (c :: (middle ++ [d])).getLast? = some d := by
    rw [← List.cons_append, List.getLast?_concat]
  simp only [isLabelChar_iff]
  constructor
  · rintro ⟨⟨-, length⟩, chars, first, last⟩
    simp only [List.length_cons, List.length_append, List.length_nil] at length
    simp only [List.forall_mem_cons, List.forall_mem_append] at chars
    obtain ⟨front, inner, back, -⟩ := chars
    refine ⟨front.resolve_right ?_, ⟨by omega, inner⟩, back.resolve_right ?_⟩
    · rintro rfl
      exact first rfl
    · rintro rfl
      exact last ending
  · rintro ⟨front, ⟨length, inner⟩, back⟩
    constructor
    · simp only [List.length_cons, List.length_append, List.length_nil]
      omega
    · simp only [List.forall_mem_cons, List.forall_mem_append]
      exact ⟨.inl front, inner, .inl back, by simp⟩
    · simpa using ne_hyphen front
    · simpa [ending] using ne_hyphen back

theorem mem_labels_iff : cs ∈ labels ↔ Label cs := by
  rw [labels, mem_one_mul_iff]
  cases cs with
  | nil =>
    constructor
    · rintro ⟨c, rest, same, -⟩
      cases same
    · rintro ⟨⟨nonempty, -⟩, -⟩
      cases nonempty
  | cons c rest =>
    simp only [List.cons.injEq, Language.mem_add, Language.mem_one, mem_mul_one_iff,
      mem_upTo_one_iff]
    rcases List.eq_nil_or_concat' rest with rfl | ⟨middle, d, rfl⟩
    · simp [label_singleton_iff]
    · simp [label_ends_iff]

theorem isLabel_iff : isLabel cs = true ↔ Label cs := by
  cases cs with
  | nil =>
    constructor
    · intro passes
      cases passes
    · rintro ⟨⟨nonempty, -⟩, -⟩
      cases nonempty
  | cons c rest =>
    obtain ⟨d, last⟩ : ∃ d, (c :: rest).getLast? = some d :=
      ⟨_, List.getLast?_eq_some_getLast (List.cons_ne_nil c rest)⟩
    simp only [isLabel, last, List.head?_cons, Bool.and_eq_true, List.all_eq_true, isLabelChar_iff,
      decide_eq_true_iff, bne_iff_ne]
    constructor
    · rintro ⟨⟨chars, short⟩, front, back⟩
      exact ⟨⟨by simp, short⟩, chars, by simpa using front, by simpa [last] using back⟩
    · rintro ⟨⟨-, short⟩, chars, front, back⟩
      refine ⟨⟨chars, short⟩, by simpa using front, by simpa [last] using back⟩

end Labels

/-! ### Addresses -/

section Addresses

variable {cs : List Char}

theorem mem_localPart_iff : cs ∈ one isLocalChar * (one isLocalChar)∗ ↔ IsLocalPart cs := by
  simp only [mem_one_mul_iff, mem_kstar_one_iff, IsLocalPart, ← isLocalChar_iff]
  cases cs with
  | nil => simp
  | cons c rest => simp

theorem mem_domain_iff :
    cs ∈ labels * (one (· == '.') * labels)∗ ↔
      ∃ labels, labels ≠ [] ∧ (∀ label ∈ labels, Label label) ∧ cs = ['.'].intercalate labels := by
  have dotted : ∀ cs, cs ∈ one (· == '.') * labels ↔ ∃ label, Label label ∧ cs = '.' :: label := by
    intro cs
    simp only [mem_one_mul_iff, mem_labels_iff, beq_iff_eq]
    constructor
    · rintro ⟨_, label, rfl, rfl, holds⟩
      exact ⟨label, holds, rfl⟩
    · rintro ⟨label, holds, rfl⟩
      exact ⟨'.', label, rfl, rfl, holds⟩
  simp only [Language.mem_mul, mem_kstar_iff dotted, mem_labels_iff]
  constructor
  · rintro ⟨first, here, _, ⟨rest, later, rfl⟩, rfl⟩
    exact ⟨first :: rest, List.cons_ne_nil first rest, List.forall_mem_cons.mpr ⟨here, later⟩,
      (Text.intercalate_eq_flatMap '.' first rest).symm⟩
  · rintro ⟨_ | ⟨first, rest⟩, nonempty, each, rfl⟩
    · exact absurd rfl nonempty
    · obtain ⟨here, later⟩ := List.forall_mem_cons.mp each
      exact ⟨first, here, _, ⟨rest, later, rfl⟩, (Text.intercalate_eq_flatMap '.' first rest).symm⟩

theorem mem_addresses_iff : cs ∈ addresses ↔ Address cs := by
  rw [addresses, mul_assoc, mul_assoc, Language.mem_mul]
  constructor
  · rintro ⟨localPart, front, back, behind, rfl⟩
    obtain ⟨c, domain, rfl, mark, among⟩ := mem_one_mul_iff.mp behind
    obtain ⟨labels, nonempty, each, rfl⟩ := mem_domain_iff.mp among
    rw [beq_iff_eq.mp mark]
    exact .intro (mem_localPart_iff.mp front) nonempty each
  · rintro ⟨front, nonempty, each⟩
    have among := mem_domain_iff.mpr ⟨_, nonempty, each, rfl⟩
    exact ⟨_, mem_localPart_iff.mpr front, _, mem_one_mul_iff.mpr ⟨'@', _, rfl, rfl, among⟩, rfl⟩

theorem isAddress_append {localPart : List Char} (plain : '@' ∉ localPart) (domain : List Char) :
    isAddress (localPart ++ '@' :: domain) =
      (!localPart.isEmpty && localPart.all isLocalChar &&
        (Text.allPieces '.' domain).all isLabel) := by
  obtain ⟨before, behind⟩ := Text.span_ne_append plain ('@' :: domain) (by simp)
  rw [isAddress, before, behind]

theorem isAddress_of_not_mem (plain : '@' ∉ cs) : isAddress cs = false := by
  have behind := (Text.span_ne_append plain [] (by simp)).2
  rw [List.append_nil] at behind
  rw [isAddress, behind]

theorem isLocalPart_iff : (!cs.isEmpty && cs.all isLocalChar) = true ↔ IsLocalPart cs := by
  simp [IsLocalPart, isLocalChar_iff]

theorem isAddress_iff : isAddress cs = true ↔ Address cs := by
  constructor
  · intro passes
    by_cases marked : '@' ∈ cs
    · obtain ⟨localPart, domain, rfl, plain⟩ := List.eq_append_cons_of_mem marked
      rw [isAddress_append plain, Bool.and_eq_true, isLocalPart_iff, List.all_eq_true,
        Text.allPieces_eq_splitOn] at passes
      obtain ⟨front, back⟩ := passes
      have each : ∀ label ∈ domain.splitOn '.', Label label :=
        fun label among => isLabel_iff.mp (back label among)
      have joined : ['.'].intercalate (domain.splitOn '.') = domain := List.intercalate_splitOn '.'
      rw [← joined]
      exact .intro front (List.splitOn_ne_nil '.' domain) each
    · rw [isAddress_of_not_mem marked] at passes
      cases passes
  · rintro ⟨front, nonempty, each⟩
    have plain : ∀ label ∈ _, '.' ∉ label := fun label among =>
      (each label among).not_mem rfl (by decide)
    rw [isAddress_append front.not_mem, Text.allPieces_eq_splitOn,
      List.splitOn_intercalate '.' plain nonempty, Bool.and_eq_true, isLocalPart_iff,
      List.all_eq_true]
    exact ⟨front, fun label among => isLabel_iff.mpr (each label among)⟩

theorem Address.count_at (address : Address cs) : cs.count '@' = 1 := by
  cases address with | intro front nonempty each
  obtain ⟨first, rest, rfl⟩ := List.exists_cons_of_ne_nil nonempty
  have plain : ∀ label ∈ first :: rest, '@' ∉ label := fun label among =>
    (each label among).not_mem rfl (by decide)
  obtain ⟨here, later⟩ := List.forall_mem_cons.mp plain
  have behind : '@' ∉ ['.'].intercalate (first :: rest) := by
    rw [Text.intercalate_eq_flatMap, List.mem_append, List.mem_flatMap]
    rintro (among | ⟨label, among, inside⟩)
    · exact here among
    · rcases List.mem_cons.mp inside with mark | inside
      · cases mark
      · exact later label among inside
  rw [List.count_append, List.count_cons_self, List.count_eq_zero.mpr front.not_mem,
    List.count_eq_zero.mpr behind]

/-- The parts are those at any at sign, since there is only one. -/
theorem Address.parts {localPart domain : List Char}
    (address : Address (localPart ++ '@' :: domain)) :
    IsLocalPart localPart ∧ ∀ label ∈ Text.allPieces '.' domain, Label label := by
  have plain : '@' ∉ localPart := by
    have once := address.count_at
    rw [List.count_append, List.count_cons_self] at once
    rw [← List.count_eq_zero]
    omega
  have passes := isAddress_iff.mpr address
  rw [isAddress_append plain, Bool.and_eq_true, isLocalPart_iff, List.all_eq_true] at passes
  obtain ⟨front, back⟩ := passes
  exact ⟨front, fun label among => isLabel_iff.mp (back label among)⟩

/-- A text passes exactly if it keeps the rules for its parts, and exactly if the expression matches
all of it. -/
theorem accepts_exactly_addresses (text : String) :
    (Constraint.email.violation? text = none ↔ Address text.toList) ∧
      (Constraint.email.violation? text = none ↔ text.toList ∈ addresses) ∧
      (Constraint.email.violation? text = none →
        text.toList.count '@' = 1 ∧
          ∀ localPart domain, text.toList = localPart ++ '@' :: domain →
            ∀ label ∈ Text.allPieces '.' domain, label ≠ []) := by
  have keeps : Constraint.email.violation? text = none ↔ Address text.toList := by
    rw [← isAddress_iff, Constraint.violation?]
    by_cases passes : isAddress text.toList = true
    · simp [passes]
    · simp [passes]
  refine ⟨keeps, keeps.trans mem_addresses_iff.symm, ?_⟩
  intro passes
  have address := keeps.mp passes
  refine ⟨address.count_at, ?_⟩
  intro localPart domain split label among
  rw [split] at address
  obtain ⟨-, each⟩ := address.parts
  exact List.ne_nil_of_length_pos (each label among).length.1

theorem accepts_exactly_addresses_sampleTag :
    "first.last+tag@sub.example.org".toList ∈ addresses ∧
      "first.last+tag@sub.example.org".toList.count '@' = 1 :=
  have passes : Constraint.email.violation? "first.last+tag@sub.example.org" = none := by decide
  have told := accepts_exactly_addresses "first.last+tag@sub.example.org"
  ⟨told.2.1.mp passes, (told.2.2 passes).1⟩

end Addresses

end Email

end Intake
