/-!
# Blank characters

The characters with the Unicode property `White_Space`, and trimming by them.
-/

namespace Intake.Text

/-- Membership in the Unicode property `White_Space`. -/
def isBlank (c : Char) : Bool :=
  let n := c.toNat
  (0x9 ≤ n && n ≤ 0xD) || n == 0x20 || n == 0x85 || n == 0xA0 || n == 0x1680 ||
    (0x2000 ≤ n && n ≤ 0x200A) || n == 0x2028 || n == 0x2029 || n == 0x202F || n == 0x205F ||
    n == 0x3000

/-- The text from its first character that is not blank. -/
def trimStart (cs : List Char) : List Char := cs.dropWhile isBlank

def trim (cs : List Char) : List Char := (trimStart (trimStart cs).reverse).reverse

theorem not_isBlank_of_isDigit {c : Char} (digit : c.isDigit = true) : ¬ isBlank c = true := by
  simp only [Char.isDigit, Bool.and_eq_true, decide_eq_true_eq, UInt32.le_iff_toNat_le] at digit
  have least : 48 ≤ c.toNat := digit.1
  have greatest : c.toNat ≤ 57 := digit.2
  simp only [isBlank, Bool.or_eq_true, Bool.and_eq_true, decide_eq_true_eq, beq_iff_eq]
  omega

theorem trimStart_eq_nil_iff (cs : List Char) : trimStart cs = [] ↔ cs.all isBlank = true := by
  induction cs with
  | nil => simp [trimStart]
  | cons c cs ih =>
    by_cases h : isBlank c = true
    · rw [trimStart, List.dropWhile_cons_of_pos h, List.all_cons, h, Bool.true_and]
      exact ih
    · simp [trimStart, h]

/-- Trimming leaves nothing of a text exactly if all of it is blank. -/
theorem trim_eq_nil_iff (cs : List Char) : trim cs = [] ↔ cs.all isBlank = true := by
  rw [trim, List.reverse_eq_nil_iff, trimStart_eq_nil_iff, List.all_reverse, ← trimStart_eq_nil_iff cs]
  induction cs with
  | nil => simp [trimStart]
  | cons c cs ih =>
    by_cases h : isBlank c = true
    · simpa [trimStart, h] using ih
    · simp [trimStart, h]

end Intake.Text
