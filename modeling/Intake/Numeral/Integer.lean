/-!
# Integer literals

Reading an optional sign and decimal digits into a bounded range. A run of
digits beyond the range counts as out of range, whatever comes after it.
-/

namespace Intake.Numeral

inductive IntegerFault where
  | malformed
  | outOfRange
  deriving DecidableEq, Repr

def maxSigned : Nat := 9223372036854775807

def maxUnsigned : Nat := 18446744073709551615

def readMagnitude (limit : Nat) (cs : List Char) : Except IntegerFault Nat :=
  let value := Nat.ofDigitChars 10 (cs.takeWhile Char.isDigit) 0
  if limit < value then .error .outOfRange
  else if cs.isEmpty || !cs.all Char.isDigit then .error .malformed
  else .ok value

def readUnsigned (limit : Nat) : List Char → Except IntegerFault Nat
  | '+' :: cs => readMagnitude limit cs
  | cs => readMagnitude limit cs

/-- Reads digits with an optional sign as a number from `-(limit + 1)` to `limit`. -/
def readSigned (limit : Nat) : List Char → Except IntegerFault Int
  | '-' :: cs => (readMagnitude (limit + 1) cs).map (fun n => -(n : Int))
  | cs => (readUnsigned limit cs).map Int.ofNat

def integerText (n : Int) : String := toString n

theorem readMagnitude_eq_ok_iff (limit : Nat) (cs : List Char) (n : Nat) :
    readMagnitude limit cs = .ok n ↔
      cs ≠ [] ∧ (∀ c ∈ cs, c.isDigit = true) ∧ Nat.ofDigitChars 10 cs 0 = n ∧ n ≤ limit := by
  have whole (h : ∀ c ∈ cs, c.isDigit = true) : cs.takeWhile Char.isDigit = cs := by
    simpa using @List.takeWhile_append_of_pos _ Char.isDigit cs [] h
  rw [readMagnitude]
  split
  · next hl =>
    simp only [reduceCtorEq, false_iff, not_and]
    intro _ hd hv hn
    rw [whole hd, hv] at hl
    omega
  · next hl =>
    split
    · next hm =>
      simp only [reduceCtorEq, false_iff, not_and]
      intro hne hd
      simp only [Bool.or_eq_true, List.isEmpty_iff, Bool.not_eq_true', List.all_eq_false] at hm
      rcases hm with hm | ⟨c, hc, hm⟩
      · exact absurd hm hne
      · exact absurd (hd c hc) hm
    · next hm =>
      simp only [Bool.or_eq_true, List.isEmpty_iff, Bool.not_eq_true', List.all_eq_false, not_or,
        not_exists, not_and, Decidable.not_not] at hm
      rw [whole hm.2] at hl ⊢
      simp only [Except.ok.injEq]
      exact ⟨fun e => ⟨hm.1, hm.2, e, by omega⟩, fun e => e.2.2.1⟩

end Intake.Numeral
