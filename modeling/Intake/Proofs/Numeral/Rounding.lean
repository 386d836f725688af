import Intake.Numeral.Binary
import Mathlib.Algebra.Order.Field.Power
import Mathlib.Data.Nat.Log
import Mathlib.Tactic.FieldSimp
import Mathlib.Tactic.Linarith
import Mathlib.Tactic.Ring

/-!
# Where rounding reaches infinity

The least magnitude that is rounded to infinity lies half a unit above the greatest number of a
format. It is a tie that goes up, because the greatest number has an odd rank. Nothing greater is
finite and everything less is, also where a decimal is settled by the size of its digits alone.
-/

namespace Intake.Numeral

/-! ### Rounding to whole numbers -/

section Halves

variable {num den n : Nat}

theorem roundHalfEven_bounds (num den : Nat) :
    num / den ≤ roundHalfEven num den ∧ roundHalfEven num den ≤ num / den + 1 := by
  unfold roundHalfEven
  dsimp only
  split
  · omega
  · split <;> omega

theorem roundHalfEven_le (positive : 0 < den) (below : 2 * num < (2 * n + 1) * den) :
    roundHalfEven num den ≤ n := by
  have most := (roundHalfEven_bounds num den).2
  have split := Nat.div_add_mod num den
  rcases Nat.lt_trichotomy (num / den) n with less | same | greater
  · omega
  · rw [same] at split
    have rest : 2 * (num % den) < den := by linarith
    rw [roundHalfEven, if_pos rest, same]
  · have reached : (n + 1) * den ≤ num := (Nat.le_div_iff_mul_le positive).mp greater
    linarith

theorem lt_roundHalfEven (positive : 0 < den) (above : (2 * n + 1) * den < 2 * num) :
    n < roundHalfEven num den := by
  have least := (roundHalfEven_bounds num den).1
  have split := Nat.div_add_mod num den
  rcases Nat.lt_trichotomy (num / den) n with less | same | greater
  · have short : num < n * den := (Nat.div_lt_iff_lt_mul positive).mp less
    linarith
  · rw [same] at split
    have rest : den < 2 * (num % den) := by linarith
    rw [roundHalfEven, if_neg (by omega), if_pos rest, same]
    exact Nat.lt_add_one n
  · omega

/-- A half below an even number is rounded up to it. -/
theorem le_roundHalfEven_iff (positive : 0 < den) (even : n % 2 = 0) (nonzero : 0 < n) :
    n ≤ roundHalfEven num den ↔ (2 * n - 1) * den ≤ 2 * num := by
  obtain ⟨m, rfl⟩ : ∃ m, n = m + 1 := ⟨n - 1, by omega⟩
  rw [show 2 * (m + 1) - 1 = 2 * m + 1 by omega]
  constructor
  · intro reached
    refine Nat.le_of_not_lt fun below => absurd reached (Nat.not_le.mpr ?_)
    exact Nat.lt_succ_of_le (roundHalfEven_le positive below)
  · intro reached
    rcases reached.lt_or_eq with above | tie
    · exact lt_roundHalfEven positive above
    · -- Of the two numbers next to a tie it is the even one.
      have split := Nat.div_add_mod num den
      have whole : num / den = m := Nat.div_eq_of_lt_le (by linarith) (by linarith)
      rw [whole] at split
      have rest : 2 * (num % den) = den := by linarith
      rw [roundHalfEven, if_neg (by omega), if_neg (by omega), whole]
      omega

end Halves

namespace Format

variable {f : Format} {num den : Nat}

/-! ### Quotients -/

/-- The exponent of the unit in which a quotient is rounded. -/
def shift (f : Format) (num den : Nat) : Nat := (num / den).log2 + 1 - f.precision

theorem nearestUnbounded_eq (f : Format) (num den : Nat) :
    f.nearestUnbounded num den =
      f.shift num den * f.block + roundHalfEven num (den * 2 ^ f.shift num den) := rfl

theorem two_mul_block (digits : 1 ≤ f.precision) : 2 * f.block = 2 ^ f.precision := by
  rw [block, Nat.pow_eq, ← Nat.pow_succ', Nat.succ_eq_add_one, Nat.sub_add_cancel digits]

/-- A quotient is less than `2 ^ precision` of its units. -/
theorem lt_of_shift (f : Format) (num : Nat) (positive : 0 < den) :
    num < 2 ^ f.precision * (den * 2 ^ f.shift num den) := by
  have most : (num / den).log2 + 1 ≤ f.precision + f.shift num den := by
    unfold shift
    omega
  have quotient : num / den < 2 ^ (f.precision + f.shift num den) :=
    Nat.lt_of_lt_of_le Nat.lt_log2_self (Nat.pow_le_pow_right (by decide) most)
  have bound := (Nat.div_lt_iff_lt_mul positive).mp quotient
  rw [Nat.pow_add] at bound
  linarith

/-- It is at least half of that where the unit is not the least one. -/
theorem le_of_shift (num : Nat) (positive : 0 < den) (digits : 1 ≤ f.precision)
    (shifted : 0 < f.shift num den) : f.block * (den * 2 ^ f.shift num den) ≤ num := by
  have least : (num / den).log2 = f.precision - 1 + f.shift num den := by
    unfold shift at shifted ⊢
    omega
  have nonzero : num / den ≠ 0 := by
    intro zero
    rw [zero, Nat.log2_zero] at least
    omega
  have quotient := Nat.log2_self_le nonzero
  rw [least, Nat.le_div_iff_mul_le positive, Nat.pow_add] at quotient
  rw [block, Nat.pow_eq]
  linarith

/-- A quotient is rounded to infinity from half a unit above the greatest number on. -/
theorem top_le_nearestUnbounded_iff (digits : 1 ≤ f.precision) (blocks : 2 ≤ f.binades)
    (positive : 0 < den) :
    f.top ≤ f.nearestUnbounded num den ↔
      (2 * 2 ^ f.precision - 1) * (den * 2 ^ (f.binades - 2)) ≤ 2 * num := by
  have upper := f.lt_of_shift num positive
  have lower := le_of_shift num positive digits
  rw [nearestUnbounded_eq, top]
  generalize f.shift num den = k at upper lower ⊢
  have unit : 0 < den * 2 ^ k := Nat.mul_pos positive (Nat.two_pow_pos k)
  have twice := two_mul_block digits
  have whole : 0 < 2 ^ f.precision := Nat.two_pow_pos _
  obtain ⟨least, most⟩ := roundHalfEven_bounds num (den * 2 ^ k)
  have below := (Nat.div_lt_iff_lt_mul unit).mpr upper
  rcases Nat.lt_trichotomy (k + 2) f.binades with small | same | large
  · -- The unit is too small for anything rounded in it to reach infinity.
    have power : 2 * 2 ^ k ≤ 2 ^ (f.binades - 2) := by
      rw [← Nat.pow_succ']
      exact Nat.pow_le_pow_right (by decide) (by omega)
    refine iff_of_false (Nat.not_le.mpr ?_) (Nat.not_le.mpr ?_)
    · calc k * f.block + roundHalfEven num (den * 2 ^ k)
          ≤ k * f.block + 2 * f.block := by omega
        _ = (k + 2) * f.block := by ring
        _ < f.binades * f.block := Nat.mul_lt_mul_of_pos_right small (by omega)
    · calc 2 * num < 2 * (2 ^ f.precision * (den * 2 ^ k)) := by omega
        _ = 2 ^ f.precision * (den * (2 * 2 ^ k)) := by ring
        _ ≤ (2 * 2 ^ f.precision - 1) * (den * 2 ^ (f.binades - 2)) :=
          Nat.mul_le_mul (by omega) (Nat.mul_le_mul_left den power)
  · -- The greatest numbers have this unit: it depends on whether it is rounded up to all of it.
    have exponent : f.binades - 2 = k := by omega
    have top : f.binades * f.block = k * f.block + 2 ^ f.precision := by
      rw [← same, ← twice]
      ring
    rw [exponent, ← le_roundHalfEven_iff unit (by omega) whole, top]
    omega
  · -- Half of what the unit can hold is beyond the greatest number.
    have power : 2 * 2 ^ (f.binades - 2) ≤ 2 ^ k := by
      rw [← Nat.pow_succ']
      exact Nat.pow_le_pow_right (by decide) (by omega)
    have lower := lower (by omega)
    have half := (Nat.le_div_iff_mul_le unit).mpr lower
    refine iff_of_true ?_ ?_
    · calc f.binades * f.block ≤ (k + 1) * f.block := Nat.mul_le_mul_right _ (by omega)
        _ = k * f.block + f.block := by ring
        _ ≤ k * f.block + roundHalfEven num (den * 2 ^ k) := by omega
    · calc (2 * 2 ^ f.precision - 1) * (den * 2 ^ (f.binades - 2))
          ≤ 2 * 2 ^ f.precision * (den * 2 ^ (f.binades - 2)) :=
            Nat.mul_le_mul_right _ (Nat.sub_le _ _)
        _ = 2 * f.block * (den * (2 * 2 ^ (f.binades - 2))) := by rw [← twice]; ring
        _ ≤ 2 * f.block * (den * 2 ^ k) :=
          Nat.mul_le_mul_left _ (Nat.mul_le_mul_left den power)
        _ ≤ 2 * num := by linarith

/-! ### Decimals -/

/-- The least magnitude that is rounded to infinity. -/
def limit (f : Format) : ℚ := (2 * 2 ^ f.precision - 1) * 2 ^ ((f.binades : ℤ) - 3 - f.depth)

theorem limit_double : double.limit = (2 ^ 54 - 1) * 2 ^ 970 := by
  norm_num [limit, double]

theorem limit_mul (blocks : 2 ≤ f.binades) :
    f.limit * (2 * 2 ^ f.depth) = ((2 * 2 ^ f.precision - 1) * 2 ^ (f.binades - 2) : ℕ) := by
  have exponent : (f.binades : ℤ) - 3 - f.depth = (f.binades - 2 : ℕ) - 1 - f.depth := by omega
  have whole : 1 ≤ 2 * 2 ^ f.precision := Nat.mul_pos (by decide) (Nat.two_pow_pos _)
  rw [limit, exponent, zpow_sub₀ two_ne_zero, zpow_sub₀ two_ne_zero, zpow_natCast, zpow_natCast,
    zpow_one, Nat.cast_mul, Nat.cast_sub whole]
  push_cast
  field_simp

theorem limit_pos (f : Format) : 0 < f.limit := by
  have whole : (1 : ℚ) ≤ 2 ^ f.precision := one_le_pow₀ one_le_two
  exact mul_pos (by linarith) (zpow_pos two_pos _)

theorem nearest_eq_top_iff (precise : 1 ≤ f.precision) (blocks : 2 ≤ f.binades)
    (positive : 0 < den) (num : Nat) :
    f.nearest (num * 2 ^ f.depth) den = f.top ↔ f.limit ≤ (num : ℚ) / den := by
  have reached : f.nearest (num * 2 ^ f.depth) den = f.top ↔
      f.top ≤ f.nearestUnbounded (num * 2 ^ f.depth) den := min_eq_left_iff
  have denPositive : (0 : ℚ) < den := Nat.cast_pos.mpr positive
  have scale : (0 : ℚ) < 2 * 2 ^ f.depth := by positivity
  rw [reached, top_le_nearestUnbounded_iff precise blocks positive, le_div_iff₀ denPositive,
    ← mul_le_mul_iff_left₀ scale, mul_right_comm, limit_mul blocks, ← Nat.cast_le (α := ℚ)]
  refine iff_of_eq (congrArg₂ (· ≤ ·) ?_ ?_)
  · simp only [Nat.cast_mul]
    ring
  · push_cast
    ring

theorem limit_le_two_pow (f : Format) : f.limit ≤ 2 ^ f.ceiling := by
  have power : (2 : ℚ) ^ ((f.binades : ℤ) - 3 - f.depth) ≤ 2 ^ ((f.binades : ℤ) - 1) :=
    zpow_le_zpow_right₀ one_le_two (by omega)
  have whole : (1 : ℚ) ≤ 2 ^ f.precision := one_le_pow₀ one_le_two
  calc f.limit ≤ 2 * 2 ^ f.precision * 2 ^ ((f.binades : ℤ) - 1) :=
        mul_le_mul (by linarith) power (by positivity) (by positivity)
    _ = 2 ^ f.ceiling := by
        rw [ceiling, pow_add, zpow_sub₀ two_ne_zero, zpow_natCast, zpow_one]
        ring

theorem one_le_limit_mul (blocks : 2 ≤ f.binades) : 1 ≤ f.limit * (2 * 2 ^ f.depth) := by
  have scaled := limit_mul blocks
  have positive : 0 < f.limit * (2 * 2 ^ f.depth) := mul_pos f.limit_pos (by positivity)
  rw [scaled] at positive ⊢
  exact Nat.one_le_cast.mpr (Nat.cast_pos.mp positive)

theorem two_pow_mul_le (e : Nat) : (2 : ℚ) ^ (3 * e) ≤ 10 ^ e := by
  rw [pow_mul]
  exact pow_le_pow_left₀ (by norm_num) (by norm_num) e

/-- Decimals of so small an exponent are less than half the least magnitude. -/
theorem mul_lt_of_small {digits e : Nat} (small : digits.log2 + f.depth + 2 ≤ 3 * (e + 1)) :
    digits * (2 * 2 ^ f.depth) < 10 ^ (e + 1) := by
  have upper : digits < 2 ^ (digits.log2 + 1) := Nat.lt_log2_self
  calc digits * (2 * 2 ^ f.depth)
      < 2 ^ (digits.log2 + 1) * (2 * 2 ^ f.depth) := Nat.mul_lt_mul_of_pos_right upper (by positivity)
    _ = 2 ^ (digits.log2 + f.depth + 2) := by ring
    _ ≤ 2 ^ (3 * (e + 1)) := Nat.pow_le_pow_right (by decide) small
    _ ≤ 10 ^ (e + 1) := by exact_mod_cast two_pow_mul_le (e + 1)

/-- A decimal is rounded to infinity exactly from the limit on. -/
theorem nearestDecimal_eq_top_iff (precise : 1 ≤ f.precision) (blocks : 2 ≤ f.binades)
    (digits : Nat) (exponent : Int) :
    f.nearestDecimal digits exponent = f.top ↔ f.limit ≤ (digits : ℚ) * 10 ^ exponent := by
  have infinite : 0 < f.top := Nat.mul_pos (by omega) (Nat.two_pow_pos _)
  have limit := f.limit_pos
  unfold nearestDecimal
  split
  · next zero =>
    subst zero
    exact iff_of_false infinite.ne (by simpa using limit)
  next nonzero =>
  have lower : (2 : ℚ) ^ digits.log2 ≤ digits := by exact_mod_cast Nat.log2_self_le nonzero
  split
  · next e =>
    rw [Int.ofNat_eq_natCast, zpow_natCast]
    split
    · next large =>
      refine iff_of_true rfl ?_
      calc f.limit ≤ 2 ^ f.ceiling := f.limit_le_two_pow
        _ ≤ 2 ^ (digits.log2 + 3 * e) := pow_le_pow_right₀ one_le_two large
        _ = 2 ^ digits.log2 * 2 ^ (3 * e) := pow_add _ _ _
        _ ≤ digits * 10 ^ e := mul_le_mul lower (two_pow_mul_le e) (by positivity) (by positivity)
    · have whole := nearest_eq_top_iff precise blocks Nat.one_pos (digits * 10 ^ e)
      rw [Nat.cast_one, div_one] at whole
      push_cast at whole
      exact whole
  · next e =>
    rw [zpow_negSucc, ← div_eq_mul_inv]
    split
    · next small =>
      refine iff_of_false infinite.ne (not_le.mpr ?_)
      have halves : (digits : ℚ) * (2 * 2 ^ f.depth) < 10 ^ (e + 1) := by
        exact_mod_cast mul_lt_of_small small
      have scale : (0 : ℚ) < 2 * 2 ^ f.depth := by positivity
      rw [div_lt_iff₀ (by positivity), ← mul_lt_mul_iff_left₀ scale, mul_right_comm]
      calc (digits : ℚ) * (2 * 2 ^ f.depth) < 1 * 10 ^ (e + 1) := by rwa [one_mul]
        _ ≤ f.limit * (2 * 2 ^ f.depth) * 10 ^ (e + 1) :=
          mul_le_mul_of_nonneg_right (one_le_limit_mul blocks) (by positivity)
    · have positive : 0 < 10 ^ (e + 1) := Nat.pow_pos (Nat.succ_pos 9)
      have quotient := nearest_eq_top_iff precise blocks positive digits
      push_cast at quotient
      exact quotient

end Format

end Intake.Numeral
