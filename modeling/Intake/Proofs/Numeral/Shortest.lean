import Intake.Numeral.Shortest
import Intake.Proofs.Numeral.Order

/-!
# Shortest decimals

The decimal that is found for a magnitude is read back as it, and no decimal with fewer digits is.
The decimals that are rounded to a magnitude lie around it without a gap, so the two next to it on a
grid of decimals tell whether there is one on the grid; the grid of as many digits as the precision
has binary ones is finer than the magnitudes are apart.
-/

namespace Intake.Numeral

/-! ### Digits -/

theorem digitCount_pos (n : Nat) : 0 < digitCount n := Nat.length_toDigits_pos

theorem digitCount_le_iff {n k : Nat} (some : 0 < k) : digitCount n ≤ k ↔ n < 10 ^ k :=
  Nat.length_toDigits_le_iff (by decide) some

theorem lt_pow_digitCount (n : Nat) : n < 10 ^ digitCount n :=
  (digitCount_le_iff (digitCount_pos n)).mp (Nat.le_refl _)

theorem pow_digitCount_le {n : Nat} (positive : 0 < n) : 10 ^ (digitCount n - 1) ≤ n := by
  rcases Nat.eq_zero_or_pos (digitCount n - 1) with zero | more
  · rwa [zero]
  · refine Nat.le_of_not_lt fun less => ?_
    have fewer := (digitCount_le_iff more).mpr less
    omega

theorem stripZeros_value (digits : Nat) (exponent : Int) :
    ((stripZeros digits exponent).1 : ℚ) * 10 ^ (stripZeros digits exponent).2 =
      digits * 10 ^ exponent := by
  induction digits, exponent using stripZeros.induct with
  | case1 digits exponent zero ih =>
    have tens : ((digits / 10 : ℕ) : ℚ) * 10 = digits := by
      exact_mod_cast Nat.div_mul_cancel (Nat.dvd_of_mod_eq_zero zero.2)
    rw [stripZeros, dif_pos zero, ih, zpow_add_one₀ (by norm_num), ← tens]
    ring
  | case2 digits exponent other => rw [stripZeros, dif_neg other]

theorem stripZeros_le (digits : Nat) (exponent : Int) : (stripZeros digits exponent).1 ≤ digits := by
  induction digits, exponent using stripZeros.induct with
  | case1 digits exponent zero ih =>
    rw [stripZeros, dif_pos zero]
    exact Nat.le_trans ih (Nat.div_le_self _ _)
  | case2 digits exponent other => rw [stripZeros, dif_neg other]

/-- A power of ten has fewer digits without the zeros at its end. -/
theorem digitCount_stripZeros_le {digits n : Nat} (exponent : Int) (bounded : digits ≤ 10 ^ (n + 1)) :
    digitCount (stripZeros digits exponent).1 ≤ n + 1 := by
  rw [digitCount_le_iff (Nat.succ_pos n)]
  rcases bounded.lt_or_eq with less | rfl
  · exact Nat.lt_of_le_of_lt (stripZeros_le _ _) less
  · have zero : 10 ^ (n + 1) ≠ 0 ∧ 10 ^ (n + 1) % 10 = 0 := by simp [Nat.pow_succ]
    rw [stripZeros, dif_pos zero]
    refine Nat.lt_of_le_of_lt (stripZeros_le _ _) (Nat.div_lt_self ?_ (by decide))
    exact Nat.pos_of_ne_zero zero.1

theorem mem_of_range_eq {p n i : Nat} {before after : List Nat}
    (range : List.range p = before ++ n :: after) (less : i < n) : i ∈ before := by
  have sorted : (List.range p).Pairwise (· < ·) := List.pairwise_lt_range
  have last : n ∈ List.range p := by
    rw [range]
    exact List.mem_append_right _ List.mem_cons_self
  have among : i ∈ List.range p := List.mem_range.mpr (less.trans (List.mem_range.mp last))
  rw [range] at sorted among
  rcases List.mem_append.mp among with before | behind
  · exact before
  · rcases List.mem_cons.mp behind with rfl | behind
    · exact absurd less (Nat.lt_irrefl _)
    · have greater := (List.pairwise_cons.mp (List.pairwise_append.mp sorted).2.1).1 i behind
      exact absurd less (Nat.lt_asymm greater)

namespace Format

variable {f : Format} {tie : Tie} {rank digits : Nat} {exponent : Int}

/-! ### Magnitudes as numbers -/

def value (f : Format) (rank : Nat) : ℚ := f.units rank / 2 ^ f.depth

theorem exactDecimal_value (f : Format) (rank : Nat) :
    ((f.exactDecimal rank).1 : ℚ) * 10 ^ (f.exactDecimal rank).2 = f.value rank := by
  have power : (10 : ℚ) ^ (-(f.depth : ℤ)) = (5 ^ f.depth * 2 ^ f.depth)⁻¹ := by
    rw [zpow_neg, zpow_natCast, ← mul_pow]
    norm_num
  rw [exactDecimal, power, value]
  push_cast [Nat.pow_eq]
  field_simp

theorem nearestDecimal_exact (precise : 1 ≤ f.precision) (blocks : 2 ≤ f.binades)
    (bounded : rank ≤ f.top) :
    f.nearestDecimal (f.exactDecimal rank).1 (f.exactDecimal rank).2 = rank :=
  nearestDecimal_of_units precise blocks bounded (f.exactDecimal_value rank)

/-- The leading digit of a magnitude is where it is looked for. -/
theorem leadingExponent_bounds (positive : 0 < rank) :
    (10 : ℚ) ^ f.leadingExponent rank ≤ f.value rank ∧
      f.value rank < 10 ^ (f.leadingExponent rank + 1) := by
  have units : 0 < f.units rank :=
    Nat.lt_of_le_of_lt (Nat.zero_le _) (f.units_strictMono positive)
  have whole : f.units rank * Nat.pow 10 f.depth / Nat.pow 2 f.depth = (f.exactDecimal rank).1 := by
    have tens : Nat.pow 10 f.depth = Nat.pow 5 f.depth * Nat.pow 2 f.depth := Nat.mul_pow 5 2 _
    rw [tens, ← Nat.mul_assoc]
    exact Nat.mul_div_cancel _ (Nat.two_pow_pos _)
  have some : 0 < (f.exactDecimal rank).1 := Nat.mul_pos units (Nat.pow_pos (by decide))
  have least := pow_digitCount_le some
  have most := lt_pow_digitCount (f.exactDecimal rank).1
  have count := digitCount_pos (f.exactDecimal rank).1
  have lead : f.leadingExponent rank =
      ((digitCount (f.exactDecimal rank).1 - 1 : ℕ) : ℤ) + -f.depth := by
    rw [leadingExponent, whole]
    omega
  have next : f.leadingExponent rank + 1 = (digitCount (f.exactDecimal rank).1 : ℤ) + -f.depth := by
    omega
  have scale : (0 : ℚ) < 10 ^ (-f.depth : ℤ) := by positivity
  rw [next, lead, ← f.exactDecimal_value, zpow_add₀ (by norm_num), zpow_add₀ (by norm_num),
    zpow_natCast, zpow_natCast]
  refine ⟨mul_le_mul_of_nonneg_right ?_ scale.le, mul_lt_mul_of_pos_right ?_ scale⟩
  · exact_mod_cast least
  · exact_mod_cast most

/-! ### Decimals around a magnitude -/

theorem nearestDecimal_le_rank (precise : 1 ≤ f.precision) (blocks : 2 ≤ f.binades)
    (bounded : rank ≤ f.top) (le : (digits : ℚ) * 10 ^ exponent ≤ f.value rank) :
    f.nearestDecimal digits exponent ≤ rank := by
  rw [← f.exactDecimal_value] at le
  have ranks := nearestDecimal_mono precise blocks le
  rwa [nearestDecimal_exact precise blocks bounded] at ranks

theorem rank_le_nearestDecimal (precise : 1 ≤ f.precision) (blocks : 2 ≤ f.binades)
    (bounded : rank ≤ f.top) (ge : f.value rank ≤ (digits : ℚ) * 10 ^ exponent) :
    rank ≤ f.nearestDecimal digits exponent := by
  rw [← f.exactDecimal_value] at ge
  have ranks := nearestDecimal_mono precise blocks ge
  rwa [nearestDecimal_exact precise blocks bounded] at ranks

/-- The multiple of a power of ten next below a magnitude. -/
def low (f : Format) (rank : Nat) (exponent : Int) : Nat :=
  (f.scaled rank exponent).1 / (f.scaled rank exponent).2

theorem scaled_value (f : Format) (rank : Nat) (exponent : Int) :
    0 < (f.scaled rank exponent).2 ∧
      f.value rank =
        (f.scaled rank exponent).1 / (f.scaled rank exponent).2 * 10 ^ exponent := by
  cases exponent with
  | ofNat e =>
    refine ⟨Nat.mul_pos (Nat.two_pow_pos _) (Nat.pow_pos (by decide)), ?_⟩
    simp only [scaled, value, Int.ofNat_eq_natCast, zpow_natCast]
    push_cast [Nat.pow_eq]
    field_simp
  | negSucc e =>
    refine ⟨Nat.two_pow_pos _, ?_⟩
    simp only [scaled, value, zpow_negSucc]
    push_cast [Nat.pow_eq]
    field_simp

theorem low_bounds (f : Format) (rank : Nat) (exponent : Int) :
    (f.low rank exponent : ℚ) * 10 ^ exponent ≤ f.value rank ∧
      f.value rank < ((f.low rank exponent + 1 : ℕ) : ℚ) * 10 ^ exponent := by
  obtain ⟨positive, value⟩ := f.scaled_value rank exponent
  have scale : (0 : ℚ) < 10 ^ exponent := by positivity
  have denPositive : (0 : ℚ) < (f.scaled rank exponent).2 := Nat.cast_pos.mpr positive
  have below : f.low rank exponent * (f.scaled rank exponent).2 ≤ (f.scaled rank exponent).1 :=
    Nat.div_mul_le_self _ _
  have above : (f.scaled rank exponent).1 <
      (f.low rank exponent + 1) * (f.scaled rank exponent).2 :=
    (Nat.div_lt_iff_lt_mul positive).mp (Nat.lt_add_one _)
  rw [value]
  refine ⟨mul_le_mul_of_nonneg_right ?_ scale.le, mul_lt_mul_of_pos_right ?_ scale⟩
  · rw [le_div_iff₀ denPositive]
    exact_mod_cast below
  · rw [div_lt_iff₀ denPositive]
    exact_mod_cast above

/-- One of the two decimals next to a magnitude is found if it is read back. -/
theorem candidate_cases (f : Format) (tie : Tie) (rank : Nat) (exponent : Int) :
    (f.candidate tie rank exponent = none ∧
      f.nearestDecimal (f.low rank exponent) exponent ≠ rank ∧
      f.nearestDecimal (f.low rank exponent + 1) exponent ≠ rank) ∨
    ∃ digits, f.candidate tie rank exponent = some (digits, exponent) ∧
      digits ≤ f.low rank exponent + 1 ∧ f.nearestDecimal digits exponent = rank := by
  unfold candidate
  dsimp only
  rw [show (f.scaled rank exponent).1 / (f.scaled rank exponent).2 = f.low rank exponent from rfl]
  split
  · next low high =>
    rw [beq_iff_eq] at low high
    split
    · exact .inr ⟨_, rfl, Nat.le_refl _, high⟩
    · exact .inr ⟨_, rfl, Nat.le_succ _, low⟩
  · next low _ => exact .inr ⟨_, rfl, Nat.le_succ _, beq_iff_eq.mp low⟩
  · next _ high => exact .inr ⟨_, rfl, Nat.le_refl _, beq_iff_eq.mp high⟩
  · next low high => exact .inl ⟨rfl, beq_eq_false_iff_ne.mp low, beq_eq_false_iff_ne.mp high⟩

theorem candidate_readsBack {decimal : Nat × Int}
    (found : f.candidate tie rank exponent = some decimal) :
    f.nearestDecimal decimal.1 decimal.2 = rank := by
  rcases f.candidate_cases tie rank exponent with ⟨missing, -⟩ | ⟨digits, hit, -, reads⟩
  · rw [missing] at found
    cases found
  · rw [hit] at found
    obtain rfl := Option.some.inj found
    exact reads

/-- If a multiple of a power of ten is read back, one of the two next to the magnitude is. -/
theorem candidate_ne_none (precise : 1 ≤ f.precision) (blocks : 2 ≤ f.binades)
    (bounded : rank ≤ f.top) (reads : f.nearestDecimal digits exponent = rank) :
    f.candidate tie rank exponent ≠ none := by
  rcases f.candidate_cases tie rank exponent with ⟨-, lowMiss, highMiss⟩ | ⟨_, hit, -⟩
  · intro _
    have scale : (0 : ℚ) ≤ 10 ^ exponent := by positivity
    obtain ⟨below, above⟩ := f.low_bounds rank exponent
    rcases Nat.lt_or_ge (f.low rank exponent) digits with greater | less
    · refine highMiss (Nat.le_antisymm ?_ (rank_le_nearestDecimal precise blocks bounded above.le))
      have order : ((f.low rank exponent + 1 : ℕ) : ℚ) * 10 ^ exponent ≤ digits * 10 ^ exponent :=
        mul_le_mul_of_nonneg_right (Nat.cast_le.mpr greater) scale
      exact (nearestDecimal_mono precise blocks order).trans reads.le
    · refine lowMiss (Nat.le_antisymm (nearestDecimal_le_rank precise blocks bounded below) ?_)
      have order : (digits : ℚ) * 10 ^ exponent ≤ f.low rank exponent * 10 ^ exponent :=
        mul_le_mul_of_nonneg_right (Nat.cast_le.mpr less) scale
      exact reads.ge.trans (nearestDecimal_mono precise blocks order)
  · rw [hit]
    exact Option.some_ne_none _

/-! ### Enough digits -/

theorem nearest_lt_of_lt_top {num den : Nat} (finite : rank < f.top) :
    f.nearest num den ≤ rank ↔ f.nearestUnbounded num den ≤ rank := by
  unfold nearest
  omega

theorem le_halfway_value (precise : 1 ≤ f.precision) (blocks : 2 ≤ f.binades)
    (finite : rank < f.top) (below : f.nearestDecimal digits exponent ≤ rank) :
    2 * ((digits : ℚ) * 10 ^ exponent) ≤ f.value rank + f.value (rank + 1) := by
  obtain ⟨num, den, positive, quotient⟩ := exists_quotient digits exponent
  rw [nearestDecimal_eq_nearest precise blocks positive quotient,
    nearest_lt_of_lt_top finite] at below
  have half := le_halfway precise positive below
  have denPositive : (0 : ℚ) < den := Nat.cast_pos.mpr positive
  have scale : (0 : ℚ) < 2 ^ f.depth := by positivity
  rw [quotient, value, value, ← add_div, ← mul_div_assoc, div_le_div_iff₀ denPositive scale]
  have cross : 2 * num * 2 ^ f.depth ≤ (f.units rank + f.units (rank + 1)) * den := by linarith
  exact_mod_cast cross

theorem halfway_value_le (precise : 1 ≤ f.precision) (blocks : 2 ≤ f.binades)
    (above : rank < f.nearestDecimal digits exponent) :
    f.value rank + f.value (rank + 1) ≤ 2 * ((digits : ℚ) * 10 ^ exponent) := by
  obtain ⟨num, den, positive, quotient⟩ := exists_quotient digits exponent
  rw [nearestDecimal_eq_nearest precise blocks positive quotient] at above
  have half := halfway_le precise positive (Nat.lt_of_lt_of_le above (Nat.min_le_right _ _))
  have denPositive : (0 : ℚ) < den := Nat.cast_pos.mpr positive
  have scale : (0 : ℚ) < 2 ^ f.depth := by positivity
  rw [quotient, value, value, ← add_div, ← mul_div_assoc, div_le_div_iff₀ scale denPositive]
  have cross : (f.units rank + f.units (rank + 1)) * den ≤ 2 * num * 2 ^ f.depth := by linarith
  exact_mod_cast cross

theorem three_mul_value_lt (precise : 1 ≤ f.precision) (rank : Nat) :
    3 * f.value (rank + 1) + 2 ^ (f.precision + 1) * f.value rank <
      2 ^ (f.precision + 1) * f.value (rank + 2) := by
  have scale : (0 : ℚ) < 2 ^ f.depth := by positivity
  have units : (3 * f.units (rank + 1) + 2 ^ (f.precision + 1) * f.units rank : ℚ) <
      2 ^ (f.precision + 1) * f.units (rank + 2) := by
    exact_mod_cast three_mul_units_lt precise rank
  have divided := div_lt_div_of_pos_right units scale
  rw [add_div, mul_div_assoc, mul_div_assoc, mul_div_assoc] at divided
  exact divided

theorem two_pow_le_ten_pow (precise : 2 ≤ f.precision) :
    (2 : ℚ) ^ (f.precision + 2) ≤ 3 * 10 ^ (f.precision - 1) := by
  obtain ⟨p, same⟩ := Nat.exists_eq_add_of_le precise
  have powers : (2 : ℚ) ^ p ≤ 10 ^ p := pow_le_pow_left₀ (by norm_num) (by norm_num) p
  have positive : (0 : ℚ) < 2 ^ p := by positivity
  calc (2 : ℚ) ^ (f.precision + 2) = 16 * 2 ^ p := by rw [same]; ring
    _ ≤ 30 * 10 ^ p := by linarith
    _ = 3 * 10 ^ (f.precision - 1) := by rw [show f.precision - 1 = p + 1 by omega]; ring

/-- As many decimal digits as the precision has binary ones are enough: the two decimals next to a
magnitude are nearer to each other than the middles between it and its neighbours. -/
theorem candidate_precision (precise : 2 ≤ f.precision) (blocks : 2 ≤ f.binades) (tie : Tie)
    (positive : 0 < rank) (finite : rank < f.top) :
    f.candidate tie rank (f.leadingExponent rank - (f.precision - 1 : ℕ)) ≠ none := by
  obtain ⟨lead, -⟩ := f.leadingExponent_bounds positive
  generalize grid : f.leadingExponent rank - (f.precision - 1 : ℕ) = exponent
  rcases f.candidate_cases tie rank exponent with ⟨-, lowMiss, highMiss⟩ | ⟨_, hit, -⟩
  · intro _
    have one : 1 ≤ f.precision := by omega
    obtain ⟨below, above⟩ := f.low_bounds rank exponent
    have lowRank := nearestDecimal_le_rank one blocks finite.le below
    have highRank := rank_le_nearestDecimal one blocks finite.le above.le
    obtain ⟨r, rfl⟩ : ∃ r, rank = r + 1 := ⟨rank - 1, by omega⟩
    have lowHalf : 2 * ((f.low (r + 1) exponent : ℚ) * 10 ^ exponent) ≤ f.value r + f.value (r + 1) :=
      le_halfway_value one blocks (by omega) (by omega)
    have highHalf : f.value (r + 1) + f.value (r + 2) ≤
        2 * (((f.low (r + 1) exponent + 1 : ℕ) : ℚ) * 10 ^ exponent) :=
      halfway_value_le one blocks (by omega)
    have near : 10 ^ (f.precision - 1) * 10 ^ exponent ≤ f.value (r + 1) := by
      rwa [← zpow_natCast, ← zpow_add₀ (by norm_num), ← grid, add_sub_cancel]
    have apart := three_mul_value_lt one r
    have fine := mul_le_mul_of_nonneg_right (two_pow_le_ten_pow precise)
      (show (0 : ℚ) ≤ 10 ^ exponent by positivity)
    have scale : (0 : ℚ) < 2 ^ (f.precision + 1) := by positivity
    push_cast at highHalf
    have steps : f.value (r + 2) - f.value r ≤ 2 * 10 ^ exponent := by linarith
    have spread := mul_le_mul_of_nonneg_left steps scale.le
    rw [pow_succ] at fine
    linarith
  · rw [hit]
    exact Option.some_ne_none _

/-! ### No fewer digits -/

/-- If a decimal is read back, so is one of the two next to the magnitude with as many digits. -/
theorem candidate_digitCount (precise : 1 ≤ f.precision) (blocks : 2 ≤ f.binades) (tie : Tie)
    (positive : 0 < rank) (bounded : rank ≤ f.top) (reads : f.nearestDecimal digits exponent = rank) :
    f.candidate tie rank (f.leadingExponent rank - (digitCount digits - 1 : ℕ)) ≠ none := by
  have count := digitCount_pos digits
  obtain ⟨lead, -⟩ := f.leadingExponent_bounds positive
  generalize grid : f.leadingExponent rank - (digitCount digits - 1 : ℕ) = place
  rcases le_or_gt place exponent with coarse | fine
  · obtain ⟨zeros, same⟩ := Int.le.dest coarse
    have value : ((digits * 10 ^ zeros : ℕ) : ℚ) * 10 ^ place = digits * 10 ^ exponent := by
      rw [← same, zpow_add₀ (by norm_num), zpow_natCast]
      push_cast
      ring
    exact candidate_ne_none precise blocks bounded
      ((nearestDecimal_congr precise blocks value).trans reads)
  · -- It is less than the power of ten of the leading digit, which is up to the magnitude.
    have power : ((10 ^ (digitCount digits - 1) : ℕ) : ℚ) * 10 ^ place =
        10 ^ f.leadingExponent rank := by
      rw [Nat.cast_pow, Nat.cast_ofNat, ← zpow_natCast, ← zpow_add₀ (by norm_num), ← grid,
        add_sub_cancel]
    have below : (digits : ℚ) * 10 ^ exponent ≤
        ((10 ^ (digitCount digits - 1) : ℕ) : ℚ) * 10 ^ place := by
      have most : (digits : ℚ) ≤ 10 ^ (digitCount digits : ℤ) := by
        rw [zpow_natCast]
        exact_mod_cast (lt_pow_digitCount digits).le
      calc (digits : ℚ) * 10 ^ exponent
          ≤ 10 ^ (digitCount digits : ℤ) * 10 ^ exponent :=
            mul_le_mul_of_nonneg_right most (by positivity)
        _ = 10 ^ (digitCount digits + exponent : ℤ) := (zpow_add₀ (by norm_num) _ _).symm
        _ ≤ 10 ^ f.leadingExponent rank := zpow_le_zpow_right₀ (by norm_num) (by omega)
        _ = _ := power.symm
    have least := reads.ge.trans (nearestDecimal_mono precise blocks below)
    have most := nearestDecimal_le_rank precise blocks bounded (power.trans_le lead)
    exact candidate_ne_none precise blocks bounded (Nat.le_antisymm most least)

theorem low_leadingExponent_le (positive : 0 < rank) (n : Nat) :
    f.low rank (f.leadingExponent rank - n) + 1 ≤ 10 ^ (n + 1) := by
  obtain ⟨-, next⟩ := f.leadingExponent_bounds positive
  obtain ⟨below, -⟩ := f.low_bounds rank (f.leadingExponent rank - n)
  have scale : (0 : ℚ) < 10 ^ (f.leadingExponent rank - n) := by positivity
  have power : (10 : ℚ) ^ (f.leadingExponent rank + 1) =
      10 ^ (n + 1) * 10 ^ (f.leadingExponent rank - n) := by
    rw [← zpow_natCast, ← zpow_add₀ (by norm_num)]
    congr 1
    omega
  have less := lt_of_mul_lt_mul_right ((below.trans_lt next).trans_eq power) scale.le
  exact_mod_cast less

/-- A shortest decimal is read back as the magnitude. -/
theorem nearestDecimal_shortest (precise : 1 ≤ f.precision) (blocks : 2 ≤ f.binades) (tie : Tie)
    (bounded : rank ≤ f.top) :
    f.nearestDecimal (f.shortest tie rank).1 (f.shortest tie rank).2 = rank := by
  unfold shortest
  dsimp only
  rw [nearestDecimal_congr precise blocks (stripZeros_value _ _)]
  cases found : (List.range f.precision).findSome? _ with
  | none => exact nearestDecimal_exact precise blocks bounded
  | some decimal =>
    obtain ⟨n, -, hit⟩ := List.exists_of_findSome?_eq_some found
    exact candidate_readsBack hit

/-- No decimal with fewer digits is read back. -/
theorem digitCount_shortest_le (precise : 2 ≤ f.precision) (blocks : 2 ≤ f.binades) (tie : Tie)
    (positive : 0 < rank) (finite : rank < f.top) (reads : f.nearestDecimal digits exponent = rank) :
    digitCount (f.shortest tie rank).1 ≤ digitCount digits := by
  unfold shortest
  dsimp only
  cases found : (List.range f.precision).findSome? _ with
  | none =>
    have last : f.precision - 1 ∈ List.range f.precision := List.mem_range.mpr (by omega)
    exact absurd (List.findSome?_eq_none_iff.mp found _ last)
      (candidate_precision precise blocks tie positive finite)
  | some decimal =>
    obtain ⟨before, n, after, range, hit, misses⟩ := List.findSome?_eq_some_iff.mp found
    have few : digitCount (stripZeros decimal.1 decimal.2).1 ≤ n + 1 := by
      rcases f.candidate_cases tie rank (f.leadingExponent rank - n) with
        ⟨missing, -⟩ | ⟨digits, own, most, -⟩
      · rw [missing] at hit
        cases hit
      · obtain rfl := Option.some.inj (own.symm.trans hit)
        exact digitCount_stripZeros_le _ (most.trans (low_leadingExponent_le positive n))
    refine few.trans (Nat.lt_of_not_le fun fewer => ?_)
    have count := digitCount_pos digits
    have earlier := mem_of_range_eq range (show digitCount digits - 1 < n by omega)
    exact candidate_digitCount (by omega) blocks tie positive finite.le reads (misses _ earlier)

end Format

end Intake.Numeral
