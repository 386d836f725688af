import Intake.Proofs.Numeral.Rounding

/-!
# Rounding keeps the order

A greater magnitude is never rounded to a lesser rank, and the magnitude of a rank is rounded to
that rank. So what a decimal is rounded to depends on its value alone, however it is written, and
where one rank gives way to the next is the middle between their magnitudes.
-/

namespace Intake.Numeral

section Quotients

variable {num den num' den' : Nat}

theorem div_mono (positive : 0 < den) (positive' : 0 < den') (le : num * den' ≤ num' * den) :
    num / den ≤ num' / den' := by
  refine (Nat.le_div_iff_mul_le positive').mpr (Nat.le_of_mul_le_mul_right ?_ positive)
  calc num / den * den' * den = num / den * den * den' := Nat.mul_right_comm _ _ _
    _ ≤ num * den' := Nat.mul_le_mul_right den' (Nat.div_mul_le_self num den)
    _ ≤ num' * den := le

theorem roundHalfEven_mono (positive : 0 < den) (positive' : 0 < den')
    (le : num * den' ≤ num' * den) : roundHalfEven num den ≤ roundHalfEven num' den' := by
  rcases (div_mono positive positive' le).lt_or_eq with less | same
  · calc roundHalfEven num den ≤ num / den + 1 := (roundHalfEven_bounds num den).2
      _ ≤ num' / den' := less
      _ ≤ roundHalfEven num' den' := (roundHalfEven_bounds num' den').1
  · -- With the same whole part it depends on the rests, which are in order over a common denominator.
    have rests : num % den * den' ≤ den * (num' % den') := by
      rw [← Nat.div_add_mod num den, ← Nat.div_add_mod num' den', same] at le
      linarith
    have above (more : den < 2 * (num % den)) : den' < 2 * (num' % den') := by
      refine Nat.lt_of_mul_lt_mul_left (a := den) ?_
      calc den * den' < 2 * (num % den) * den' := Nat.mul_lt_mul_of_pos_right more positive'
        _ ≤ den * (2 * (num' % den')) := by linarith
    have half (more : den ≤ 2 * (num % den)) : den' ≤ 2 * (num' % den') := by
      refine Nat.le_of_mul_le_mul_left ?_ positive
      calc den * den' ≤ 2 * (num % den) * den' := Nat.mul_le_mul_right den' more
        _ ≤ den * (2 * (num' % den')) := by linarith
    unfold roundHalfEven
    rw [same]
    dsimp only
    by_cases high : den < 2 * (num % den)
    · have high' := above high
      rw [if_neg (by omega), if_pos high, if_neg (by omega), if_pos high']
    by_cases tie : den ≤ 2 * (num % den)
    · have tie' := half tie
      rw [if_neg (by omega), if_neg high, if_neg (by omega)]
      split <;> omega
    · rw [if_pos (by omega)]
      split
      · exact Nat.le_refl _
      · split <;> omega

end Quotients

namespace Format

variable {f : Format} {num den num' den' rank rank' : Nat}

/-! ### Ranks -/

theorem shift_mono (f : Format) (positive : 0 < den) (positive' : 0 < den')
    (le : num * den' ≤ num' * den) : f.shift num den ≤ f.shift num' den' := by
  have quotients := div_mono positive positive' le
  have logs : (num / den).log2 ≤ (num' / den').log2 := by
    rw [Nat.log2_eq_log_two, Nat.log2_eq_log_two]
    exact Nat.log_mono_right quotients
  unfold shift
  omega

theorem nearestUnbounded_mono (digits : 1 ≤ f.precision) (positive : 0 < den) (positive' : 0 < den')
    (le : num * den' ≤ num' * den) : f.nearestUnbounded num den ≤ f.nearestUnbounded num' den' := by
  rw [nearestUnbounded_eq, nearestUnbounded_eq]
  rcases (f.shift_mono positive positive' le).lt_or_eq with less | same
  · -- All that is rounded in the lesser unit is at most where the numbers with the greater begin.
    have unit : 0 < den * 2 ^ f.shift num den := Nat.mul_pos positive (Nat.two_pow_pos _)
    have unit' : 0 < den' * 2 ^ f.shift num' den' := Nat.mul_pos positive' (Nat.two_pow_pos _)
    have below := (Nat.div_lt_iff_lt_mul unit).mpr (f.lt_of_shift num positive)
    have above := (Nat.le_div_iff_mul_le unit').mpr
      (le_of_shift num' positive' digits (Nat.zero_lt_of_lt less))
    have most := (roundHalfEven_bounds num (den * 2 ^ f.shift num den)).2
    have least := (roundHalfEven_bounds num' (den' * 2 ^ f.shift num' den')).1
    have twice := two_mul_block digits
    calc f.shift num den * f.block + roundHalfEven num (den * 2 ^ f.shift num den)
        ≤ f.shift num den * f.block + 2 * f.block := by omega
      _ = (f.shift num den + 1) * f.block + f.block := by ring
      _ ≤ f.shift num' den' * f.block + f.block :=
        Nat.add_le_add_right (Nat.mul_le_mul_right _ less) _
      _ ≤ f.shift num' den' * f.block + roundHalfEven num' (den' * 2 ^ f.shift num' den') := by
        omega
  · rw [same]
    refine Nat.add_le_add_left (roundHalfEven_mono ?_ ?_ ?_) _
    · exact Nat.mul_pos positive (Nat.two_pow_pos _)
    · exact Nat.mul_pos positive' (Nat.two_pow_pos _)
    · rw [← Nat.mul_assoc, ← Nat.mul_assoc]
      exact Nat.mul_le_mul_right _ le

theorem roundHalfEven_mul (n : Nat) {den : Nat} (positive : 0 < den) :
    roundHalfEven (n * den) den = n := by
  simp [roundHalfEven, Nat.mul_div_cancel n positive, positive]

/-! ### Magnitudes -/

/-- The exponent of the unit in which the magnitude of a rank is counted. -/
def unitExponent (f : Format) (rank : Nat) : Nat := rank / f.block - 1

/-- The magnitude of a rank, in its own unit. -/
def significand (f : Format) (rank : Nat) : Nat := rank - f.unitExponent rank * f.block

theorem units_eq (f : Format) (rank : Nat) :
    f.units rank = f.significand rank * 2 ^ f.unitExponent rank := rfl

theorem block_pos (f : Format) : 0 < f.block := Nat.two_pow_pos _

theorem rank_eq (f : Format) (rank : Nat) :
    f.unitExponent rank * f.block + f.significand rank = rank := by
  have within : f.unitExponent rank * f.block ≤ rank :=
    Nat.le_trans (Nat.mul_le_mul_right _ (Nat.sub_le _ _)) (Nat.div_mul_le_self rank f.block)
  unfold significand
  omega

theorem significand_lt (f : Format) (rank : Nat) : f.significand rank < 2 * f.block := by
  have split := Nat.div_add_mod' rank f.block
  have rest := Nat.mod_lt rank f.block_pos
  unfold significand unitExponent
  cases blocks : rank / f.block with
  | zero =>
    rw [blocks] at split
    omega
  | succ k =>
    rw [blocks, Nat.add_mul, Nat.one_mul] at split
    rw [Nat.add_sub_cancel]
    omega

theorem block_le_significand (f : Format) (rank : Nat) (shifted : 0 < f.unitExponent rank) :
    f.block ≤ f.significand rank := by
  have split := Nat.div_add_mod' rank f.block
  unfold significand
  unfold unitExponent at shifted ⊢
  cases blocks : rank / f.block with
  | zero =>
    rw [blocks] at shifted
    exact absurd shifted (Nat.lt_irrefl 0)
  | succ k =>
    rw [blocks, Nat.add_mul, Nat.one_mul] at split
    rw [Nat.add_sub_cancel]
    omega

theorem unitExponent_eq {k m : Nat} (small : m < 2 * f.block) (large : 0 < k → f.block ≤ m) :
    f.unitExponent (k * f.block + m) = k := by
  have positive := f.block_pos
  unfold unitExponent
  rw [Nat.add_comm, Nat.add_mul_div_right m k positive]
  rcases Nat.lt_or_ge m f.block with less | more
  · rw [Nat.div_eq_of_lt less]
    omega
  · rw [Nat.div_eq_of_lt_le (k := 1) (by omega) (by omega)]
    omega

theorem units_add {k m : Nat} (small : m < 2 * f.block) (large : 0 < k → f.block ≤ m) :
    f.units (k * f.block + m) = m * 2 ^ k := by
  rw [units_eq, significand, unitExponent_eq small large, Nat.add_sub_cancel_left]

/-- The next magnitude is one unit greater. -/
theorem units_succ (f : Format) (rank : Nat) :
    f.units (rank + 1) = (f.significand rank + 1) * 2 ^ f.unitExponent rank := by
  have small := f.significand_lt rank
  have large := f.block_le_significand rank
  conv_lhs => rw [← f.rank_eq rank]
  generalize f.significand rank = m at small large ⊢
  generalize f.unitExponent rank = k at large ⊢
  rcases Nat.lt_or_ge (m + 1) (2 * f.block) with less | more
  · exact units_add less fun shifted => Nat.le_succ_of_le (large shifted)
  · -- It is the first magnitude with the next greater unit.
    have next : k * f.block + m + 1 = (k + 1) * f.block + f.block := by
      rw [Nat.add_mul, Nat.one_mul]
      omega
    rw [next, units_add (by omega) fun _ => Nat.le_refl _,
      show m + 1 = 2 * f.block by omega]
    ring

theorem units_strictMono (f : Format) : StrictMono f.units := by
  refine strictMono_nat_of_lt_succ fun rank => ?_
  rw [units_succ, units_eq]
  exact Nat.mul_lt_mul_of_pos_right (Nat.lt_succ_self _) (Nat.two_pow_pos _)

/-- Between two magnitudes quotients have the unit of the lesser one. -/
theorem shift_between (digits : 1 ≤ f.precision) (positive : 0 < den)
    (least : f.units rank * den ≤ num) (most : num < f.units (rank + 1) * den) :
    f.shift num den = f.unitExponent rank := by
  have small := f.significand_lt rank
  have large := f.block_le_significand rank
  have twice := two_mul_block digits
  rw [← Nat.le_div_iff_mul_le positive, units_eq] at least
  rw [← Nat.div_lt_iff_lt_mul positive, units_succ] at most
  unfold shift
  generalize f.significand rank = m at small large least most
  generalize f.unitExponent rank = k at large least most ⊢
  have upper : num / den < 2 ^ (f.precision + k) := by
    calc num / den < (m + 1) * 2 ^ k := most
      _ ≤ 2 ^ f.precision * 2 ^ k := Nat.mul_le_mul_right _ (by omega)
      _ = 2 ^ (f.precision + k) := (Nat.pow_add _ _ _).symm
  have log : (num / den).log2 < f.precision + k := by
    by_cases zero : num / den = 0
    · rw [zero, Nat.log2_zero]
      omega
    · exact (Nat.log2_lt zero).mpr upper
  by_cases shifted : 0 < k
  · have lower : 2 ^ (f.precision - 1 + k) ≤ num / den := by
      calc 2 ^ (f.precision - 1 + k) = f.block * 2 ^ k := Nat.pow_add _ _ _
        _ ≤ m * 2 ^ k := Nat.mul_le_mul_right _ (large shifted)
        _ ≤ num / den := least
    have nonzero : num / den ≠ 0 := (Nat.lt_of_lt_of_le (Nat.two_pow_pos _) lower).ne'
    have reached := (Nat.le_log2 nonzero).mpr lower
    omega
  · omega

theorem nearestUnbounded_between (digits : 1 ≤ f.precision) (positive : 0 < den)
    (least : f.units rank * den ≤ num) (most : num < f.units (rank + 1) * den) :
    f.nearestUnbounded num den = f.unitExponent rank * f.block +
      roundHalfEven num (den * 2 ^ f.unitExponent rank) := by
  rw [nearestUnbounded_eq, shift_between digits positive least most]

/-- The magnitude of a rank is rounded to that rank. -/
theorem nearestUnbounded_units (digits : 1 ≤ f.precision) (rank : Nat) :
    f.nearestUnbounded (f.units rank) 1 = rank := by
  have next := f.units_strictMono (Nat.lt_add_one rank)
  rw [← Nat.mul_one (f.units (rank + 1))] at next
  rw [nearestUnbounded_between digits Nat.one_pos (Nat.mul_one _).le next, units_eq, Nat.one_mul,
    roundHalfEven_mul _ (Nat.two_pow_pos _), rank_eq]

theorem halfway_eq (f : Format) (rank den : Nat) :
    (f.units rank + f.units (rank + 1)) * den =
      (2 * f.significand rank + 1) * (den * 2 ^ f.unitExponent rank) := by
  rw [units_succ, units_eq]
  ring

theorem halfway_bounds (f : Format) (rank den : Nat) :
    2 * (f.units rank * den) ≤ (f.units rank + f.units (rank + 1)) * den ∧
      (f.units rank + f.units (rank + 1)) * den ≤ 2 * (f.units (rank + 1) * den) := by
  have next := f.units_strictMono (Nat.lt_add_one rank)
  have scaled := Nat.mul_le_mul_right den next.le
  rw [Nat.add_mul]
  omega

/-- What is rounded to a rank or less is at most half a unit above the magnitude of the rank. -/
theorem le_halfway (digits : 1 ≤ f.precision) (positive : 0 < den)
    (below : f.nearestUnbounded num den ≤ rank) :
    2 * num ≤ (f.units rank + f.units (rank + 1)) * den := by
  refine Nat.le_of_not_lt fun beyond => absurd below (Nat.not_le.mpr ?_)
  have unit : 0 < den * 2 ^ f.unitExponent rank := Nat.mul_pos positive (Nat.two_pow_pos _)
  rcases Nat.lt_or_ge num (f.units (rank + 1) * den) with most | above
  · have least : f.units rank * den ≤ num := by
      have bounds := f.halfway_bounds rank den
      omega
    have up := lt_roundHalfEven unit (f.halfway_eq rank den ▸ beyond)
    rw [nearestUnbounded_between digits positive least most]
    calc rank = f.unitExponent rank * f.block + f.significand rank := (f.rank_eq rank).symm
      _ < _ := Nat.add_lt_add_left up _
  · have reached : f.nearestUnbounded (f.units (rank + 1)) 1 ≤ f.nearestUnbounded num den :=
      nearestUnbounded_mono digits Nat.one_pos positive (by omega)
    rwa [nearestUnbounded_units digits] at reached

/-- What is rounded to a greater rank is at least half a unit above the magnitude of the rank. -/
theorem halfway_le (digits : 1 ≤ f.precision) (positive : 0 < den)
    (above : rank < f.nearestUnbounded num den) :
    (f.units rank + f.units (rank + 1)) * den ≤ 2 * num := by
  refine Nat.le_of_not_lt fun short => absurd above (Nat.not_lt.mpr ?_)
  have unit : 0 < den * 2 ^ f.unitExponent rank := Nat.mul_pos positive (Nat.two_pow_pos _)
  rcases Nat.lt_or_ge num (f.units rank * den) with below | least
  · have reached : f.nearestUnbounded num den ≤ f.nearestUnbounded (f.units rank) 1 :=
      nearestUnbounded_mono digits positive Nat.one_pos (by omega)
    rwa [nearestUnbounded_units digits] at reached
  · have most : num < f.units (rank + 1) * den := by
      have bounds := f.halfway_bounds rank den
      omega
    have down := roundHalfEven_le unit (f.halfway_eq rank den ▸ short)
    rw [nearestUnbounded_between digits positive least most]
    calc _ ≤ f.unitExponent rank * f.block + f.significand rank := Nat.add_le_add_left down _
      _ = rank := f.rank_eq rank

theorem nearest_mono (digits : 1 ≤ f.precision) (positive : 0 < den) (positive' : 0 < den')
    (le : num * den' ≤ num' * den) : f.nearest num den ≤ f.nearest num' den' :=
  min_le_min_left f.top (nearestUnbounded_mono digits positive positive' le)

theorem nearest_congr (digits : 1 ≤ f.precision) (positive : 0 < den) (positive' : 0 < den')
    (same : num * den' = num' * den) : f.nearest num den = f.nearest num' den' :=
  Nat.le_antisymm (nearest_mono digits positive positive' same.le)
    (nearest_mono digits positive' positive same.ge)

/-- Three times a magnitude is less than twice as many units of it as the format has digits for,
also where the unit below it is half of its own. -/
theorem three_mul_units_lt (digits : 1 ≤ f.precision) (rank : Nat) :
    3 * f.units (rank + 1) + 2 ^ (f.precision + 1) * f.units rank <
      2 ^ (f.precision + 1) * f.units (rank + 2) := by
  have small := f.significand_lt (rank + 1)
  have twice := two_mul_block digits
  have exponents : f.unitExponent (rank + 1) ≤ f.unitExponent rank + 1 := by
    have blocks : (rank + 1) / f.block ≤ rank / f.block + 1 := by
      rw [← Nat.add_div_right rank f.block_pos]
      exact Nat.div_le_div_right (Nat.add_le_add_left f.block_pos rank)
    unfold unitExponent
    omega
  have powers : 2 ^ f.unitExponent (rank + 1) ≤ 2 * 2 ^ f.unitExponent rank := by
    rw [← Nat.pow_succ']
    exact Nat.pow_le_pow_right (by decide) exponents
  have above := f.units_succ (rank + 1)
  have own := f.units_eq (rank + 1)
  have below := f.units_succ rank
  rw [Nat.add_mul, Nat.one_mul, ← units_eq] at above below
  have most : f.units (rank + 1) < 2 ^ f.precision * 2 ^ f.unitExponent (rank + 1) := by
    rw [own, ← twice]
    exact Nat.mul_lt_mul_of_pos_right small (Nat.two_pow_pos _)
  have halves := Nat.mul_le_mul_left (2 ^ f.precision) powers
  rw [above, below, Nat.pow_succ]
  rw [below] at most
  linarith

/-! ### Decimals -/

theorem nearest_eq_zero (digits : 1 ≤ f.precision) (small : 2 * num < den) :
    f.nearest num den = 0 := by
  have whole : num / den = 0 := Nat.div_eq_of_lt (by omega)
  have unit : f.shift num den = 0 := by
    rw [shift, whole, Nat.log2_zero]
    omega
  rw [nearest, nearestUnbounded_eq, unit, Nat.zero_mul, Nat.zero_add, Nat.pow_zero, Nat.mul_one,
    roundHalfEven, whole, Nat.mod_eq_of_lt (by omega)]
  simp [small]

/-- A decimal is rounded as any quotient with its value is. -/
theorem nearestDecimal_eq_nearest (precise : 1 ≤ f.precision) (blocks : 2 ≤ f.binades)
    {digits : Nat} {exponent : Int} (positive : 0 < den)
    (value : (digits : ℚ) * 10 ^ exponent = num / den) :
    f.nearestDecimal digits exponent = f.nearest (num * 2 ^ f.depth) den := by
  have denPositive : (0 : ℚ) < den := Nat.cast_pos.mpr positive
  have infinite := nearestDecimal_eq_top_iff precise blocks digits exponent
  rw [value, ← nearest_eq_top_iff precise blocks positive] at infinite
  rw [eq_div_iff denPositive.ne'] at value
  unfold nearestDecimal at infinite ⊢
  split at infinite
  · next zero =>
    rw [zero, Nat.cast_zero, zero_mul, zero_mul, eq_comm, Nat.cast_eq_zero] at value
    rw [if_pos zero, value, Nat.zero_mul]
    exact (nearest_eq_zero precise (by omega)).symm
  next nonzero =>
  rw [if_neg nonzero]
  split at infinite
  · next e =>
    split at infinite
    · next large => exact (if_pos large).trans (infinite.mp rfl).symm
    · next moderate =>
      refine (if_neg moderate).trans (nearest_congr precise Nat.one_pos positive ?_)
      rw [Int.ofNat_eq_natCast, zpow_natCast] at value
      have whole : digits * 10 ^ e * den = num := by exact_mod_cast value
      rw [Nat.pow_eq, Nat.pow_eq, ← whole]
      ring
  · next e =>
    have scale : 0 < 10 ^ (e + 1) := Nat.pow_pos (Nat.succ_pos 9)
    have whole : digits * den = num * 10 ^ (e + 1) := by
      rw [zpow_negSucc, ← div_eq_mul_inv, div_mul_eq_mul_div, div_eq_iff (by positivity)] at value
      exact_mod_cast value
    split at infinite
    · next small =>
      rw [if_pos small]
      refine (nearest_eq_zero precise (Nat.lt_of_mul_lt_mul_right (a := 10 ^ (e + 1)) ?_)).symm
      calc 2 * (num * 2 ^ f.depth) * 10 ^ (e + 1)
          = num * 10 ^ (e + 1) * (2 * 2 ^ f.depth) := by ring
        _ = digits * (2 * 2 ^ f.depth) * den := by rw [← whole]; ring
        _ < 10 ^ (e + 1) * den := Nat.mul_lt_mul_of_pos_right (mul_lt_of_small small) positive
        _ = den * 10 ^ (e + 1) := Nat.mul_comm _ _
    · next moderate =>
      refine (if_neg moderate).trans (nearest_congr precise scale positive ?_)
      calc digits * 2 ^ f.depth * den = digits * den * 2 ^ f.depth := Nat.mul_right_comm _ _ _
        _ = num * 2 ^ f.depth * 10 ^ (e + 1) := by rw [whole]; ring

/-- Every decimal has the value of a quotient. -/
theorem exists_quotient (digits : Nat) (exponent : Int) :
    ∃ num den : Nat, 0 < den ∧ (digits : ℚ) * 10 ^ exponent = num / den := by
  cases exponent with
  | ofNat e => exact ⟨digits * 10 ^ e, 1, Nat.one_pos, by simp⟩
  | negSucc e =>
    exact ⟨digits, 10 ^ (e + 1), Nat.pow_pos (Nat.succ_pos 9), by simp [zpow_negSucc, div_eq_mul_inv]⟩

section Decimals

variable {digits digits' : Nat} {exponent exponent' : Int}

/-- A greater decimal is never rounded to a lesser rank. -/
theorem nearestDecimal_mono (precise : 1 ≤ f.precision) (blocks : 2 ≤ f.binades)
    (le : (digits : ℚ) * 10 ^ exponent ≤ digits' * 10 ^ exponent') :
    f.nearestDecimal digits exponent ≤ f.nearestDecimal digits' exponent' := by
  obtain ⟨num, den, positive, value⟩ := exists_quotient digits exponent
  obtain ⟨num', den', positive', value'⟩ := exists_quotient digits' exponent'
  rw [nearestDecimal_eq_nearest precise blocks positive value,
    nearestDecimal_eq_nearest precise blocks positive' value']
  rw [value, value', div_le_div_iff₀ (Nat.cast_pos.mpr positive) (Nat.cast_pos.mpr positive')] at le
  have cross : num * den' ≤ num' * den := by exact_mod_cast le
  refine nearest_mono precise positive positive' ?_
  calc num * 2 ^ f.depth * den' = num * den' * 2 ^ f.depth := Nat.mul_right_comm _ _ _
    _ ≤ num' * den * 2 ^ f.depth := Nat.mul_le_mul_right _ cross
    _ = num' * 2 ^ f.depth * den := Nat.mul_right_comm _ _ _

/-- Decimals of the same value are rounded alike. -/
theorem nearestDecimal_congr (precise : 1 ≤ f.precision) (blocks : 2 ≤ f.binades)
    (same : (digits : ℚ) * 10 ^ exponent = digits' * 10 ^ exponent') :
    f.nearestDecimal digits exponent = f.nearestDecimal digits' exponent' :=
  Nat.le_antisymm (nearestDecimal_mono precise blocks same.le)
    (nearestDecimal_mono precise blocks same.ge)

/-- A decimal that is the magnitude of a rank is rounded to it. -/
theorem nearestDecimal_of_units (precise : 1 ≤ f.precision) (blocks : 2 ≤ f.binades)
    (bounded : rank ≤ f.top) (value : (digits : ℚ) * 10 ^ exponent = f.units rank / 2 ^ f.depth) :
    f.nearestDecimal digits exponent = rank := by
  have scaled : (digits : ℚ) * 10 ^ exponent = f.units rank / (2 ^ f.depth : ℕ) := by
    rw [value, Nat.cast_pow, Nat.cast_ofNat]
  have whole : f.nearest (f.units rank * 2 ^ f.depth) (2 ^ f.depth) = f.nearest (f.units rank) 1 :=
    nearest_congr precise (Nat.two_pow_pos _) Nat.one_pos (Nat.mul_one _)
  rw [nearestDecimal_eq_nearest precise blocks (Nat.two_pow_pos _) scaled, whole, nearest,
    nearestUnbounded_units precise]
  exact Nat.min_eq_right bounded

end Decimals

end Format

end Intake.Numeral
