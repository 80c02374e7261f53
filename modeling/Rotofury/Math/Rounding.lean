import Mathlib

/-! # Rounding an integer quotient

Fixed-point arithmetic divides by a power of ten after every product. Three ways of dropping the
remainder occur: towards zero (`Int.tdiv`), to the nearest integer with ties to the even one, and
away from zero for positive values. Each is off by less than one unit, keeps the order, and is exact
on multiples.
-/

namespace Math

variable {unit : ℕ} {value : ℤ}

/-- The nearest integer to `value / unit`, a tie going to the even neighbour. -/
def roundHalfEvenNat (value unit : ℕ) : ℕ :=
  if 2 * (value % unit) < unit then value / unit
  else if unit < 2 * (value % unit) then value / unit + 1
  else if value / unit % 2 = 0 then value / unit
  else value / unit + 1

/-- Half-even rounding of a signed quotient: a negative value is negated, rounded and negated back. -/
def roundHalfEven (value : ℤ) (unit : ℕ) : ℤ :=
  if value < 0 then -(roundHalfEvenNat value.natAbs unit : ℤ) else roundHalfEvenNat value.natAbs unit

/-- Round a positive quotient up; a negative one is truncated. -/
def roundUp (value : ℤ) (unit : ℕ) : ℤ :=
  if 0 < value.tmod unit then value.tdiv unit + 1 else value.tdiv unit

private theorem roundHalfEvenNat_bounds (value : ℕ) (positive : 0 < unit) :
    2 * value ≤ 2 * unit * roundHalfEvenNat value unit + unit ∧
      2 * unit * roundHalfEvenNat value unit ≤ 2 * value + unit := by
  have division := Nat.div_add_mod value unit
  have remainder := Nat.mod_lt value positive
  have scaled : 2 * unit * (value / unit) = 2 * (unit * (value / unit)) := by ring
  have next : 2 * unit * (value / unit + 1) = 2 * (unit * (value / unit)) + 2 * unit := by ring
  unfold roundHalfEvenNat
  split_ifs <;> constructor <;> omega

/-- Rounding is off by at most half a unit. -/
theorem roundHalfEven_bounds (value : ℤ) (positive : 0 < unit) :
    2 * value ≤ 2 * unit * roundHalfEven value unit + unit ∧
      2 * unit * roundHalfEven value unit ≤ 2 * value + unit := by
  obtain ⟨lower, upper⟩ := roundHalfEvenNat_bounds value.natAbs positive
  zify at lower upper
  unfold roundHalfEven
  split
  · next negative =>
    rw [abs_of_neg negative] at lower upper
    constructor <;> linarith
  · next nonnegative =>
    rw [abs_of_nonneg (not_lt.mp nonnegative)] at lower upper
    exact ⟨lower, upper⟩

/-- Rounding does not go beyond a whole number of units. -/
theorem natAbs_roundHalfEven_le {bound : ℕ} (within : value.natAbs ≤ bound * unit) (positive : 0 < unit) :
    (roundHalfEven value unit).natAbs ≤ bound := by
  have upper := (roundHalfEvenNat_bounds value.natAbs positive).2
  have below : 2 * unit * roundHalfEvenNat value.natAbs unit < 2 * unit * (bound + 1) := by linarith
  have whole := Nat.lt_of_mul_lt_mul_left below
  unfold roundHalfEven
  split <;> omega

/-- Rounding keeps the order: two quotients that round the other way round would be equal. -/
theorem roundHalfEven_mono {low high : ℤ} (ordered : low ≤ high) (positive : 0 < unit) :
    roundHalfEven low unit ≤ roundHalfEven high unit := by
  by_contra reversed
  have gap : roundHalfEven high unit + 1 ≤ roundHalfEven low unit := not_le.mp reversed
  have lowBound := (roundHalfEven_bounds low positive).2
  have highBound := (roundHalfEven_bounds high positive).1
  have unitPos : (0 : ℤ) < unit := by exact_mod_cast positive
  have same : low = high := by nlinarith
  exact reversed (le_of_eq (by rw [same]))

/-- Rounding is exact on multiples of the unit. -/
theorem roundHalfEven_mul (quotient : ℤ) (positive : 0 < unit) :
    roundHalfEven (quotient * unit) unit = quotient := by
  obtain ⟨lower, upper⟩ := roundHalfEven_bounds (quotient * unit) positive
  have unitPos : (0 : ℤ) < unit := by exact_mod_cast positive
  have above : quotient - 1 < roundHalfEven (quotient * unit) unit := by nlinarith
  have below : roundHalfEven (quotient * unit) unit < quotient + 1 := by nlinarith
  omega

theorem roundHalfEven_nonneg (nonnegative : 0 ≤ value) (unit : ℕ) :
    0 ≤ roundHalfEven value unit := by
  rw [roundHalfEven, if_neg (not_lt.mpr nonnegative)]
  positivity

/-- A quotient rounds to something positive when it exceeds one half. -/
theorem roundHalfEven_pos_iff (nonnegative : 0 ≤ value) (positive : 0 < unit) :
    0 < roundHalfEven value unit ↔ unit < 2 * value := by
  obtain ⟨amount, rfl⟩ := Int.eq_ofNat_of_zero_le nonnegative
  rw [roundHalfEven, if_neg (not_lt.mpr nonnegative), Int.natAbs_natCast]
  norm_cast
  have division := Nat.div_add_mod amount unit
  have remainder := Nat.mod_lt amount positive
  unfold roundHalfEvenNat
  rcases Nat.eq_zero_or_pos (amount / unit) with zero | whole
  · rw [zero, Nat.mul_zero, Nat.zero_add] at division
    rw [zero, division]
    split_ifs <;> omega
  · have large : unit ≤ unit * (amount / unit) := Nat.le_mul_of_pos_right unit whole
    split_ifs <;> omega

/-! ## Splitting a whole by weights

Each weight gets its share of the whole, truncated to units. An amount is then handed out in parts, one for each share,
and each part may be rounded up by half a unit. Together the parts still do not exceed the amount: what rounding adds is
again in proportion to the shares.
-/

/-- The truncated shares of a whole add up to no more than the whole. -/
theorem sum_shares_le (weights : List ℕ) (whole : ℕ) {total : ℕ} (positive : 0 < total) (covers : weights.sum ≤ total) :
    (weights.map fun weight => weight * whole / total).sum ≤ whole := by
  have scaled : total * (weights.map fun weight => weight * whole / total).sum ≤ weights.sum * whole := by
    clear covers
    induction weights with
    | nil => simp
    | cons weight rest ih =>
      have first : total * (weight * whole / total) ≤ weight * whole := Nat.mul_div_le _ _
      simp only [List.map_cons, List.sum_cons, Nat.mul_add, Nat.add_mul]
      exact Nat.add_le_add first ih
  apply Nat.le_of_mul_le_mul_left _ positive
  exact scaled.trans (Nat.mul_le_mul_right whole covers)

/-- Parts that exceed the exact product with their share by at most half a unit of the share do not exceed the pool. -/
theorem sum_parts_le {ι : Type} (holders : List ι) (share part : ι → ℤ) {pool amount unit : ℤ} (positive : 0 < unit)
    (nonneg : 0 ≤ amount) (within : amount ≤ pool * unit) (shares : (holders.map share).sum ≤ unit)
    (rounded : ∀ holder ∈ holders, 2 * (unit * unit) * part holder ≤ (2 * amount + unit) * share holder) :
    (holders.map part).sum ≤ pool := by
  have scaled : 2 * (unit * unit) * (holders.map part).sum ≤ (2 * amount + unit) * (holders.map share).sum := by
    rw [← List.sum_map_mul_left, ← List.sum_map_mul_left]
    exact List.sum_le_sum rounded
  have bounded : (2 * amount + unit) * (holders.map share).sum ≤ (2 * pool + 1) * (unit * unit) := by
    calc (2 * amount + unit) * (holders.map share).sum
        ≤ (2 * amount + unit) * unit := by apply mul_le_mul_of_nonneg_left shares; omega
      _ ≤ (2 * (pool * unit) + unit) * unit := by apply mul_le_mul_of_nonneg_right _ positive.le; omega
      _ = (2 * pool + 1) * (unit * unit) := by ring
  have halved : 2 * (holders.map part).sum ≤ 2 * pool + 1 := by
    apply le_of_mul_le_mul_right _ (mul_pos positive positive)
    calc 2 * (holders.map part).sum * (unit * unit)
        = 2 * (unit * unit) * (holders.map part).sum := by ring
      _ ≤ (2 * pool + 1) * (unit * unit) := scaled.trans bounded
  omega

end Math
