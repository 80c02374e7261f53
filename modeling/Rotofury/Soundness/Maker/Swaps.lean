import Rotofury.Model.Maker.BackingRatio
import Rotofury.Soundness.Maker.Plans

/-! # The value of what a burn pays

A burn pays the burned value in backing and in iron, each part rounded down to base units, so it is short of the value by
less than one unit of each.
-/

namespace Rotofury.Soundness.Maker

open Model.Sdk Model.App Model.Maker Except

variable {price backingPrice ironPrice total : Dec} {amount units : ℤ} {ctx : Ctx} {state : State}
  {backingInMax ironInMax : Coin} {fullBacking : Bool}

/-- The exact value in uusd of an amount of each coin. -/
def swapValue (backingPrice ironPrice : Dec) (backing iron : ℤ) : ℚ :=
  backing * backingPrice.toRat + iron * ironPrice.toRat

theorem swapValue_eq (backingPrice ironPrice : Dec) (backing iron : ℤ) :
    swapValue backingPrice ironPrice backing iron =
      ((backing * backingPrice.raw + iron * ironPrice.raw : ℤ) : ℚ) / Dec.precision := by
  rw [swapValue, Dec.toRat, Dec.toRat]
  push_cast
  ring

/-- What is left of a value when as many units of a price as fit are taken from it. -/
theorem ediv_short (value : ℤ) (positive : price.isPositive) :
    0 ≤ value - value / price.raw * price.raw ∧ value - value / price.raw * price.raw < price.raw := by
  have low := Int.ediv_mul_le value (ne_of_gt positive)
  have high := Int.lt_ediv_add_one_mul_self value positive
  constructor
  · omega
  · linarith

/-! ## Burning -/

section Burning

variable {backingRatio backingPrice ironPrice : Dec} (backingPos : backingPrice.isPositive)
  (ironPos : ironPrice.isPositive)
include backingPos ironPos

/-- The outputs of a burn fall short of the burned value by less than one unit of each coin. -/
theorem burnBySwapOutputs_short (low : Dec.zero ≤ backingRatio) (high : backingRatio ≤ Dec.one)
    {backingOut ironOut : ℤ} (nonneg : 0 ≤ amount)
    (ok : burnBySwapOutputs backingRatio backingPrice ironPrice (Dec.ofInt amount) = .ok (backingOut, ironOut)) :
    0 ≤ amount * Dec.precision - (backingOut * backingPrice.raw + ironOut * ironPrice.raw) ∧
      amount * Dec.precision - (backingOut * backingPrice.raw + ironOut * ironPrice.raw) <
        backingPrice.raw + ironPrice.raw := by
  have whole : 0 ≤ (Dec.ofInt amount).raw := mul_nonneg nonneg (Int.natCast_nonneg _)
  have backingRaw : 0 < backingPrice.raw := backingPos
  have ironRaw : 0 < ironPrice.raw := ironPos
  unfold burnBySwapOutputs at ok
  split_ifs at ok with full algorithmic
  · simp only [ok_iffs, Prod.mk.injEq] at ok
    obtain ⟨quotient, divided, rfl, rfl⟩ := ok
    rw [Dec.truncateInt_quoTruncate divided whole backingPos]
    have short := ediv_short (Dec.ofInt amount).raw backingPos
    simp only [Dec.ofInt] at short ⊢
    omega
  · simp only [ok_iffs, Prod.mk.injEq] at ok
    obtain ⟨quotient, divided, rfl, rfl⟩ := ok
    rw [Dec.truncateInt_quoTruncate divided whole ironPos]
    have short := ediv_short (Dec.ofInt amount).raw ironPos
    simp only [Dec.ofInt] at short ⊢
    omega
  · simp only [ok_iffs, Prod.mk.injEq] at ok
    obtain ⟨backing, backingDivided, iron, ironDivided, rfl, rfl⟩ := ok
    -- the two parts are exact and add up to the burned value
    have backingPart : 0 ≤ amount * backingRatio.raw := mul_nonneg nonneg low
    have rest : 0 ≤ (Dec.one - backingRatio).raw := sub_nonneg.mpr high
    have ironPart : 0 ≤ amount * (Dec.one - backingRatio).raw := mul_nonneg nonneg rest
    rw [← Dec.ofInt_mul] at backingPart ironPart
    rw [Dec.truncateInt_quoTruncate backingDivided backingPart backingPos,
      Dec.truncateInt_quoTruncate ironDivided ironPart ironPos, Dec.ofInt_mul, Dec.ofInt_mul]
    have parts : amount * Dec.precision = amount * backingRatio.raw + amount * (Dec.one - backingRatio).raw := by
      rw [← mul_add, Dec.raw_sub, add_sub_cancel]
      rfl
    have backingShort := ediv_short (amount * backingRatio.raw) backingPos
    have ironShort := ediv_short (amount * (Dec.one - backingRatio).raw) ironPos
    omega

end Burning

theorem calculateBurnBySwapOut_ok {burnIn backingOut ironOut burnFee : Coin} {backingDenom : Denom}
    (backing : ctx.exchangeRate backingDenom = some backingPrice)
    (iron : ctx.exchangeRate attoIronDenom = some ironPrice)
    (ok : calculateBurnBySwapOut ctx state burnIn backingDenom = .ok (backingOut, ironOut, burnFee)) :
    burnFee.amount ≤ burnIn.amount ∧
      burnBySwapOutputs state.store.getBackingRatio backingPrice ironPrice (Dec.ofInt (burnIn.amount - burnFee.amount)) =
        .ok (backingOut.amount, ironOut.amount) := by
  simp only [calculateBurnBySwapOut, ok_iffs, Prod.exists, Prod.mk.injEq, Ctx.getExchangeRate_ok_iff, Coin.sub_ok_iff] at ok
  obtain ⟨_, _, _, _, _, atBacking, _, atIron, fee, _, _, ⟨_, enough, rfl⟩, _, _, outputs, _, _, rfl, rfl, rfl⟩ := ok
  obtain rfl := Option.some.inj (backing.symm.trans atBacking)
  obtain rfl := Option.some.inj (iron.symm.trans atIron)
  refine ⟨enough, ?_⟩
  rw [microUSMTarget, Dec.mul_one, Coin.addAmount_amount, ← Int.sub_eq_add_neg] at outputs
  exact outputs

/-- A burn pays the value burned, less the fee, rounded down by less than one unit of each coin. -/
theorem burnBySwap_fair {ctx : Ctx} {state : State} {burnIn backingOut ironOut burnFee : Coin} {backingDenom : Denom}
    {backingPrice ironPrice : Dec} (low : Dec.zero ≤ state.store.getBackingRatio)
    (high : state.store.getBackingRatio ≤ Dec.one) (backing : ctx.exchangeRate backingDenom = some backingPrice)
    (iron : ctx.exchangeRate attoIronDenom = some ironPrice) (backingPos : backingPrice.isPositive)
    (ironPos : ironPrice.isPositive)
    (success : calculateBurnBySwapOut ctx state burnIn backingDenom = .ok (backingOut, ironOut, burnFee)) :
    0 ≤ ((burnIn.amount - burnFee.amount : ℤ) : ℚ) - swapValue backingPrice ironPrice backingOut.amount ironOut.amount ∧
      ((burnIn.amount - burnFee.amount : ℤ) : ℚ) - swapValue backingPrice ironPrice backingOut.amount ironOut.amount <
        backingPrice.toRat + ironPrice.toRat := by
  obtain ⟨enough, outputs⟩ := calculateBurnBySwapOut_ok backing iron success
  obtain ⟨least, most⟩ := burnBySwapOutputs_short backingPos ironPos low high (sub_nonneg.mpr enough) outputs
  have unit : (0 : ℚ) < Dec.precision := by exact_mod_cast Dec.precision_pos
  have difference : ((burnIn.amount - burnFee.amount : ℤ) : ℚ) -
      swapValue backingPrice ironPrice backingOut.amount ironOut.amount =
        (((burnIn.amount - burnFee.amount) * Dec.precision -
          (backingOut.amount * backingPrice.raw + ironOut.amount * ironPrice.raw) : ℤ) : ℚ) / Dec.precision := by
    rw [swapValue_eq, eq_div_iff unit.ne', sub_mul, div_mul_cancel₀ _ unit.ne']
    push_cast
    ring
  have prices : backingPrice.toRat + ironPrice.toRat = ((backingPrice.raw + ironPrice.raw : ℤ) : ℚ) / Dec.precision := by
    rw [Dec.toRat, Dec.toRat]
    push_cast
    ring
  rw [difference, prices]
  constructor
  · apply div_nonneg _ unit.le
    exact_mod_cast least
  · apply (div_lt_div_iff_of_pos_right unit).mpr
    exact_mod_cast most

/-- A price of 300 uusd for a unit of backing and of `10^-12` uusd for a unit of iron. -/
def swapCtx (gridPrice : Dec) : Ctx where
  blockHeight := 1
  params := defaultParams
  exchangeRate denom := if denom = attoIronDenom then some ⟨10 ^ 6⟩ else if denom = microUSMDenom then some gridPrice
    else some ⟨300 * 10 ^ 18⟩

/-- A pool of 1000 units of backing, a backing ratio of 0.8 and fees of one percent. -/
def swapState : State where
  store := { Store.empty with
    backingRatio := some (.withPrec 8 1)
    backingParams := (∅ : AList fun _ : Denom => BackingRiskParams).insert "ubtc"
      ⟨"ubtc", true, none, none, some (.withPrec 1 2), some (.withPrec 1 2), none, none⟩
    totalBacking := some ⟨⟨microUSMDenom, 0⟩, ⟨attoIronDenom, 0⟩⟩
    poolBacking := (∅ : AList fun _ : Denom => PoolBacking).insert "ubtc"
      ⟨⟨microUSMDenom, 0⟩, ⟨"ubtc", 1000⟩, ⟨attoIronDenom, 0⟩⟩ }
  bank := ⟨fun _ _ => 1000, fun _ => 1000⟩

/-- Burning 1000 uusm pays 2 units of backing and iron for 198 uusd: 192 uusd less than the 990 burned. -/
theorem burnBySwap_fair_sample :
    calculateBurnBySwapOut (swapCtx (.withPrec 98 2)) swapState ⟨microUSMDenom, 1000⟩ "ubtc" =
        .ok (⟨"ubtc", 2⟩, ⟨attoIronDenom, 198 * 10 ^ 12⟩, ⟨microUSMDenom, 10⟩) ∧
      0 ≤ ((1000 - 10 : ℤ) : ℚ) - swapValue ⟨300 * 10 ^ 18⟩ ⟨10 ^ 6⟩ 2 (198 * 10 ^ 12) := by
  have success : calculateBurnBySwapOut (swapCtx (.withPrec 98 2)) swapState ⟨microUSMDenom, 1000⟩ "ubtc" =
      .ok (⟨"ubtc", 2⟩, ⟨attoIronDenom, 198 * 10 ^ 12⟩, ⟨microUSMDenom, 10⟩) := by decide +kernel
  have backing : (swapCtx (.withPrec 98 2)).exchangeRate "ubtc" = some ⟨300 * 10 ^ 18⟩ := by decide
  exact ⟨success, (burnBySwap_fair (by decide) (by decide) backing rfl (by decide) (by decide) success).1⟩

end Rotofury.Soundness.Maker
