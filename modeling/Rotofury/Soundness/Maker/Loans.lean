import Rotofury.Soundness.Maker.Health

/-! # Limits of loans, and what a liquidation takes

A mint and a redemption compute the same limit of a debt, each in its own words; they part only at a catalytic ratio of
zero, which the redemption divides by. A liquidation takes its commission out of the fee on the seized collateral and asks
for at most the market value of the rest: both products are rounded, and rounding keeps their order.
-/

namespace Rotofury.Soundness.Maker

open Model.Sdk Model.App Model.Maker Except

variable {ctx : Ctx} {state : State} {params : CollateralRiskParams} {record : AccountCollateral}
  {price ironPrice fee : Dec}

/-! ## The limit of a debt -/

/-- The check of `calculateMintByCollateral`. -/
def mintAccepts (ctx : Ctx) (params : CollateralRiskParams) (record : AccountCollateral) : Except Fault Bool := do
  let collateralPrice ← ctx.getExchangeRate record.collateral.denom
  let ironPrice ← ctx.getExchangeRate attoIronDenom
  let collateralValue := (Dec.ofInt record.collateral.amount).mul collateralPrice
  let ironCollateralizedValue := (Dec.ofInt record.ironCollateralized.amount).mul ironPrice
  require collateralValue.isPositive (.err errAccountInsufficientCollateral "")
  let availableLTV ← mintLoanToValue params ironCollateralizedValue collateralValue
  let availableDebtMax := (← (collateralValue.mul availableLTV).quo microUSMTarget).truncateInt
  pure (decide (¬ availableDebtMax < record.gridDebt.amount))

/-- The check of `RedeemCollateral`. -/
def redeemAccepts (ctx : Ctx) (params : CollateralRiskParams) (record : AccountCollateral) : Except Fault Bool := do
  let (_, maxDebtInUSD) ← maxLoanToValueForAccount ctx record params
  pure (decide (¬ maxDebtInUSD < (Dec.ofInt record.gridDebt.amount).mul microUSMTarget))

/-- A mint goes through only if the check accepts the record it writes. -/
theorem calculateMintByCollateral_accepts {account : Address} {denom : Denom} {mintOut mintFee : Coin}
    {total : TotalCollateral} {pool : PoolCollateral}
    (ok : calculateMintByCollateral ctx state.store account denom mintOut = .ok (mintFee, total, pool, record))
    (keyed : record.collateral.denom = denom) :
    ∃ params, state.store.getAvailableCollateralParams denom = .ok params ∧ mintAccepts ctx params record = .ok true := by
  simp only [calculateMintByCollateral, ok_iffs, Prod.exists, Prod.mk.injEq] at ok
  obtain ⟨params, available, _, priced, _, ironPriced, _, _, _, _, _, _, _, _, _, _, _, _, _, _, _, _, _, _, _, _, _, _,
    _, valuable, _, ratio, _, limit, _, within, rfl, rfl, rfl, rfl⟩ := ok
  refine ⟨params, available, ?_⟩
  dsimp only at keyed valuable ratio limit
  simp only [mintAccepts, keyed, priced, ironPriced, ok_bind, require, if_pos valuable, ratio, limit]
  simp [within]

/-- So does a redemption. -/
theorem redeemCollateralPlan_accepts {msg : MsgRedeemCollateral} {plan : Plan Unit}
    (ok : redeemCollateralPlan ctx state msg = .ok plan) : ∃ params before after,
      Rewritten ctx state.store plan.store msg.sender msg.collateralOut.denom params before after ∧
        redeemAccepts ctx params after = .ok true := by
  obtain ⟨params, before, after, _, _, rewritten, limit, within, _⟩ := redeemCollateralPlan_rewritten ok
  refine ⟨params, before, after, rewritten, ?_⟩
  rw [redeemAccepts, limit, ok_bind, microUSMTarget, Dec.mul_one]
  exact congrArg Except.ok (decide_eq_true (Int.not_lt.mpr within))

/-- Amounts and prices with which no decimal of the two checks takes more than 315 bits: the value of the collateral, doubled,
the value of the iron, their quotient and the debt. -/
structure LimitBounded (record : AccountCollateral) (price ironPrice : Dec) : Prop where
  collateral : record.collateral.amount * price.raw < 2 ^ 254 * 2 ^ 60
  iron : record.ironCollateralized.amount * ironPrice.raw < 2 ^ 255 * 2 ^ 60
  quotient : record.ironCollateralized.amount * ironPrice.raw * 10 ^ 18 <
    (2 ^ 255 * 2 ^ 60 - 1) * (record.collateral.amount * price.raw)
  debt : |record.gridDebt.amount| * 10 ^ 18 < 2 ^ 255 * 2 ^ 60

/-- The decimals of the two checks, given the values of the collateral and of the iron. -/
structure LimitFits (params : CollateralRiskParams) (debt : ℤ) (value ironValue catalytic : Dec) : Prop where
  collateral : value.fits
  iron : ironValue.fits
  debt : ((Dec.ofInt debt).mul microUSMTarget).fits
  quotient : ∀ actual, ironValue.quo value = .ok actual → actual.fits
  uncatalyzed : ∀ basic, params.basicLoanToValue = some basic → (value.mul basic).fits
  limit : ∀ loan basic actual added, params.loanToValue = some loan → params.basicLoanToValue = some basic →
    ironValue.quo value = .ok actual → ((loan - basic).mul (actual.min catalytic)).quo catalytic = .ok added →
      ((loan - basic).mul (actual.min catalytic)).fits ∧ added.fits ∧ (added + basic).fits ∧ (value.mul (added + basic)).fits

/-- A limit of twice the value fits. -/
theorem fits_of_ratio {value ratio : Dec} (small : value.raw.natAbs < 2 ^ 254 * 2 ^ 60) (nonneg : 0 ≤ ratio.raw)
    (most : ratio.raw ≤ 2 * 10 ^ 18) : (value.mul ratio).fits := by
  have within : (value.raw * ratio.raw).natAbs ≤ 2 * value.raw.natAbs * Dec.precision := by
    rw [Int.natAbs_mul, mul_comm 2, mul_assoc]
    apply Nat.mul_le_mul_left
    simp only [Dec.precision]
    omega
  have rounded : (value.mul ratio).raw.natAbs ≤ 2 * value.raw.natAbs :=
    Math.natAbs_roundHalfEven_le within Dec.precision_pos
  rw [Dec.fits]
  omega

section Limit

variable {value ironValue catalytic : Dec} (valuable : value.isPositive) (ironNonneg : 0 ≤ ironValue.raw)
include valuable ironNonneg

theorem quotient_fits {actual : Dec} (isActual : ironValue.quo value = .ok actual)
    (small : ironValue.raw * 10 ^ 18 < (2 ^ 255 * 2 ^ 60 - 1) * value.raw) : actual.fits := by
  have upper := Dec.quo_raw_upper isActual valuable
  have nonneg := Dec.quo_nonneg isActual ironNonneg valuable
  have unit : (Dec.precision : ℤ) = 10 ^ 18 := rfl
  rw [max_eq_right ironNonneg, unit] at upper
  have below : actual.raw < 2 ^ 255 * 2 ^ 60 := by
    by_contra large
    have scaled : 2 ^ 255 * 2 ^ 60 * value.raw ≤ actual.raw * value.raw :=
      mul_le_mul_of_nonneg_right (not_lt.mp large) (le_of_lt valuable)
    have positive : 0 < value.raw := valuable
    linarith
  rw [Dec.fits]
  omega

/-- The part of the span that the iron adds is between zero and one. -/
theorem added_bounds {span actual added : Dec} (isActual : ironValue.quo value = .ok actual) (positive : catalytic.isPositive)
    (spanLow : 0 ≤ span.raw) (spanHigh : span ≤ Dec.one)
    (isAdded : (span.mul (actual.min catalytic)).quo catalytic = .ok added) :
    (0 ≤ (span.mul (actual.min catalytic)).raw ∧ (span.mul (actual.min catalytic)).raw ≤ catalytic.raw) ∧
      0 ≤ added.raw ∧ added.raw ≤ 10 ^ 18 := by
  have least : 0 ≤ (actual.min catalytic).raw := by
    rw [Dec.raw_min]
    exact le_min (Dec.quo_nonneg isActual ironNonneg valuable) (le_of_lt positive)
  rw [Dec.mul_comm] at isAdded ⊢
  have low := Dec.mul_nonneg least spanLow
  have high : ((actual.min catalytic).mul span).raw ≤ catalytic.raw :=
    le_trans (Dec.mul_le_left least spanHigh) (Dec.min_le_right _ _)
  refine ⟨⟨low, high⟩, Dec.quo_nonneg isAdded low positive, ?_⟩
  have upper := Dec.quo_raw_upper isAdded positive
  have unit : (Dec.precision : ℤ) = 10 ^ 18 := rfl
  rw [max_eq_right low, unit] at upper
  by_contra more
  have scaled : (10 ^ 18 + 1) * catalytic.raw ≤ added.raw * catalytic.raw :=
    mul_le_mul_of_nonneg_right (by omega) (le_of_lt positive)
  have some : 0 < catalytic.raw := positive
  linarith

end Limit

section Valid

variable {catalytic : Dec} (basic : params.validateBasic = .ok ()) (valid : params.validate = .ok ())
  (isRatio : params.catalyticIronRatio = some catalytic)
include basic valid isRatio

/-- The ratios of a valid set of parameters. -/
theorem valid_ratios : ∃ loan basicLoan, params.loanToValue = some loan ∧ params.basicLoanToValue = some basicLoan ∧
    0 ≤ basicLoan.raw ∧ basicLoan.raw ≤ loan.raw ∧ loan.raw ≤ 10 ^ 18 ∧ 0 ≤ catalytic.raw ∧ catalytic.raw ≤ 10 ^ 18 := by
  simp only [CollateralRiskParams.validate, ok_iffs, deref_ok_iff] at valid
  obtain ⟨loan, isLoan, _, _, _, _, basicLoan, isBasic, ordered⟩ := valid
  simp only [CollateralRiskParams.validateBasic, requireRatio, isLoan, isBasic, isRatio, ok_iffs, Option.mem_def,
    Option.some.injEq, forall_eq', not_or] at basic
  obtain ⟨_, _, _, _, _, _, _, loanRange, _, basicRange, _, catalyticRange, -⟩ := basic
  exact ⟨loan, basicLoan, isLoan, isBasic, Int.not_lt.mp basicRange.1, Int.not_lt.mp ordered, Int.not_lt.mp loanRange.2,
    Int.not_lt.mp catalyticRange.1, Int.not_lt.mp catalyticRange.2⟩

variable (ironPos : ironPrice.isPositive) (valuable : ((Dec.ofInt record.collateral.amount).mul price).isPositive)
  (ironNonneg : 0 ≤ record.ironCollateralized.amount)
include ironPos valuable ironNonneg

theorem limitFits_of_bounded (bounded : LimitBounded record price ironPrice) :
    LimitFits params record.gridDebt.amount ((Dec.ofInt record.collateral.amount).mul price)
      ((Dec.ofInt record.ironCollateralized.amount).mul ironPrice) catalytic := by
  obtain ⟨loan, basicLoan, isLoan, isBasic, basicLow, ordered, loanHigh, catalyticLow, catalyticHigh⟩ :=
    valid_ratios basic valid isRatio
  have valueRaw := Dec.ofInt_mul record.collateral.amount price
  have ironRaw := Dec.ofInt_mul record.ironCollateralized.amount ironPrice
  obtain ⟨collateral, iron, quotient, debt⟩ := bounded
  rw [← valueRaw] at collateral
  rw [← ironRaw] at iron
  rw [← valueRaw, ← ironRaw] at quotient
  have ironValueNonneg : 0 ≤ ((Dec.ofInt record.ironCollateralized.amount).mul ironPrice).raw :=
    ironRaw ▸ mul_nonneg ironNonneg (le_of_lt ironPos)
  generalize (Dec.ofInt record.collateral.amount).mul price = value at *
  generalize (Dec.ofInt record.ironCollateralized.amount).mul ironPrice = ironValue at *
  have positive : 0 < value.raw := valuable
  have small : value.raw.natAbs < 2 ^ 254 * 2 ^ 60 := by omega
  refine ⟨?_, ?_, ?_, fun actual isActual => quotient_fits valuable ironValueNonneg isActual quotient, ?_, ?_⟩
  · rw [Dec.fits]
    omega
  · rw [Dec.fits]
    omega
  · have whole : |record.gridDebt.amount * 10 ^ 18| < 2 ^ 255 * 2 ^ 60 := by
      rwa [abs_mul, abs_of_pos (by decide : (0 : ℤ) < 10 ^ 18)]
    rw [microUSMTarget, Dec.mul_one, Dec.fits, ← Int.ofNat_lt, Int.natCast_natAbs]
    exact_mod_cast whole
  · intro other isOther
    obtain rfl := Option.some.inj (isBasic.symm.trans isOther)
    exact fits_of_ratio small basicLow (by omega)
  · intro otherLoan other actual added isOtherLoan isOther isActual isAdded
    obtain rfl := Option.some.inj (isBasic.symm.trans isOther)
    obtain rfl := Option.some.inj (isLoan.symm.trans isOtherLoan)
    have catalytic_pos : catalytic.isPositive := by
      refine lt_of_le_of_ne catalyticLow fun zero => ?_
      rw [Dec.quo, Dec.scaledQuo, if_pos zero.symm] at isAdded
      cases isAdded
    have spanLow : 0 ≤ (loan - basicLoan).raw := sub_nonneg.mpr ordered
    have spanHigh : (loan - basicLoan).raw ≤ 10 ^ 18 := by
      rw [Dec.raw_sub]
      omega
    obtain ⟨⟨low, high⟩, addedLow, addedHigh⟩ :=
      added_bounds valuable ironValueNonneg isActual catalytic_pos spanLow spanHigh isAdded
    refine ⟨?_, ?_, ?_, fits_of_ratio small ?_ ?_⟩
    · rw [Dec.fits]
      omega
    · rw [Dec.fits]
      omega
    · rw [Dec.fits, Dec.raw_add]
      omega
    · rw [Dec.raw_add]
      omega
    · rw [Dec.raw_add]
      omega

/-- With a valid set of parameters, a mint and a redemption accept the same debts of an account with collateral, without a
panic, exactly when the catalytic ratio is not zero; and all decimals fit. -/
theorem sameLimit_iff (priced : ctx.exchangeRate record.collateral.denom = some price)
    (ironPriced : ctx.exchangeRate attoIronDenom = some ironPrice) (bounded : LimitBounded record price ironPrice) :
    ((∃ verdict, mintAccepts ctx params record = .ok verdict ∧ redeemAccepts ctx params record = .ok verdict) ↔
      catalytic ≠ Dec.zero) ∧
    LimitFits params record.gridDebt.amount ((Dec.ofInt record.collateral.amount).mul price)
      ((Dec.ofInt record.ironCollateralized.amount).mul ironPrice) catalytic := by
  refine ⟨?_, limitFits_of_bounded basic valid isRatio ironPos valuable ironNonneg bounded⟩
  obtain ⟨loanToValue, basicLoanToValue, isLoan, isBasic, basicNonneg, ordered, _, catalyticLow, _⟩ :=
    valid_ratios basic valid isRatio
  have span : 0 ≤ (loanToValue - basicLoanToValue).raw := sub_nonneg.mpr ordered
  simp only [mintAccepts, redeemAccepts, maxLoanToValueForAccount, mintLoanToValue, Ctx.getExchangeRate, priced,
    ironPriced, isLoan, isBasic, isRatio, deref, ok_bind, require, if_pos valuable, microUSMTarget, Dec.mul_one,
    Dec.quo_one]
  set value := (Dec.ofInt record.collateral.amount).mul price
  set ironValue := (Dec.ofInt record.ironCollateralized.amount).mul ironPrice with isIron
  have ironValueNonneg : 0 ≤ ironValue.raw := by
    rw [isIron, Dec.ofInt_mul]
    exact mul_nonneg ironNonneg (le_of_lt ironPos)
  obtain ⟨actual, isActual⟩ : ∃ actual, ironValue.quo value = .ok actual := ⟨_, Dec.quo_of_pos ironValue valuable⟩
  have actualNonneg := Dec.quo_nonneg isActual ironValueNonneg valuable
  rw [isActual]
  simp only [ok_bind]
  by_cases positive : catalytic.isPositive
  · have least : 0 ≤ (actual.min catalytic).raw := by
      rw [Dec.raw_min]
      exact le_min actualNonneg (le_of_lt positive)
    obtain ⟨added, isAdded⟩ : ∃ added, ((actual.min catalytic).mul (loanToValue - basicLoanToValue)).quo catalytic = .ok added :=
      ⟨_, Dec.quo_of_pos _ positive⟩
    have addedNonneg := Dec.quo_nonneg isAdded (Dec.mul_nonneg least span) positive
    have same : added + basicLoanToValue = basicLoanToValue + added := congrArg Dec.mk (Int.add_comm _ _)
    have limitNonneg : 0 ≤ (value.mul (basicLoanToValue + added)).raw :=
      Dec.mul_nonneg (le_of_lt valuable) (add_nonneg basicNonneg addedNonneg)
    rw [Dec.mul_comm (loanToValue - basicLoanToValue), isAdded, if_pos positive, if_neg (not_not.mpr valuable)]
    simp only [ok_bind, pure_bind, same]
    refine iff_of_true ⟨_, rfl, congrArg Except.ok ?_⟩ (fun zero => by simp [zero, Dec.isPositive, Dec.zero] at positive)
    rw [decide_eq_decide, Int.not_lt, Dec.le_truncateInt_iff limitNonneg]
    exact Int.not_lt
  · have zero : catalytic = Dec.zero := congrArg Dec.mk (le_antisymm (Int.not_lt.mp positive) catalyticLow)
    refine iff_of_false ?_ (not_not.mpr zero)
    rintro ⟨verdict, _, redeemed⟩
    rw [if_neg (not_not.mpr valuable), zero] at redeemed
    cases redeemed

end Valid

/-- A collateral with default ratios but for the catalytic one. -/
def loanParams (catalytic : Dec) : CollateralRiskParams :=
  { sampleCollateral.withDefaults with catalyticIronRatio := some catalytic }

/-- An account with 1000 units of collateral and a debt of 400. -/
def loanRecord : AccountCollateral :=
  ⟨1, ⟨"ucoll", 1000⟩, ⟨microUSMDenom, 400⟩, ⟨attoIronDenom, 0⟩, ⟨microUSMDenom, 0⟩, 1⟩

theorem sameLimit_sample : ∃ verdict, mintAccepts (sampleCtx 1) (loanParams (.withPrec 10 2)) loanRecord = .ok verdict ∧
    redeemAccepts (sampleCtx 1) (loanParams (.withPrec 10 2)) loanRecord = .ok verdict :=
  (sameLimit_iff (by rfl) (by rfl) rfl (by decide) (by decide) (by decide) rfl rfl
    ⟨by decide, by decide, by decide, by decide⟩).1.mpr (by decide)

/-- Without catalysis the debt can be minted, and every redemption panics. -/
theorem redeem_panics_without_catalysis : (loanParams .zero).validateBasic = .ok () ∧ (loanParams .zero).validate = .ok () ∧
    mintAccepts (sampleCtx 1) (loanParams .zero) loanRecord = .ok true ∧
    redeemAccepts (sampleCtx 1) (loanParams .zero) loanRecord = .error (.panic "division by zero") :=
  ⟨by rfl, by rfl, by decide +kernel, by decide +kernel⟩

/-! ## The parts of a liquidation -/

/-- How the seized collateral and the repayment are split: the commission and the rest make up the collateral, the
repayment is worth no more than the rest, and the commission is within the fee. -/
structure FairSplit (collateral : ℤ) (price fee : Dec) (commission collateralOut repayIn : ℤ) : Prop where
  seized : commission + collateralOut = collateral
  commission_nonneg : 0 ≤ commission
  collateralOut_nonneg : 0 ≤ collateralOut
  worth : repayIn * Dec.precision ≤ collateralOut * price.raw
  within_fee : commission * Dec.precision ≤ collateral * fee.raw

theorem liquidationAmounts_fair {collateral commissionFee collateralOut repayIn : Coin}
    (isFee : params.liquidationFee = some fee) (feeLow : Dec.zero ≤ fee) (feeHigh : fee ≤ Dec.one)
    (rateLow : Dec.zero ≤ ctx.params.liquidationCommissionFee) (rateHigh : ctx.params.liquidationCommissionFee ≤ Dec.one)
    (positive : price.isPositive) (seized : 0 < collateral.amount)
    (ok : liquidationAmounts ctx params price collateral = .ok (commissionFee, collateralOut, repayIn)) :
    FairSplit collateral.amount price fee commissionFee.amount collateralOut.amount repayIn.amount := by
  simp only [liquidationAmounts, isFee, deref, ok_bind, ok_iffs, Prod.mk.injEq, newCoin_ok_iff, Coin.sub_ok_iff,
    microUSMTarget, Dec.quo_one] at ok
  obtain ⟨_, ⟨commissionNonneg, rfl⟩, _, ⟨_, enough, rfl⟩, _, ⟨_, rfl⟩, rfl, rfl, rfl⟩ := ok
  set liquidationFee := (Dec.ofInt collateral.amount).mul fee with isLiquidationFee
  have feeRaw : liquidationFee.raw = collateral.amount * fee.raw := Dec.ofInt_mul _ _
  have feeNonneg : 0 ≤ liquidationFee.raw := feeRaw ▸ mul_nonneg seized.le feeLow
  have feeMost : liquidationFee.raw ≤ collateral.amount * Dec.precision :=
    feeRaw ▸ mul_le_mul_of_nonneg_left feeHigh seized.le
  set commission := (liquidationFee.mul ctx.params.liquidationCommissionFee).truncateInt
  have whole : commission * Dec.precision ≤ (liquidationFee.mul ctx.params.liquidationCommissionFee).raw :=
    (Dec.le_truncateInt_iff (Dec.mul_nonneg feeNonneg rateLow)).mp le_rfl
  have within : commission * Dec.precision ≤ liquidationFee.raw := whole.trans (Dec.mul_le_left feeNonneg rateHigh)
  have rest : 0 ≤ (Dec.ofInt collateral.amount - liquidationFee).raw := sub_nonneg.mpr feeMost
  -- what is left beside the fee is at most the collateral beside the commission, before and after rounding
  have left : Dec.ofInt collateral.amount - liquidationFee ≤ Dec.ofInt (collateral.amount - commission) := by
    change collateral.amount * Dec.precision - liquidationFee.raw ≤ (collateral.amount - commission) * Dec.precision
    rw [Int.sub_mul]
    exact sub_le_sub_left within _
  have paid := (Dec.le_truncateInt_iff (Dec.mul_nonneg rest (le_of_lt positive))).mp le_rfl
  have market : ((Dec.ofInt collateral.amount - liquidationFee).mul price).raw ≤
      (collateral.amount - commission) * price.raw :=
    Dec.ofInt_mul (collateral.amount - commission) price ▸ Dec.mul_mono left (le_of_lt positive)
  refine ⟨?_, commissionNonneg, ?_, ?_, feeRaw ▸ within⟩
  · simp [Coin.addAmount]
  · simpa [Coin.addAmount] using enough
  · rw [Coin.addAmount_amount, ← Int.sub_eq_add_neg]
    exact le_trans paid market

/-- A liquidation that succeeds splits fairly, burns and refunds the repayment, and takes what it burns off the debt. -/
theorem liquidation_fair (bank : Bank) (events : List Event) {ctx : Ctx} {msg : MsgLiquidateCollateral} {next : State}
    {params : CollateralRiskParams} {price fee : Dec}
    (registered : (run bank events).store.collateralParams.lookup msg.collateral.denom = some params)
    (isFee : params.liquidationFee = some fee) (feeLow : Dec.zero ≤ fee) (feeHigh : fee ≤ Dec.one)
    (rateLow : Dec.zero ≤ ctx.params.liquidationCommissionFee) (rateHigh : ctx.params.liquidationCommissionFee ≤ Dec.one)
    (priced : ctx.exchangeRate msg.collateral.denom = some price) (positive : price.isPositive)
    (success : (Msg.liquidateCollateral msg).deliver ctx (run bank events) = .ok next) :
    ∃ commission collateralOut burnt refund total pool before after,
      FairSplit msg.collateral.amount price fee commission collateralOut (burnt + refund) ∧ 0 ≤ burnt ∧ 0 ≤ refund ∧
      execOps (run bank events).bank
        ([.sendCoinsFromAccountToModule msg.sender .maker [⟨microUSMDenom, burnt + refund⟩],
          .burnCoins .maker [⟨microUSMDenom, burnt⟩]] ++
        whenPositive ⟨microUSMDenom, refund⟩
          (.sendCoinsFromModuleToAccount .maker msg.debtor [⟨microUSMDenom, refund⟩]) ++
        [.sendCoinsFromModuleToAccount .maker (msg.receiver.getD msg.sender) [⟨msg.collateral.denom, collateralOut⟩],
          .sendCoinsFromModuleToModule .maker .oracle [⟨msg.collateral.denom, commission⟩]]) = .ok next.bank ∧
      settledCollateral ctx (run bank events).store msg.debtor msg.collateral.denom false params =
        .ok (total, pool, before) ∧
      next.store.accountCollateral.lookup (msg.debtor, msg.collateral.denom) = some after ∧
      after.gridDebt.amount = before.gridDebt.amount - burnt := by
  have keyed := (run_keyed_agreement bank events).1
  generalize run bank events = state at *
  obtain ⟨valid, _, planned, executed⟩ := Msg.deliver_ok success
  obtain ⟨plan, isPlan, stored, isOps⟩ := by simpa [Msg.planned] using planned
  obtain ⟨_, _, total, pool, before, after, commissionFee, collateralOut, repayIn, burnt, settled, rewritten, _,
    isPrice, amounts, burntNonneg, atMost, debt, ops⟩ := liquidateCollateralPlan_rewritten isPlan
  obtain rfl := getAvailableCollateralParams_ok rewritten.available registered
  obtain rfl := Option.some.inj (priced.symm.trans isPrice)
  have seized : 0 < msg.collateral.amount := by
    simp only [Msg.validateBasic, MsgLiquidateCollateral.validateBasic, requirePositive, ok_iffs] at valid
    exact valid.choose_spec.1
  have fair := liquidationAmounts_fair isFee feeLow feeHigh rateLow rateHigh positive seized amounts
  obtain ⟨commissionDenom, _, isOut, repayDenom⟩ := liquidationAmounts_ok amounts
  obtain ⟨_, commission⟩ := commissionFee
  obtain ⟨_, repaid⟩ := repayIn
  obtain rfl : _ = msg.collateral.denom := commissionDenom
  obtain rfl : _ = microUSMDenom := repayDenom
  have parts : burnt + (repaid - burnt) = repaid := add_sub_cancel burnt repaid
  have repay : FairSplit msg.collateral.amount price fee commission collateralOut.amount (burnt + (repaid - burnt)) := by
    rw [parts]
    exact fair
  refine ⟨commission, collateralOut.amount, burnt, repaid - burnt, total, pool, before, after, repay, burntNonneg,
    sub_nonneg.mpr atMost, ?_, settled, ?_, debt⟩
  · rw [parts, ← executed, ← isOps, ops, isOut]
    rfl
  · rw [← stored]
    exact rewritten.lookup keyed

/-- Of 100 units seized in the sample run, one goes to the oracle, and the liquidator pays 90 for the rest. -/
theorem liquidation_fair_sample : ∃ next,
    (Msg.liquidateCollateral ⟨1, none, 1, ⟨"ucoll", 100⟩, ⟨"uusm", 400⟩⟩).deliver (sampleCtx 5256001)
        (run sampleBank (sampleEvents.take 3)) = .ok next ∧
      ∃ commission collateralOut repayIn, FairSplit 100 Dec.one (.withPrec 10 2) commission collateralOut repayIn := by
  have registered : (run sampleBank (sampleEvents.take 3)).store.collateralParams.lookup "ucoll" =
      some sampleCollateral.withDefaults := by decide +kernel
  have succeeds : (fun _ => ()) <$> (Msg.liquidateCollateral ⟨1, none, 1, ⟨"ucoll", 100⟩, ⟨"uusm", 400⟩⟩).deliver
      (sampleCtx 5256001) (run sampleBank (sampleEvents.take 3)) = .ok () := by decide +kernel
  obtain ⟨next, success, -⟩ := map_ok_iff.mp succeeds
  obtain ⟨commission, collateralOut, burnt, refund, _, _, _, _, fair, -⟩ := liquidation_fair sampleBank
    (sampleEvents.take 3) registered rfl (by decide) (by decide) (by decide) (by decide) rfl (by decide) success
  exact ⟨next, success, commission, collateralOut, burnt + refund, fair⟩

end Rotofury.Soundness.Maker
