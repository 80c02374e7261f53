import Rotofury.Soundness.Maker.Payouts
import Rotofury.Soundness.Maker.Rewrites

/-! # Borrowing leaves an account healthy

A loan is limited by the loan-to-value ratio, a liquidation allowed beyond the liquidation threshold. Both are
chains of rounded products and quotients, so a gap between the two parameters must absorb the rounding. A
catalytic ratio of at least 10⁻⁶ keeps the error of the available ratio below 10⁻¹² and a gap of 10⁻⁹ is then
enough: right after a mint or a redemption no one can liquidate a debt, and neither a deposit nor a repayment
takes an account that cannot be liquidated to one that can.
-/

namespace Rotofury.Soundness.Maker

open Model.Sdk Model.App Model.Maker Except

variable {before after record : AccountCollateral} {price threshold available : Dec} {account : Address} {denom : Denom}
  {ctx : Ctx} {store : Store} {params : CollateralRiskParams} {total : TotalCollateral} {pool : PoolCollateral}

/-- The test of a liquidation fails: the debt is worth less than the share of the collateral it may reach. -/
def BelowThreshold (record : AccountCollateral) (price threshold : Dec) : Prop :=
  (Dec.ofInt record.gridDebt.amount).mul microUSMTarget <
    ((Dec.ofInt record.collateral.amount).mul price).mul threshold

/-- More collateral and less debt stay below the threshold. -/
theorem BelowThreshold.mono (below : BelowThreshold before price threshold) (pricePos : price.isPositive)
    (thresholdNonneg : 0 ≤ threshold.raw) (collateral : before.collateral.amount ≤ after.collateral.amount)
    (debt : after.gridDebt.amount ≤ before.gridDebt.amount) : BelowThreshold after price threshold := by
  simp only [BelowThreshold, microUSMTarget, Dec.mul_one, Dec.lt_def] at below ⊢
  have value : before.collateral.amount * price.raw ≤ after.collateral.amount * price.raw :=
    mul_le_mul_of_nonneg_right collateral (le_of_lt pricePos)
  have limit : (((Dec.ofInt before.collateral.amount).mul price).mul threshold).raw ≤
      (((Dec.ofInt after.collateral.amount).mul price).mul threshold).raw := by
    refine Math.roundHalfEven_mono ?_ Dec.precision_pos
    rw [Dec.ofInt_mul, Dec.ofInt_mul]
    exact mul_le_mul_of_nonneg_right value thresholdNonneg
  have owed : (Dec.ofInt after.gridDebt.amount).raw ≤ (Dec.ofInt before.gridDebt.amount).raw :=
    mul_le_mul_of_nonneg_right debt (Int.natCast_nonneg _)
  exact lt_of_le_of_lt owed (lt_of_lt_of_le below limit)

/-- Risk parameters that pass both checks, with room for the rounding. -/
structure RoomyParams (params : CollateralRiskParams) (threshold loanToValue basicLoanToValue catalytic : Dec) :
    Prop where
  liquidationThreshold_eq : params.liquidationThreshold = some threshold
  loanToValue_eq : params.loanToValue = some loanToValue
  basicLoanToValue_eq : params.basicLoanToValue = some basicLoanToValue
  catalyticIronRatio_eq : params.catalyticIronRatio = some catalytic
  validBasic : params.validateBasic = .ok ()
  valid : params.validate = .ok ()
  catalytic_room : Dec.withPrec 1 6 ≤ catalytic
  threshold_room : Dec.withPrec 1 9 ≤ threshold - loanToValue

namespace RoomyParams

variable {params : CollateralRiskParams} {threshold loanToValue basicLoanToValue catalytic : Dec}
  (roomy : RoomyParams params threshold loanToValue basicLoanToValue catalytic)
include roomy

/-- The checks in numbers. -/
theorem bounds : 0 ≤ basicLoanToValue.raw ∧ basicLoanToValue.raw ≤ loanToValue.raw ∧
      loanToValue.raw + 10 ^ 9 ≤ threshold.raw ∧ threshold.raw ≤ 10 ^ 18 ∧ 10 ^ 12 ≤ catalytic.raw := by
  have basic := roomy.validBasic
  have ordered := roomy.valid
  simp only [CollateralRiskParams.validateBasic, requireRatio, roomy.liquidationThreshold_eq, roomy.loanToValue_eq,
    roomy.basicLoanToValue_eq, roomy.catalyticIronRatio_eq, ok_iffs, Option.mem_def, Option.some.injEq, forall_eq',
    Dec.isNegative, Dec.lt_def, Dec.one] at basic
  simp only [CollateralRiskParams.validate, roomy.loanToValue_eq, roomy.basicLoanToValue_eq,
    roomy.liquidationThreshold_eq, ok_iffs, deref_ok_iff, Option.some.injEq, exists_eq_left', Dec.lt_def] at ordered
  obtain ⟨_, _, _, _, _, thresholdRange, _, _, _, basicRange, -⟩ := basic
  obtain ⟨_, _, ordered⟩ := ordered
  have catalyticRoom : (1 : ℤ) * 10 ^ (18 - 6) ≤ catalytic.raw := roomy.catalytic_room
  have thresholdRoom : (1 : ℤ) * 10 ^ (18 - 9) ≤ threshold.raw - loanToValue.raw := roomy.threshold_room
  norm_num at catalyticRoom thresholdRoom ⊢
  omega

/-- The available ratio exceeds the loan-to-value ratio by a rounding error of at most 500000 raw units. -/
theorem available_le {actual quotient : Dec} (capped : actual.raw ≤ catalytic.raw)
    (ok : (actual.mul (loanToValue - basicLoanToValue)).quo catalytic = .ok quotient) :
    basicLoanToValue.raw + quotient.raw ≤ loanToValue.raw + 500000 := by
  obtain ⟨_, ordered, _, _, room⟩ := roomy.bounds
  have product := (Dec.mul_raw_bounds actual (loanToValue - basicLoanToValue)).2
  have upper := Dec.quo_raw_upper ok (by simp only [Dec.isPositive]; omega)
  have span : 0 ≤ loanToValue.raw - basicLoanToValue.raw := by omega
  rw [Dec.raw_sub] at product
  have scaled := mul_le_mul_of_nonneg_right capped span
  simp only [Dec.precision] at product upper
  have capped' : 2 * (max 0 (actual.mul (loanToValue - basicLoanToValue)).raw * (10 ^ 18 : ℕ)) ≤
      2 * (catalytic.raw * (loanToValue.raw - basicLoanToValue.raw)) + (10 ^ 18 : ℕ) := by
    rcases le_total 0 (actual.mul (loanToValue - basicLoanToValue)).raw with nonneg | nonpos
    · rw [max_eq_right nonneg]
      linarith
    · rw [max_eq_left nonpos]
      nlinarith
  by_contra exceeds
  have exceeds' : loanToValue.raw - basicLoanToValue.raw + 500001 ≤ quotient.raw := by omega
  have grown : (loanToValue.raw - basicLoanToValue.raw + 500001) * catalytic.raw ≤ quotient.raw * catalytic.raw :=
    mul_le_mul_of_nonneg_right exceeds' (by omega)
  push_cast at capped' upper
  nlinarith

/-- A debt within the available ratio is below the threshold. -/
theorem below (owes : 0 < record.gridDebt.amount)
    (valuable : ((Dec.ofInt record.collateral.amount).mul price).isPositive) (ratio : available.raw ≤ loanToValue.raw + 500000)
    (within : Dec.ofInt record.gridDebt.amount ≤ ((Dec.ofInt record.collateral.amount).mul price).mul available) :
    BelowThreshold record price threshold := by
  obtain ⟨basicNonneg, ordered, gap, atMostOne, _⟩ := roomy.bounds
  set value := (Dec.ofInt record.collateral.amount).mul price
  have limit := (Dec.mul_raw_bounds value available).2
  have reach := (Dec.mul_raw_bounds value threshold).1
  have withinRaw : record.gridDebt.amount * (10 ^ 18 : ℕ) ≤ (value.mul available).raw := within
  have valuePos : 0 < value.raw := valuable
  have atRatio := mul_le_mul_of_nonneg_left ratio valuePos.le
  have atThreshold : value.raw * (loanToValue.raw + 10 ^ 9) ≤ value.raw * threshold.raw :=
    mul_le_mul_of_nonneg_left gap valuePos.le
  have ratioSmall : value.raw * (loanToValue.raw + 500000) ≤ value.raw * (2 * 10 ^ 18) :=
    mul_le_mul_of_nonneg_left (by omega) valuePos.le
  simp only [BelowThreshold, microUSMTarget, Dec.mul_one, Dec.lt_def]
  change record.gridDebt.amount * (10 ^ 18 : ℕ) < (value.mul threshold).raw
  simp only [Dec.precision] at limit reach
  push_cast at limit reach withinRaw ⊢
  -- a debt of at least one unit needs collateral worth a third of a unit, which the gap magnifies
  have worth : 10 ^ 17 ≤ value.raw := by nlinarith
  nlinarith

/-- The available ratio of `calculateMintByCollateral` stays within the rounding error. -/
theorem mintLoanToValue_le {ironValue value : Dec} (ok : mintLoanToValue params ironValue value = .ok available) :
    available.raw ≤ loanToValue.raw + 500000 := by
  have positive : catalytic.isPositive := by
    have := roomy.bounds.2.2.2.2
    simp only [Dec.isPositive]
    omega
  simp only [mintLoanToValue, roomy.catalyticIronRatio_eq, roomy.basicLoanToValue_eq, roomy.loanToValue_eq, deref,
    ok_bind, if_pos positive, ok_iffs] at ok
  obtain ⟨ratio, _, quotient, divided, rfl⟩ := ok
  exact roomy.available_le (Dec.min_le_right ratio catalytic) divided

end RoomyParams

/-- Two contexts at the same height and with the same prices. -/
def SameMarket (ctx other : Ctx) : Prop :=
  other.blockHeight = ctx.blockHeight ∧ other.exchangeRate = ctx.exchangeRate

/-- At this height and these prices every liquidation of the account is rejected as not undercollateralized. -/
def NotLiquidatable (ctx : Ctx) (state : State) (account : Address) (denom : Denom) : Prop :=
  ∀ (other : Ctx) (msg : MsgLiquidateCollateral), SameMarket ctx other → msg.debtor = account →
    msg.collateral.denom = denom → msg.validateBasic = .ok () →
    (Msg.liquidateCollateral msg).deliver other state = .error (.err errNotUndercollateralized "")

/-- What a liquidation looks at before it decides. -/
structure LiquidationView (ctx : Ctx) (store : Store) (account : Address) (denom : Denom)
    (params : CollateralRiskParams) (record : AccountCollateral) (price threshold : Dec) : Prop where
  available : store.getAvailableCollateralParams denom = .ok params
  settled : ∃ total pool, settledCollateral ctx store account denom false params = .ok (total, pool, record)
  priced : ctx.exchangeRate denom = some price
  limited : params.liquidationThreshold = some threshold

namespace LiquidationView

variable {ctx : Ctx} {state : State} {msg : MsgLiquidateCollateral} {params : CollateralRiskParams}
  {record : AccountCollateral} {price threshold : Dec}

theorem deliver_of_plan_error {fault : Fault} (valid : msg.validateBasic = .ok ())
    (failed : liquidateCollateralPlan ctx state msg = .error fault) :
    (Msg.liquidateCollateral msg).deliver ctx state = .error fault := by
  simp only [Msg.deliver, Msg.validateBasic, valid, Msg.handle_eq, Msg.planned, failed, ok_bind]
  rfl

variable (view : LiquidationView ctx state.store msg.debtor msg.collateral.denom params record price threshold)
include view

theorem deliver_of_below (below : BelowThreshold record price threshold) (valid : msg.validateBasic = .ok ()) :
    (Msg.liquidateCollateral msg).deliver ctx state = .error (.err errNotUndercollateralized "") := by
  obtain ⟨total, pool, settled⟩ := view.settled
  refine deliver_of_plan_error valid ?_
  rw [BelowThreshold] at below
  simp only [liquidateCollateralPlan, view.available, settled, Ctx.getExchangeRate, view.priced, view.limited,
    deref, ok_bind, require]
  rw [if_neg (not_not.mpr below), error_bind]

theorem deliver_of_insufficient (reached : ¬ BelowThreshold record price threshold)
    (short : record.collateral.amount < msg.collateral.amount) (valid : msg.validateBasic = .ok ()) :
    (Msg.liquidateCollateral msg).deliver ctx state = .error (.err errCollateralCoinInsufficient "") := by
  obtain ⟨total, pool, settled⟩ := view.settled
  refine deliver_of_plan_error valid ?_
  rw [BelowThreshold] at reached
  simp only [liquidateCollateralPlan, view.available, settled, Ctx.getExchangeRate, view.priced, view.limited,
    deref, ok_bind, require]
  rw [if_pos reached, ok_bind, if_neg (not_not.mpr short), error_bind]

end LiquidationView

private def seize (account : Address) (denom : Denom) (amount : ℤ) : MsgLiquidateCollateral :=
  ⟨account, none, account, ⟨denom, amount⟩, ⟨microUSMDenom, 1⟩⟩

private theorem seize_valid {amount : ℤ} (positive : 0 < amount) :
    (seize account denom amount).validateBasic = .ok () := by
  simp [MsgLiquidateCollateral.validateBasic, seize, requirePositive, requireDenom, positive]

/-- Without a record there is nothing to liquidate. -/
theorem settledCollateral_absent (foundTotal : store.totalCollateral = some total)
    (foundPool : store.poolCollateral.lookup denom = some pool)
    (absent : store.accountCollateral.lookup (account, denom) = none) :
    settledCollateral ctx store account denom false params =
      .error (.err errAccountNoCollateral s!"account has no collateral: {denom}") := by
  simp only [settledCollateral, Store.getCollateral, foundTotal, foundPool, absent, Store.found, ok_bind]
  rfl

/-- Where a record exists, whether a new account is allowed makes no difference. -/
theorem settledCollateral_present (present : store.accountCollateral.lookup (account, denom) = some record)
    (allowNew : Bool) :
    settledCollateral ctx store account denom allowNew params =
      settledCollateral ctx store account denom false params := by
  simp only [settledCollateral, Store.getCollateral, present, Option.some_or]

/-- An account that cannot be liquidated has a priced position below the threshold. -/
theorem NotLiquidatable.below {state : State} {allowNew : Bool} (safe : NotLiquidatable ctx state account denom)
    (available : state.store.getAvailableCollateralParams denom = .ok params)
    (settled : settledCollateral ctx state.store account denom allowNew params = .ok (total, pool, record))
    (limited : params.liquidationThreshold = some threshold) :
    ∃ price, ctx.exchangeRate denom = some price ∧ BelowThreshold record price threshold := by
  have rejected : ∀ amount, 0 < amount → (Msg.liquidateCollateral (seize account denom amount)).deliver ctx state =
      .error (.err errNotUndercollateralized "") :=
    fun amount positive => safe ctx (seize account denom amount) ⟨rfl, rfl⟩ rfl rfl (seize_valid positive)
  have settled' : settledCollateral ctx state.store account denom false params = .ok (total, pool, record) := by
    obtain ⟨_, _, _, _, base, -⟩ := settledCollateral_ok settled
    rcases base.record with present | ⟨absent, -⟩
    · rw [← settledCollateral_present present allowNew, settled]
    · exfalso
      have failed : liquidateCollateralPlan ctx state (seize account denom 1) =
          .error (.err errAccountNoCollateral s!"account has no collateral: {denom}") := by
        simp only [liquidateCollateralPlan, seize, available, settledCollateral_absent base.total base.pool absent,
          ok_bind, error_bind]
      have := (rejected 1 one_pos).symm.trans
        (LiquidationView.deliver_of_plan_error (seize_valid one_pos) failed)
      simp [errNotUndercollateralized, errAccountNoCollateral] at this
  cases priced : ctx.exchangeRate denom with
  | none =>
    exfalso
    have failed : liquidateCollateralPlan ctx state (seize account denom 1) =
        .error (.err errUnknownDenom denom) := by
      simp only [liquidateCollateralPlan, seize, available, settled', Ctx.getExchangeRate, priced, ok_bind, error_bind]
    have := (rejected 1 one_pos).symm.trans
      (LiquidationView.deliver_of_plan_error (seize_valid one_pos) failed)
    simp [errNotUndercollateralized, errUnknownDenom] at this
  | some price =>
    refine ⟨price, rfl, ?_⟩
    by_contra reached
    -- a seizure of more than there is passes the test and fails right after it
    have positive : 0 < max 0 record.collateral.amount + 1 := by omega
    have view : LiquidationView ctx state.store account denom params record price threshold :=
      ⟨available, ⟨total, pool, settled'⟩, priced, limited⟩
    have := (rejected _ positive).symm.trans (view.deliver_of_insufficient reached
      (show record.collateral.amount < max 0 record.collateral.amount + 1 by omega) (seize_valid positive))
    simp [errNotUndercollateralized, errCollateralCoinInsufficient] at this

namespace Rewritten

variable {ctx other : Ctx} {store next : Store} {account : Address} {denom : Denom}
  {params : CollateralRiskParams} {before after : AccountCollateral} {price threshold : Dec}

variable (rewritten : Rewritten ctx store next account denom params before after)
include rewritten

/-- At the same height a liquidation sees the record as it was written. -/
theorem view (keyed : Keyed store) (market : SameMarket ctx other) (priced : ctx.exchangeRate denom = some price)
    (limited : params.liquidationThreshold = some threshold) :
    LiquidationView other next account denom params after price threshold := by
  obtain ⟨allowNew, _, _, total', pool', settled, rfl, poolDenom⟩ := rewritten.written
  obtain ⟨interestFee, fee⟩ : ∃ interestFee, params.interestFee = some interestFee := by
    simp only [settledCollateral, bind_ok_iff, deref_ok_iff] at settled
    obtain ⟨_, _, interestFee, fee, _⟩ := settled
    exact ⟨interestFee, fee⟩
  obtain ⟨total, pool, record, interest, base, _, rfl, rfl, rfl⟩ := settledCollateral_ok settled
  have poolKey := (base.keys keyed).2.1
  have poolKey' : pool'.collateral.denom = denom := by
    rw [poolDenom, ← poolKey]
    rfl
  have height : other.blockHeight - after.lastSettlementBlock = 0 := by
    rw [rewritten.height_eq, market.1]
    exact sub_self _
  refine ⟨rewritten.available, ⟨total', pool', ?_⟩, by rw [market.2, priced], limited⟩
  simp only [settledCollateral, Store.getCollateral, setCollateral, Store.setTotalCollateral,
    Store.setPoolCollateral, Store.setAccountCollateral, rewritten.key keyed, poolKey', AList.lookup_insert, Store.found,
    Option.some_or, ok_bind, pure_bind, fee, deref, settleInterestFee]
  exact if_pos height

theorem notLiquidatable {bank : Bank} (keyed : Keyed store) (priced : ctx.exchangeRate denom = some price)
    (limited : params.liquidationThreshold = some threshold) (below : BelowThreshold after price threshold) :
    NotLiquidatable ctx ⟨next, bank⟩ account denom := by
  rintro other msg market rfl rfl valid
  exact (rewritten.view keyed market priced limited).deliver_of_below below valid

end Rewritten

/-- The account has a debt in this denomination. -/
def Indebted (store : Store) (account : Address) (denom : Denom) : Prop :=
  ∃ record, store.accountCollateral.lookup (account, denom) = some record ∧ 0 < record.gridDebt.amount

theorem Indebted.owes {next : Store} (indebted : Indebted next account denom)
    (rewritten : Rewritten ctx store next account denom params before after) (keyed : Keyed store) :
    0 < after.gridDebt.amount := by
  obtain ⟨record, found, owes⟩ := indebted
  cases (rewritten.lookup keyed).symm.trans found
  exact owes

section Healthy

variable {ctx : Ctx} {state next : State} {params : CollateralRiskParams}
  {threshold loanToValue basicLoanToValue catalytic : Dec}

/-- The enabled parameters are the registered ones. -/
theorem getAvailableCollateralParams_ok {found : CollateralRiskParams}
    (available : store.getAvailableCollateralParams denom = .ok found)
    (registered : store.collateralParams.lookup denom = some params) : found = params := by
  simp only [Store.getAvailableCollateralParams, ok_iffs, Store.found_ok_iff] at available
  obtain ⟨_, lookup, _, _, rfl⟩ := available
  exact Option.some.inj (lookup.symm.trans registered)

variable (roomy : RoomyParams params threshold loanToValue basicLoanToValue catalytic) (keyed : Keyed state.store)
include roomy keyed

theorem mintByCollateral_healthy {msg : MsgMintByCollateral}
    (registered : state.store.collateralParams.lookup msg.collateralDenom = some params)
    (ok : (Msg.mintByCollateral msg).deliver ctx state = .ok next)
    (indebted : Indebted next.store msg.sender msg.collateralDenom) :
    NotLiquidatable ctx next msg.sender msg.collateralDenom := by
  obtain ⟨valid, _, planned, -⟩ := Msg.deliver_ok ok
  obtain ⟨plan, planned, stored, -⟩ := by simpa [Msg.planned] using planned
  obtain ⟨_, before, after, price, _, ratio, rewritten, priced, valuable, available, within, _⟩ :=
    mintByCollateralPlan_rewritten planned valid
  obtain rfl := getAvailableCollateralParams_ok rewritten.available registered
  rw [stored] at rewritten
  have owes := indebted.owes rewritten keyed
  have covered : Dec.ofInt after.gridDebt.amount ≤ ((Dec.ofInt after.collateral.amount).mul price).mul ratio :=
    Dec.ofInt_le_of_le_truncateInt owes within
  exact rewritten.notLiquidatable keyed priced roomy.liquidationThreshold_eq
    (roomy.below owes valuable (roomy.mintLoanToValue_le available) covered)

theorem redeemCollateral_healthy {msg : MsgRedeemCollateral}
    (registered : state.store.collateralParams.lookup msg.collateralOut.denom = some params)
    (ok : (Msg.redeemCollateral msg).deliver ctx state = .ok next)
    (indebted : Indebted next.store msg.sender msg.collateralOut.denom) :
    NotLiquidatable ctx next msg.sender msg.collateralOut.denom := by
  obtain ⟨_, _, planned, -⟩ := Msg.deliver_ok ok
  obtain ⟨plan, planned, stored, -⟩ := by simpa [Msg.planned] using planned
  obtain ⟨_, before, after, ratio, maxDebt, rewritten, limit, within, _⟩ := redeemCollateralPlan_rewritten planned
  obtain rfl := getAvailableCollateralParams_ok rewritten.available registered
  rw [stored] at rewritten
  have owes := indebted.owes rewritten keyed
  simp only [maxLoanToValueForAccount, rewritten.key keyed, bind_ok_iff, Ctx.getExchangeRate_ok_iff]
    at limit
  obtain ⟨price, priced, _, _, limit⟩ := limit
  split at limit
  · next worthless =>
    -- no debt is within a limit of zero
    simp only [pure_ok_iff, Prod.mk.injEq] at limit
    obtain ⟨rfl, rfl⟩ := limit
    have : after.gridDebt.amount * (10 ^ 18 : ℕ) ≤ 0 := within
    omega
  · next valuable =>
    simp only [roomy.catalyticIronRatio_eq, roomy.basicLoanToValue_eq, roomy.loanToValue_eq, deref, ok_bind, ok_iffs,
      Prod.mk.injEq] at limit
    obtain ⟨actual, _, quotient, divided, rfl, rfl⟩ := limit
    rw [Dec.mul_comm (loanToValue - basicLoanToValue)] at divided
    have bounded := roomy.available_le (Dec.min_le_right actual catalytic) divided
    refine rewritten.notLiquidatable keyed priced roomy.liquidationThreshold_eq
      (roomy.below owes (not_not.mp valuable) ?_ within)
    rw [Dec.raw_add]
    omega

variable (positive : ∀ denom price, ctx.exchangeRate denom = some price → price.isPositive)
include positive

/-- More collateral or less debt keeps an account healthy. -/
theorem Rewritten.healthy {bank : Bank} {store : Store}
    (rewritten : Rewritten ctx state.store store account denom params before after)
    (collateral : before.collateral.amount ≤ after.collateral.amount)
    (debt : after.gridDebt.amount ≤ before.gridDebt.amount) (safe : NotLiquidatable ctx state account denom) :
    NotLiquidatable ctx ⟨store, bank⟩ account denom := by
  obtain ⟨_, _, _, _, _, settled, -⟩ := rewritten.written
  obtain ⟨price, priced, below⟩ := safe.below rewritten.available settled roomy.liquidationThreshold_eq
  have thresholdNonneg : 0 ≤ threshold.raw := by
    have := roomy.bounds
    omega
  exact rewritten.notLiquidatable keyed priced roomy.liquidationThreshold_eq
    (below.mono (positive _ _ priced) thresholdNonneg collateral debt)

theorem depositCollateral_healthy {msg : MsgDepositCollateral}
    (registered : state.store.collateralParams.lookup msg.collateralIn.denom = some params)
    (ok : (Msg.depositCollateral msg).deliver ctx state = .ok next)
    (safe : NotLiquidatable ctx state (msg.receiver.getD msg.sender) msg.collateralIn.denom) :
    NotLiquidatable ctx next (msg.receiver.getD msg.sender) msg.collateralIn.denom := by
  obtain ⟨valid, _, planned, -⟩ := Msg.deliver_ok ok
  obtain ⟨plan, planned, stored, -⟩ := by simpa [Msg.planned] using planned
  obtain ⟨_, _, _, _, _, nonneg, -⟩ := depositCollateralPlan_ok planned valid
  obtain ⟨_, before, after, rewritten, collateral, debt, _⟩ := depositCollateralPlan_rewritten planned
  obtain rfl := getAvailableCollateralParams_ok rewritten.available registered
  rw [stored] at rewritten
  exact rewritten.healthy roomy keyed positive (by omega) (by rw [debt]) safe

theorem burnByCollateral_healthy {msg : MsgBurnByCollateral}
    (registered : state.store.collateralParams.lookup msg.collateralDenom = some params)
    (ok : (Msg.burnByCollateral msg).deliver ctx state = .ok next)
    (safe : NotLiquidatable ctx state msg.sender msg.collateralDenom) :
    NotLiquidatable ctx next msg.sender msg.collateralDenom := by
  obtain ⟨_, _, planned, -⟩ := Msg.deliver_ok ok
  obtain ⟨plan, planned, stored, -⟩ := by simpa [Msg.planned] using planned
  obtain ⟨_, before, after, rewritten, collateral, debt, _⟩ := burnByCollateralPlan_rewritten planned
  obtain rfl := getAvailableCollateralParams_ok rewritten.available registered
  rw [stored] at rewritten
  exact rewritten.healthy roomy keyed positive (by rw [collateral]) debt safe

end Healthy

/-- In every reachable state, for collateral with roomy parameters and at positive prices: a mint or a redemption
that leaves a debt leaves an account no one can liquidate, and a deposit to or a repayment by an account that
cannot be liquidated leaves it so. -/
theorem borrowing_healthy (bank : Bank) (events : List Event) {ctx : Ctx} {denom : Denom} (account : Address)
    {params : CollateralRiskParams} {threshold loanToValue basicLoanToValue catalytic : Dec}
    (registered : (run bank events).store.collateralParams.lookup denom = some params)
    (roomy : RoomyParams params threshold loanToValue basicLoanToValue catalytic)
    (positive : ∀ denom price, ctx.exchangeRate denom = some price → price.isPositive) (next : State) :
    (∀ msg : MsgMintByCollateral, msg.sender = account → msg.collateralDenom = denom →
      (Msg.mintByCollateral msg).deliver ctx (run bank events) = .ok next → Indebted next.store account denom →
        NotLiquidatable ctx next account denom) ∧
    (∀ msg : MsgRedeemCollateral, msg.sender = account → msg.collateralOut.denom = denom →
      (Msg.redeemCollateral msg).deliver ctx (run bank events) = .ok next → Indebted next.store account denom →
        NotLiquidatable ctx next account denom) ∧
    (∀ msg : MsgDepositCollateral, msg.receiver.getD msg.sender = account → msg.collateralIn.denom = denom →
      (Msg.depositCollateral msg).deliver ctx (run bank events) = .ok next →
        NotLiquidatable ctx (run bank events) account denom → NotLiquidatable ctx next account denom) ∧
    ∀ msg : MsgBurnByCollateral, msg.sender = account → msg.collateralDenom = denom →
      (Msg.burnByCollateral msg).deliver ctx (run bank events) = .ok next →
        NotLiquidatable ctx (run bank events) account denom → NotLiquidatable ctx next account denom := by
  have keyed := (run_keyed_agreement bank events).1
  refine ⟨?_, ?_, ?_, ?_⟩
  · rintro msg rfl rfl success indebted
    exact mintByCollateral_healthy roomy keyed registered success indebted
  · rintro msg rfl rfl success indebted
    exact redeemCollateral_healthy roomy keyed registered success indebted
  · rintro msg rfl rfl success safe
    exact depositCollateral_healthy roomy keyed positive registered success safe
  · rintro msg rfl rfl success safe
    exact burnByCollateral_healthy roomy keyed positive registered success safe

/-- The default parameters leave room. -/
theorem sampleCollateral_roomy : RoomyParams sampleCollateral.withDefaults (Dec.withPrec 70 2)
    (Dec.withPrec 60 2) (Dec.withPrec 40 2) (Dec.withPrec 10 2) :=
  ⟨rfl, rfl, rfl, rfl, by rfl, by rfl, by decide, by decide⟩

/-- Borrowing 400 against the deposit of the sample run cannot be followed by a liquidation. -/
theorem borrowing_healthy_sample : ∃ next,
    (Msg.mintByCollateral ⟨1, none, "ucoll", ⟨"uusm", 400⟩⟩).deliver (sampleCtx 1)
        (run sampleBank (sampleEvents.take 2)) = .ok next ∧
      Indebted next.store 1 "ucoll" ∧ NotLiquidatable (sampleCtx 1) next 1 "ucoll" := by
  have minted : (fun next : State => (next.store.accountCollateral.lookup (1, "ucoll")).map (·.gridDebt.amount)) <$>
      (Msg.mintByCollateral ⟨1, none, "ucoll", ⟨"uusm", 400⟩⟩).deliver (sampleCtx 1)
        (run sampleBank (sampleEvents.take 2)) = .ok (some 400) := by decide +kernel
  obtain ⟨next, success, debt⟩ := map_ok_iff.mp minted
  obtain ⟨record, found, owed⟩ := Option.map_eq_some_iff.mp debt
  have indebted : Indebted next.store 1 "ucoll" := ⟨record, found, by omega⟩
  have registered : (run sampleBank (sampleEvents.take 2)).store.collateralParams.lookup "ucoll" =
      some sampleCollateral.withDefaults := by decide +kernel
  have positive : ∀ denom price, (sampleCtx 1).exchangeRate denom = some price → price.isPositive := by
    rintro denom price ⟨⟩
    decide
  exact ⟨next, success, indebted, (borrowing_healthy sampleBank (sampleEvents.take 2) 1 registered
    sampleCollateral_roomy positive next).1 _ rfl rfl success indebted⟩

end Rotofury.Soundness.Maker
