import Rotofury.Soundness.Maker.LedgerAgreement

/-! # How a collateral message rewrites an account

Every collateral message settles the interest of one record and writes the record back. `Rewritten` holds the
settled record and the written one; `DebtMove` says how the debt and the interest in it differ.
-/

namespace Rotofury.Soundness.Maker

open Model.Sdk Model.App Model.Maker Except

variable {ctx : Ctx} {state : State} {plan : Plan Coin}

/-- A message settled the account's record and wrote it back changed. -/
structure Rewritten (ctx : Ctx) (store next : Store) (account : Address) (denom : Denom)
    (params : CollateralRiskParams) (before after : AccountCollateral) : Prop where
  available : store.getAvailableCollateralParams denom = .ok params
  written : ∃ allowNew total pool total' pool',
    settledCollateral ctx store account denom allowNew params = .ok (total, pool, before) ∧
    next = setCollateral store account total' pool' after ∧ pool'.collateral.denom = pool.collateral.denom
  denom_eq : after.collateral.denom = before.collateral.denom
  height_eq : after.lastSettlementBlock = before.lastSettlementBlock

namespace Rewritten

variable {ctx : Ctx} {store next : Store} {account : Address} {denom : Denom}
  {params : CollateralRiskParams} {before after : AccountCollateral}

variable (rewritten : Rewritten ctx store next account denom params before after)
include rewritten

theorem key (keyed : Keyed store) : after.collateral.denom = denom := by
  obtain ⟨_, _, _, _, _, settled, -⟩ := rewritten.written
  obtain ⟨_, _, record, _, base, _, -, -, rfl⟩ := settledCollateral_ok settled
  rw [rewritten.denom_eq, ← (base.keys keyed).1]
  rfl

theorem lookup (keyed : Keyed store) : next.accountCollateral.lookup (account, denom) = some after := by
  obtain ⟨_, _, _, _, _, _, rfl, _⟩ := rewritten.written
  simp only [setCollateral, Store.setTotalCollateral, Store.setPoolCollateral, Store.setAccountCollateral,
    rewritten.key keyed, AList.lookup_insert]

end Rewritten

/-- The debt of a settled record grows, or it is repaid and the interest in it first. -/
inductive DebtMove (before after : AccountCollateral) : Prop
  | grow {added : ℤ} (nonneg : 0 ≤ added) (debt : after.gridDebt = before.gridDebt.addAmount added)
      (interest : after.lastInterest = before.lastInterest)
  | repay {repaid : ℤ} (nonneg : 0 ≤ repaid) (covered : repaid ≤ before.gridDebt.amount)
      (debt : after.gridDebt = before.gridDebt.addAmount (-repaid))
      (interest : after.lastInterest = before.lastInterest.addAmount (-min before.lastInterest.amount repaid))

/-- A message that does not touch the debt. -/
theorem DebtMove.none {before after : AccountCollateral} (debt : after.gridDebt = before.gridDebt)
    (interest : after.lastInterest = before.lastInterest) : DebtMove before after :=
  .grow le_rfl (by rw [debt, Coin.addAmount_zero]) interest

/-- A mint leaves the debt within the ratio available to the account. -/
theorem mintByCollateralPlan_rewritten {msg : MsgMintByCollateral}
    (ok : mintByCollateralPlan ctx state msg = .ok plan) (valid : msg.validateBasic = .ok ()) :
    ∃ params before after price ironValue available,
      Rewritten ctx state.store plan.store msg.sender msg.collateralDenom params before after ∧
      ctx.exchangeRate msg.collateralDenom = some price ∧
      ((Dec.ofInt after.collateral.amount).mul price).isPositive ∧
      mintLoanToValue params ironValue ((Dec.ofInt after.collateral.amount).mul price) = .ok available ∧
      after.gridDebt.amount ≤ (((Dec.ofInt after.collateral.amount).mul price).mul available).truncateInt ∧
      DebtMove before after := by
  simp only [MsgMintByCollateral.validateBasic, requirePositive, ok_iffs] at valid
  obtain ⟨_, _, positive⟩ := valid
  simp only [mintByCollateralPlan, calculateMintByCollateral, ok_iffs, Prod.exists, Prod.mk.injEq, Coin.add_ok_iff,
    Ctx.getExchangeRate_ok_iff, microUSMTarget, Dec.quo_one, Except.ok.injEq, exists_eq_left', not_lt] at ok
  obtain ⟨_, _, _, _, ⟨params, available, price, priced, _, _, _, _, _, found, _, fee, total, pool, record, settle, _,
    computed, _, ⟨_, rfl⟩, _, ⟨_, rfl⟩, _, ⟨_, rfl⟩, _, ⟨_, rfl⟩, _, _, _, valuable, _, ratio, _, within, rfl, rfl, rfl,
    rfl⟩, _, _, rfl⟩ := ok
  have settled : settledCollateral ctx state.store msg.sender msg.collateralDenom false params =
      .ok (total, pool, record) := by
    simp only [settledCollateral, found, fee, ok_bind, settle]
  refine ⟨params, record, _, price, _, _, ⟨available, ⟨false, total, pool, _, _, settled, rfl, rfl⟩, rfl, rfl⟩,
    priced, valuable, ratio, within, .grow ?_ rfl rfl⟩
  exact add_nonneg positive.le (computeFee_ok computed).2

theorem redeemCollateralPlan_rewritten {msg : MsgRedeemCollateral} {plan : Plan Unit}
    (ok : redeemCollateralPlan ctx state msg = .ok plan) :
    ∃ params before after available maxDebt,
      Rewritten ctx state.store plan.store msg.sender msg.collateralOut.denom params before after ∧
      maxLoanToValueForAccount ctx after params = .ok (available, maxDebt) ∧
      Dec.ofInt after.gridDebt.amount ≤ maxDebt ∧ DebtMove before after := by
  simp only [redeemCollateralPlan, ok_iffs, Prod.exists, Coin.sub_ok_iff, microUSMTarget, Dec.mul_one] at ok
  obtain ⟨params, available, total, pool, record, settled, _, ⟨_, _, rfl⟩, _, ⟨_, _, rfl⟩, _, ⟨_, _, rfl⟩, _,
    ⟨_, _, rfl⟩, _, ⟨_, _, rfl⟩, ratio, maxDebt, limit, _, within, rfl⟩ := ok
  exact ⟨params, record, _, ratio, maxDebt, ⟨available, ⟨false, total, pool, _, _, settled, rfl, rfl⟩, rfl, rfl⟩,
    limit, Int.not_lt.mp within, .none rfl rfl⟩

theorem depositCollateralPlan_rewritten {msg : MsgDepositCollateral} {plan : Plan Unit}
    (ok : depositCollateralPlan ctx state msg = .ok plan) :
    ∃ params before after,
      Rewritten ctx state.store plan.store (msg.receiver.getD msg.sender) msg.collateralIn.denom params before after ∧
      after.collateral.amount = before.collateral.amount + msg.collateralIn.amount ∧
      after.gridDebt = before.gridDebt ∧ DebtMove before after := by
  simp only [depositCollateralPlan, ok_iffs, Prod.exists, Coin.add_ok_iff] at ok
  obtain ⟨params, available, total, pool, record, settled, _, ⟨_, rfl⟩, _, ⟨_, rfl⟩, _, ⟨_, rfl⟩, _, ⟨_, rfl⟩, _,
    ⟨_, rfl⟩, _, _, rfl⟩ := ok
  exact ⟨params, record, _, ⟨available, ⟨true, total, pool, _, _, settled, rfl, rfl⟩, rfl, rfl⟩, rfl, rfl,
    .none rfl rfl⟩

theorem burnByCollateralPlan_rewritten {msg : MsgBurnByCollateral}
    (ok : burnByCollateralPlan ctx state msg = .ok plan) :
    ∃ params before after,
      Rewritten ctx state.store plan.store msg.sender msg.collateralDenom params before after ∧
      after.collateral = before.collateral ∧ after.gridDebt.amount ≤ before.gridDebt.amount ∧
      DebtMove before after := by
  simp only [burnByCollateralPlan, ok_iffs, Prod.exists, Coin.sub_ok_iff, newCoin_ok_iff] at ok
  obtain ⟨params, available, total, pool, record, settled, _, _, _, ⟨repays, rfl⟩, _, ⟨_, rfl⟩, _, _, _,
    ⟨_, _, rfl⟩, _, ⟨_, _, rfl⟩, _, ⟨_, _, rfl⟩, _, ⟨_, _, rfl⟩, rfl⟩ := ok
  refine ⟨params, record, _, ⟨available, ⟨false, total, pool, _, _, settled, rfl, rfl⟩, rfl, rfl⟩, rfl, ?_,
    .repay repays (min_le_left _ _) rfl rfl⟩
  simp only [Coin.addAmount_amount]
  omega

/-- A liquidation repays the debtor's debt like a repayment of their own, and refunds the rest. -/
theorem liquidateCollateralPlan_rewritten {msg : MsgLiquidateCollateral} {plan : Plan LiquidateCollateralResponse}
    (ok : liquidateCollateralPlan ctx state msg = .ok plan) :
    ∃ params price total pool before after commissionFee collateralOut repayIn burnt,
      settledCollateral ctx state.store msg.debtor msg.collateral.denom false params = .ok (total, pool, before) ∧
      Rewritten ctx state.store plan.store msg.debtor msg.collateral.denom params before after ∧ DebtMove before after ∧
      ctx.exchangeRate msg.collateral.denom = some price ∧
      liquidationAmounts ctx params price msg.collateral = .ok (commissionFee, collateralOut, repayIn) ∧
      0 ≤ burnt ∧ burnt ≤ repayIn.amount ∧ after.gridDebt.amount = before.gridDebt.amount - burnt ∧
      plan.ops =
        [.sendCoinsFromAccountToModule msg.sender .maker [repayIn], .burnCoins .maker [⟨microUSMDenom, burnt⟩]] ++
        whenPositive (repayIn.addAmount (-burnt))
          (.sendCoinsFromModuleToAccount .maker msg.debtor [repayIn.addAmount (-burnt)]) ++
        [.sendCoinsFromModuleToAccount .maker (msg.receiver.getD msg.sender) [collateralOut],
          .sendCoinsFromModuleToModule .maker .oracle [commissionFee]] := by
  simp only [liquidateCollateralPlan, ok_iffs, Prod.exists, Coin.sub_ok_iff, newCoin_ok_iff,
    Ctx.getExchangeRate_ok_iff] at ok
  obtain ⟨params, available, total, pool, record, settled, price, priced, _, _, _, _, _, _, commissionFee, collateralOut,
    repayIn, amounts, _, _, _, ⟨burns, rfl⟩, _, ⟨_, atMost, rfl⟩, _, ⟨_, rfl⟩, _, ⟨_, _, rfl⟩, _, ⟨_, _, rfl⟩, _,
    ⟨_, _, rfl⟩, _, ⟨_, _, rfl⟩, _, ⟨_, _, rfl⟩, _, ⟨_, _, rfl⟩, rfl⟩ := ok
  refine ⟨params, price, total, pool, record, _, commissionFee, collateralOut, repayIn, _, settled,
    ⟨available, ⟨false, total, pool, _, _, settled, rfl, rfl⟩, rfl, rfl⟩, .repay burns (min_le_left _ _) rfl rfl, priced,
    amounts, burns, atMost, ?_, rfl⟩
  exact (Int.sub_eq_add_neg).symm

end Rotofury.Soundness.Maker
