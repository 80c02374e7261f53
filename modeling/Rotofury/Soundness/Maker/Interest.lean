import Rotofury.Soundness.Maker.Payouts
import Rotofury.Soundness.Maker.Rewrites

/-! # Interest is part of the debt

Settling adds the interest of a period to the debt and remembers it; a repayment goes to the interest first. The
interest in a debt is therefore never negative and never exceeds the debt, at whatever heights and rates the
messages come. With the ledgers in agreement this makes every subtraction of a repayment safe.
-/

namespace Rotofury.Soundness.Maker

open Model.Sdk Model.App Model.Maker Except

variable {record before after : AccountCollateral} {interest height : ℤ} {store : Store} {ctx : Ctx} {account : Address}
  {denom : Denom} {allowNew : Bool} {params : CollateralRiskParams} {total : TotalCollateral} {pool : PoolCollateral}
  {state next : State} {event : Event} {price : Dec} {commissionFee collateralOut repayIn : Coin}

/-- The interest of a principal over a number of blocks. -/
def interestOf (principal : ℤ) (apr : Dec) (period : ℤ) : ℤ :=
  Math.roundHalfEven ((principal * apr.raw * period).tdiv blocksPerYear) Dec.precision

theorem interestOf_zero (principal : ℤ) (apr : Dec) : interestOf principal apr 0 = 0 := by
  rw [interestOf, mul_zero, Int.zero_tdiv]
  rfl

theorem interestOf_nonneg {principal : ℤ} {apr : Dec} {period : ℤ} (principalNonneg : 0 ≤ principal)
    (aprNonneg : 0 ≤ apr.raw) (periodNonneg : 0 ≤ period) : 0 ≤ interestOf principal apr period := by
  apply Math.roundHalfEven_nonneg
  exact Int.tdiv_nonneg (mul_nonneg (mul_nonneg principalNonneg aprNonneg) periodNonneg) (by decide)

/-- The interest of a record is part of its debt. -/
structure InterestWithin (record : AccountCollateral) : Prop where
  debt_denom : record.gridDebt.denom = microUSMDenom
  interest_denom : record.lastInterest.denom = microUSMDenom
  nonneg : 0 ≤ record.lastInterest.amount
  within : record.lastInterest.amount ≤ record.gridDebt.amount

/-- Settling a record whose interest is part of its debt never fails, and adds the interest of the period. -/
theorem settleInterestFee_of_within (ctx : Ctx) (total : TotalCollateral) (pool : PoolCollateral)
    (bounded : InterestWithin record) (apr : Dec)
    (accrued : interest = interestOf (record.gridDebt.amount - record.lastInterest.amount) apr
      (ctx.blockHeight - record.lastSettlementBlock)) :
    settleInterestFee ctx total pool record apr =
      .ok (shiftTotalCollateral total ⟨0, interest, 0, interest⟩, shiftPoolCollateral pool ⟨0, interest, 0, interest⟩,
        shiftAccountCollateral record ⟨0, interest, 0, interest⟩ ctx.blockHeight) := by
  unfold settleInterestFee
  dsimp only
  split
  · next same =>
    have height : ctx.blockHeight = record.lastSettlementBlock := by omega
    rw [same, interestOf_zero] at accrued
    subst accrued
    simp [shiftTotalCollateral, shiftPoolCollateral, shiftAccountCollateral, height]
  · have principal : record.gridDebt.sub record.lastInterest =
        .ok (record.gridDebt.addAmount (-record.lastInterest.amount)) :=
      Coin.sub_ok_iff.mpr ⟨bounded.debt_denom.trans bounded.interest_denom.symm, bounded.within, rfl⟩
    have rounded : Dec.roundInt ⟨(((Dec.ofInt (record.gridDebt.amount + -record.lastInterest.amount)).mul apr).mulInt
        (ctx.blockHeight - record.lastSettlementBlock)).raw.tdiv blocksPerYear⟩ = interest := by
      rw [accrued, Dec.roundInt, interestOf, Dec.mulInt, Dec.ofInt_mul, ← Int.sub_eq_add_neg]
    simp only [principal, ok_bind, Dec.quoInt, Coin.addAmount_amount]
    rw [if_neg (by decide), ok_bind, rounded]
    simp [shiftTotalCollateral, shiftPoolCollateral, shiftAccountCollateral, pure, Except.pure]

/-- Settling at a nonnegative rate keeps the interest within the debt. -/
theorem InterestWithin.settle (bounded : InterestWithin record) (nonneg : 0 ≤ interest) (height : ℤ) :
    InterestWithin (shiftAccountCollateral record ⟨0, interest, 0, interest⟩ height) where
  debt_denom := bounded.debt_denom
  interest_denom := bounded.interest_denom
  nonneg := add_nonneg bounded.nonneg nonneg
  within := Int.add_le_add_right bounded.within interest

/-- So does growing the debt, or repaying it with the interest first. -/
theorem InterestWithin.move (bounded : InterestWithin before) (moved : DebtMove before after) :
    InterestWithin after := by
  have nonneg := bounded.nonneg
  have within := bounded.within
  cases moved with
  | grow added debt interest =>
    refine ⟨by rw [debt]; exact bounded.debt_denom, by rw [interest]; exact bounded.interest_denom, ?_, ?_⟩
    · rw [interest]
      exact nonneg
    · rw [interest, debt, Coin.addAmount_amount]
      omega
  | repay repaidNonneg covered debt interest =>
    refine ⟨by rw [debt]; exact bounded.debt_denom, by rw [interest]; exact bounded.interest_denom, ?_, ?_⟩
    · rw [interest, Coin.addAmount_amount]
      omega
    · rw [interest, debt, Coin.addAmount_amount, Coin.addAmount_amount]
      omega

/-- What holds of the collateral records at a height in every run. -/
structure InterestBounded (height : ℤ) (store : Store) : Prop where
  account : ∀ owner denom record, store.accountCollateral.lookup (owner, denom) = some record →
    InterestWithin record ∧ record.lastSettlementBlock ≤ height
  rates : ∀ denom params, store.collateralParams.lookup denom = some params → ∀ rate ∈ params.interestFee, 0 ≤ rate.raw

theorem interestBounded_empty (height : ℤ) : InterestBounded height Store.empty := by
  constructor <;> simp [Store.empty]

theorem InterestBounded.wait {later : ℤ} (bounded : InterestBounded height store) (ordered : height ≤ later) :
    InterestBounded later store where
  account := fun owner denom record found =>
    ⟨(bounded.account owner denom record found).1, (bounded.account owner denom record found).2.trans ordered⟩
  rates := bounded.rates

/-- The record an account starts with has no debt. -/
theorem interestWithin_new (ctx : Ctx) (account : Address) (denom : Denom) :
    InterestWithin (Store.newAccountCollateral ctx account denom) := ⟨rfl, rfl, le_rfl, le_rfl⟩

/-- The settled record of an account is bounded again, at the height of the block. -/
theorem InterestBounded.settled (bounded : InterestBounded ctx.blockHeight store)
    (available : store.getAvailableCollateralParams denom = .ok params)
    (ok : settledCollateral ctx store account denom allowNew params = .ok (total, pool, record)) :
    InterestWithin record ∧ record.lastSettlementBlock = ctx.blockHeight := by
  simp only [settledCollateral, bind_ok_iff, Prod.exists, deref_ok_iff] at ok
  obtain ⟨total', pool', record', found, apr, fee, settled⟩ := ok
  have base := getCollateral_ok found
  obtain ⟨within, elapsed⟩ : InterestWithin record' ∧ record'.lastSettlementBlock ≤ ctx.blockHeight := by
    rcases base.record with stored | ⟨_, rfl⟩
    · exact bounded.account account denom record' stored
    · exact ⟨interestWithin_new ctx account denom, le_rfl⟩
  have aprNonneg : 0 ≤ apr.raw := by
    simp only [Store.getAvailableCollateralParams, ok_iffs, Store.found_ok_iff] at available
    obtain ⟨_, registered, _, _, rfl⟩ := available
    exact bounded.rates denom _ registered apr fee
  rw [settleInterestFee_of_within ctx total' pool' within apr rfl] at settled
  cases settled
  refine ⟨within.settle (interestOf_nonneg ?_ aprNonneg ?_) ctx.blockHeight, rfl⟩
  · exact sub_nonneg.mpr within.within
  · exact sub_nonneg.mpr elapsed

/-- A message leaves the accounts alone, or settles one record and moves its debt. -/
theorem planned_debtMove {msg : Msg} {ops : List BankOp} (planned : msg.planned ctx state = .ok (store, ops))
    (valid : msg.validateBasic = .ok ()) :
    store.accountCollateral = state.store.accountCollateral ∧ store.collateralParams = state.store.collateralParams ∨
      ∃ account denom params before after,
        Rewritten ctx state.store store account denom params before after ∧ DebtMove before after := by
  cases msg <;> obtain ⟨plan, ok, rfl, rfl⟩ := by simpa [Msg.planned] using planned
  case mintBySwap =>
    obtain ⟨_, _, _, _, _, _, _, _, stored, _⟩ := mintBySwapPlan_ok ok
    exact .inl (by rw [stored]; exact ⟨rfl, rfl⟩)
  case burnBySwap =>
    obtain ⟨_, _, _, _, _, _, _, _, _, stored, _⟩ := burnBySwapPlan_ok ok valid
    exact .inl (by rw [stored]; exact ⟨rfl, rfl⟩)
  case buyBacking =>
    obtain ⟨_, _, _, _, _, _, _, _, stored, _⟩ := buyBackingPlan_ok ok valid
    exact .inl (by rw [stored]; exact ⟨rfl, rfl⟩)
  case sellBacking =>
    obtain ⟨_, _, _, _, _, _, stored, _⟩ := sellBackingPlan_ok ok
    exact .inl (by rw [stored]; exact ⟨rfl, rfl⟩)
  case mintByCollateral =>
    obtain ⟨_, _, _, _, _, _, rewritten, -, -, -, -, moved⟩ := mintByCollateralPlan_rewritten ok valid
    exact .inr ⟨_, _, _, _, _, rewritten, moved⟩
  case burnByCollateral =>
    obtain ⟨_, _, _, rewritten, -, -, moved⟩ := burnByCollateralPlan_rewritten ok
    exact .inr ⟨_, _, _, _, _, rewritten, moved⟩
  case depositCollateral =>
    obtain ⟨_, _, _, rewritten, -, -, moved⟩ := depositCollateralPlan_rewritten ok
    exact .inr ⟨_, _, _, _, _, rewritten, moved⟩
  case redeemCollateral =>
    obtain ⟨_, _, _, _, _, rewritten, -, -, moved⟩ := redeemCollateralPlan_rewritten ok
    exact .inr ⟨_, _, _, _, _, rewritten, moved⟩
  case liquidateCollateral =>
    obtain ⟨_, _, _, _, _, _, _, _, _, _, _, rewritten, moved, -⟩ := liquidateCollateralPlan_rewritten ok
    exact .inr ⟨_, _, _, _, _, rewritten, moved⟩

/-- Writing back a settled record with its debt moved keeps every record bounded. -/
theorem InterestBounded.rewrite {next : Store} (bounded : InterestBounded ctx.blockHeight store)
    (rewritten : Rewritten ctx store next account denom params before after) (moved : DebtMove before after) :
    InterestBounded ctx.blockHeight next := by
  obtain ⟨_, _, _, _, _, settled, rfl, _⟩ := rewritten.written
  obtain ⟨within, height⟩ := bounded.settled rewritten.available settled
  refine ⟨fun owner query record found => ?_, bounded.rates⟩
  simp only [setCollateral, Store.setTotalCollateral, Store.setPoolCollateral, Store.setAccountCollateral,
    AList.lookup_insert_eq_ite] at found
  split at found
  · cases found
    exact ⟨within.move moved, (rewritten.height_eq.trans height).le⟩
  · exact bounded.account owner query record found

/-- Governance sets no negative interest rate. -/
def RateNonneg (event : Event) : Prop :=
  ∀ params, event.action = .setCollateralRiskParams params → ∀ rate ∈ params.interestFee, 0 ≤ rate.raw

/-- Writing parameters with a nonnegative rate keeps every rate nonnegative. -/
theorem InterestBounded.setRates (bounded : InterestBounded height store)
    (nonneg : ∀ rate ∈ params.interestFee, 0 ≤ rate.raw) :
    InterestBounded height (store.setCollateralRiskParams params) :=
  ⟨bounded.account, AList.forall_lookup_insert nonneg bounded.rates⟩

/-- A registered rate is the proposal's, which is checked, or the default. -/
theorem withDefaults_rate_nonneg (valid : params.validateBasic = .ok ()) :
    ∀ rate ∈ params.withDefaults.interestFee, 0 ≤ rate.raw := by
  simp only [CollateralRiskParams.validateBasic, requireRatio, requireLimit, ok_iffs] at valid
  obtain ⟨_, _, _, _, _, _, _, _, _, _, _, _, _, _, _, _, checked⟩ := valid
  intro rate member
  obtain rfl : params.interestFee.getD (Dec.withPrec 1 2) = rate := by simpa [CollateralRiskParams.withDefaults] using member
  cases given : params.interestFee with
  | none => decide
  | some fee =>
    exact not_lt.mp fun negative => checked fee given (.inl negative)

theorem step_interestBounded (ok : step state event = .ok next)
    (bounded : InterestBounded event.ctx.blockHeight state.store) (rate : RateNonneg event) :
    InterestBounded event.ctx.blockHeight next.store := by
  unfold step at ok
  split at ok
  · obtain ⟨valid, ops, planned, executed⟩ := Msg.deliver_ok ok
    rcases planned_debtMove planned valid with ⟨accounts, params⟩ | ⟨_, _, _, _, _, rewritten, moved⟩
    · exact ⟨by rw [accounts]; exact bounded.account, by rw [params]; exact bounded.rates⟩
    · exact bounded.rewrite rewritten moved
  · simp only [handleRegisterBackingProposal, ok_iffs] at ok
    obtain ⟨_, _, _, _, _, _, _, _, rfl⟩ := ok
    exact ⟨bounded.account, bounded.rates⟩
  · simp only [handleRegisterCollateralProposal, ok_iffs] at ok
    obtain ⟨_, valid, _, _, _, _, _, _, rfl⟩ := ok
    have written := bounded.setRates (withDefaults_rate_nonneg valid)
    exact ⟨written.account, written.rates⟩
  · simp only [pure_ok_iff] at ok
    subst ok
    exact ⟨bounded.account, bounded.rates⟩
  · simp only [ok_iffs] at ok
    obtain ⟨_, _, rfl⟩ := ok
    exact ⟨bounded.account, bounded.rates⟩
  · next params action =>
    simp only [ok_iffs] at ok
    obtain ⟨_, _, rfl⟩ := ok
    exact bounded.setRates (rate params action)

/-- Pools and total record their debts in the stablecoin. -/
structure StableDebts (store : Store) : Prop where
  pool : ∀ denom pool, store.poolCollateral.lookup denom = some pool → pool.gridDebt.denom = microUSMDenom
  total : ∀ total, store.totalCollateral = some total → total.gridDebt.denom = microUSMDenom

theorem StableDebts.setPool (stable : StableDebts store) (pool : PoolCollateral)
    (denom : pool.gridDebt.denom = microUSMDenom) : StableDebts (store.setPoolCollateral pool) :=
  ⟨AList.forall_lookup_insert denom stable.pool, stable.total⟩

theorem StableDebts.setTotal (stable : StableDebts store) (total : TotalCollateral)
    (denom : total.gridDebt.denom = microUSMDenom) : StableDebts (store.setTotalCollateral total) := by
  refine ⟨stable.pool, fun found stored => ?_⟩
  cases stored
  exact denom

theorem step_stableDebts (change : StepChange event state next) (stable : StableDebts state.store) :
    StableDebts next.store := by
  cases change with
  | backing _ _ effect _ =>
    obtain ⟨_, _, _, stored, _⟩ := effect.records
    rw [stored]
    exact ⟨stable.pool, stable.total⟩
  | @collateral _ _ _ _ delta _ _ _ effect _ =>
    obtain ⟨total, pool, record, base, stored, _⟩ := effect.records
    have written := (stable.setPool (shiftPoolCollateral pool delta) (stable.pool _ pool base.pool)).setTotal
      (shiftTotalCollateral total delta) (stable.total total base.total)
    rw [stored]
    exact ⟨written.pool, written.total⟩
  | registerBacking _ _ _ _ stored =>
    rw [stored]
    exact ⟨stable.pool, stable.total⟩
  | registerCollateral params _ _ _ stored =>
    have total : (state.store.totalCollateral.getD zeroTotalCollateral).gridDebt.denom = microUSMDenom := by
      cases found : state.store.totalCollateral with
      | none => rfl
      | some total => exact stable.total total found
    have written := (stable.setTotal _ total).setPool (zeroPoolCollateral params.collateralDenom) rfl
    rw [stored]
    exact ⟨written.pool, written.total⟩
  | tune _ _ same =>
    exact ⟨by rw [same.poolCollateral]; exact stable.pool, by rw [same.totalCollateral]; exact stable.total⟩

/-- The debt of a record is part of its pool's debt and of the total, and the interest part of it. -/
structure DebtCovered (total : TotalCollateral) (pool : PoolCollateral) (record : AccountCollateral) : Prop where
  interest : InterestWithin record
  pool_denom : pool.gridDebt.denom = microUSMDenom
  pool_covers : record.gridDebt.amount ≤ pool.gridDebt.amount
  total_denom : total.gridDebt.denom = microUSMDenom
  total_covers : record.gridDebt.amount ≤ total.gridDebt.amount

section Ledger

variable {height : ℤ} {store : Store} (bounded : InterestBounded height store) (agreement : Agreement store)
include bounded

private theorem account_debts_nonneg (denom : Denom) (key : Address × Denom) (record : AccountCollateral)
    (stored : store.accountCollateral.lookup key = some record) : 0 ≤ onDenom key.2 record.gridDebt.amount denom := by
  have within := (bounded.account key.1 key.2 record stored).1
  exact onDenom_nonneg key.2 (within.nonneg.trans within.within) denom

include agreement

private theorem pool_debt_nonneg (found : store.poolCollateral.lookup denom = some pool) :
    0 ≤ pool.gridDebt.amount := by
  have sum := agreement.poolDebt denom
  rw [AList.share_of_lookup found] at sum
  rw [sum]
  exact AList.total_nonneg (account_debts_nonneg bounded denom)

private theorem debt_le_share (stored : store.accountCollateral.lookup (account, denom) = some record) :
    record.gridDebt.amount ≤ store.poolCollateral.share (fun _ pool => pool.gridDebt.amount) denom := by
  rw [agreement.poolDebt denom]
  refine le_trans (le_of_eq ?_) (AList.share_le_total (account_debts_nonneg bounded denom) (account, denom))
  rw [AList.share_of_lookup stored, onDenom_self]

private theorem share_le_total (found : store.totalCollateral = some total) (denom : Denom) :
    store.poolCollateral.share (fun _ pool => pool.gridDebt.amount) denom ≤ total.gridDebt.amount := by
  have sum := agreement.gridDebt
  rw [found] at sum
  refine le_trans (AList.share_le_total ?_ denom) (le_of_eq sum.symm)
  exact fun _ _ stored => pool_debt_nonneg bounded agreement stored

theorem debt_le_pool (stored : store.accountCollateral.lookup (account, denom) = some record)
    (found : store.poolCollateral.lookup denom = some pool) : record.gridDebt.amount ≤ pool.gridDebt.amount := by
  have part := debt_le_share bounded agreement stored
  rwa [AList.share_of_lookup found] at part

theorem pool_le_total (found : store.poolCollateral.lookup denom = some pool)
    (recordedTotal : store.totalCollateral = some total) :
    pool.gridDebt.amount ≤ total.gridDebt.amount := by
  have part := share_le_total bounded agreement recordedTotal denom
  rwa [AList.share_of_lookup found] at part

theorem debt_le_total (stored : store.accountCollateral.lookup (account, denom) = some record)
    (found : store.totalCollateral = some total) : record.gridDebt.amount ≤ total.gridDebt.amount :=
  (debt_le_share bounded agreement stored).trans (share_le_total bounded agreement found denom)

/-- The settled records of an account are covered level by level. -/
theorem settled_covered (stable : StableDebts store) (now : height = ctx.blockHeight)
    (available : store.getAvailableCollateralParams denom = .ok params)
    (ok : settledCollateral ctx store account denom allowNew params = .ok (total, pool, record)) :
    DebtCovered total pool record := by
  subst now
  have within := (bounded.settled available ok).1
  obtain ⟨total', pool', record', interest, base, _, rfl, rfl, rfl⟩ := settledCollateral_ok ok
  have inPool : record'.gridDebt.amount ≤ pool'.gridDebt.amount := by
    rcases base.record with stored | ⟨_, rfl⟩
    · exact debt_le_pool bounded agreement stored base.pool
    · exact pool_debt_nonneg bounded agreement base.pool
  have inTotal := inPool.trans (pool_le_total bounded agreement base.pool base.total)
  exact {
    interest := within
    pool_denom := stable.pool denom pool' base.pool
    pool_covers := Int.add_le_add_right inPool interest
    total_denom := stable.total total' base.total
    total_covers := Int.add_le_add_right inTotal interest }

end Ledger

/-- Settling a stored or new record succeeds whenever its parameters have a rate. -/
theorem settledCollateral_succeeds {rate : Dec} (bounded : InterestBounded height store)
    (found : store.getCollateral ctx account denom allowNew = .ok (total, pool, record))
    (fee : params.interestFee = some rate) :
    ∃ settled, settledCollateral ctx store account denom allowNew params = .ok settled := by
  have within : InterestWithin record := by
    rcases (getCollateral_ok found).record with stored | ⟨_, rfl⟩
    · exact (bounded.account account denom record stored).1
    · exact interestWithin_new ctx account denom
  simp only [settledCollateral, found, ok_bind, fee, deref, settleInterestFee_of_within ctx total pool within rate rfl]
  exact ⟨_, rfl⟩

/-- A repayment by the account itself meets no failing subtraction. -/
theorem burnByCollateralPlan_succeeds {msg : MsgBurnByCollateral} (valid : msg.validateBasic = .ok ())
    (available : state.store.getAvailableCollateralParams msg.collateralDenom = .ok params)
    (settled : settledCollateral ctx state.store msg.sender msg.collateralDenom false params =
      .ok (total, pool, record)) (covered : DebtCovered total pool record) (owes : 0 < record.gridDebt.amount) :
    ∃ plan, burnByCollateralPlan ctx state msg = .ok plan := by
  simp only [MsgBurnByCollateral.validateBasic, requireDenom, requirePositive, ok_iffs] at valid
  obtain ⟨_, denom, positive⟩ := valid
  have nonneg := covered.interest.nonneg
  have repays : 0 ≤ min record.gridDebt.amount msg.repayInMax.amount := le_min owes.le positive.le
  have interestDenom := covered.interest.interest_denom.trans denom.symm
  have debtDenom := covered.interest.debt_denom.trans denom.symm
  simp only [burnByCollateralPlan, ok_iffs, Prod.exists, Coin.sub_ok_iff, newCoin_ok_iff]
  refine ⟨_, params, available, total, pool, record, settled, (), owes, _, ⟨repays, rfl⟩, _,
    ⟨le_min nonneg repays, rfl⟩, _, ⟨rfl, min_le_right _ _, rfl⟩, _, ⟨interestDenom, min_le_left _ _, rfl⟩, _,
    ⟨debtDenom, min_le_left _ _, rfl⟩, _,
    ⟨covered.pool_denom.trans denom.symm, ?_, rfl⟩, _, ⟨covered.total_denom.trans denom.symm, ?_, rfl⟩, rfl⟩
  · exact (min_le_left _ _).trans covered.pool_covers
  · exact (min_le_left _ _).trans covered.total_covers

/-- The checks of a liquidation that are not about debt or interest: the account is undercollateralized, account and
pool hold the collateral, and what is to be repaid for it stays within the liquidator's limit. -/
structure LiquidationAllowed (ctx : Ctx) (msg : MsgLiquidateCollateral) (params : CollateralRiskParams)
    (pool : PoolCollateral) (record : AccountCollateral) (price threshold : Dec)
    (commissionFee collateralOut repayIn : Coin) : Prop where
  quoted : ctx.getExchangeRate msg.collateral.denom = .ok price
  limit : deref params.liquidationThreshold = .ok threshold
  undercollateralized : ¬ (Dec.ofInt record.gridDebt.amount).mul microUSMTarget <
    ((Dec.ofInt record.collateral.amount).mul price).mul threshold
  owned : msg.collateral.amount ≤ record.collateral.amount
  pooled : msg.collateral.amount ≤ pool.collateral.amount
  priced : liquidationAmounts ctx params price msg.collateral = .ok (commissionFee, collateralOut, repayIn)
  affordable : repayIn.amount ≤ msg.repayInMax.amount

theorem liquidationAmounts_repays {collateral : Coin}
    (ok : liquidationAmounts ctx params price collateral = .ok (commissionFee, collateralOut, repayIn)) :
    repayIn.denom = microUSMDenom ∧ 0 ≤ repayIn.amount := by
  simp only [liquidationAmounts, ok_iffs, Prod.mk.injEq, newCoin_ok_iff] at ok
  obtain ⟨_, _, _, _, _, _, _, _, _, ⟨nonneg, rfl⟩, rfl, rfl, rfl⟩ := ok
  exact ⟨rfl, nonneg⟩

/-- Neither does a repayment by a liquidator. -/
theorem liquidateCollateralPlan_succeeds {msg : MsgLiquidateCollateral} {threshold : Dec}
    (valid : msg.validateBasic = .ok ()) (keyed : Keyed state.store)
    (available : state.store.getAvailableCollateralParams msg.collateral.denom = .ok params)
    (settled : settledCollateral ctx state.store msg.debtor msg.collateral.denom false params =
      .ok (total, pool, record)) (covered : DebtCovered total pool record)
    (allowed : LiquidationAllowed ctx msg params pool record price threshold commissionFee collateralOut repayIn) :
    ∃ plan, liquidateCollateralPlan ctx state msg = .ok plan := by
  simp only [MsgLiquidateCollateral.validateBasic, requireDenom, ok_iffs] at valid
  obtain ⟨_, _, _, limitDenom, -⟩ := valid
  obtain ⟨repayDenom, repayNonneg⟩ := liquidationAmounts_repays allowed.priced
  have keys : record.collateral.denom = msg.collateral.denom ∧ pool.collateral.denom = msg.collateral.denom := by
    obtain ⟨_, _, _, _, base, _, rfl, rfl, rfl⟩ := settledCollateral_ok settled
    exact ⟨(base.keys keyed).1, (base.keys keyed).2.1⟩
  have owes : 0 ≤ record.gridDebt.amount := covered.interest.nonneg.trans covered.interest.within
  have repays : 0 ≤ min record.gridDebt.amount repayIn.amount := le_min owes repayNonneg
  have interestRepays := le_min covered.interest.nonneg repays
  simp only [liquidateCollateralPlan, requireNotLess, ok_iffs, Prod.exists, Coin.sub_ok_iff, Coin.isLT_ok_iff,
    newCoin_ok_iff]
  refine ⟨_, params, available, total, pool, record, settled, price, allowed.quoted, threshold, allowed.limit, (),
    allowed.undercollateralized, (), not_lt.mpr allowed.owned, commissionFee, collateralOut, repayIn, allowed.priced,
    (), ⟨_, ⟨limitDenom.trans repayDenom.symm, rfl⟩, decide_eq_false (not_lt.mpr allowed.affordable)⟩, _,
    ⟨repays, rfl⟩, _, ⟨repayDenom, min_le_right _ _, rfl⟩, _, ⟨interestRepays, rfl⟩, _,
    ⟨covered.interest.interest_denom, min_le_left _ _, rfl⟩, _, ⟨covered.interest.debt_denom, min_le_left _ _, rfl⟩, _,
    ⟨covered.pool_denom, ?_, rfl⟩, _, ⟨covered.total_denom, ?_, rfl⟩, _, ⟨keys.1, allowed.owned, rfl⟩, _,
    ⟨keys.2, allowed.pooled, rfl⟩, rfl⟩
  · exact (min_le_left _ _).trans covered.pool_covers
  · exact (min_le_left _ _).trans covered.total_covers

/-- The invariants of the debts, at a height. -/
structure DebtsSound (height : ℤ) (store : Store) : Prop where
  bounded : InterestBounded height store
  stable : StableDebts store
  keyed : Keyed store
  agreement : Agreement store

/-- They hold after every run at heights that do not decrease. -/
theorem run_debtsSound (bank : Bank) {events : List Event}
    (ordered : events.Pairwise fun earlier later => earlier.ctx.blockHeight ≤ later.ctx.blockHeight)
    (rates : ∀ event ∈ events, RateNonneg event) (elapsed : ∀ event ∈ events, event.ctx.blockHeight ≤ height) :
    DebtsSound height (run bank events).store := by
  apply Machine.replay_ordered (fun event : Event => event.ctx.blockHeight)
    (fun height (state : State) => DebtsSound height state.store) RateNonneg ?waiting ?step ?start ordered rates elapsed
  case waiting =>
    intro now later state ordered sound
    exact { sound with bounded := sound.bounded.wait ordered }
  case step =>
    intro state event next sound rate ok
    have change := step_cases ok
    exact {
      bounded := step_interestBounded ok sound.bounded rate
      stable := step_stableDebts change sound.stable
      keyed := keyed_step change sound.keyed
      agreement := agreement_step change sound.keyed sound.agreement }
  case start =>
    intro now
    exact ⟨interestBounded_empty now, ⟨by simp [fresh, Store.empty], by simp [fresh, Store.empty]⟩, keyed_empty,
      agreement_empty⟩

/-- In every state a run reaches, interest is part of the debt, and the debt of an account part of its pool's debt and of
the total. At any later height the interest of a record can be settled, a debtor can repay, and a liquidator can repay
for them: no subtraction of debt or interest fails. -/
theorem interest_part_of_debt (bank : Bank) {events : List Event}
    (ordered : events.Pairwise fun earlier later => earlier.ctx.blockHeight ≤ later.ctx.blockHeight)
    (rates : ∀ event ∈ events, RateNonneg event) :
    let state := run bank events
    (∀ account denom record, state.store.accountCollateral.lookup (account, denom) = some record →
      (0 ≤ record.lastInterest.amount ∧ record.lastInterest.amount ≤ record.gridDebt.amount) ∧
      (∀ pool, state.store.poolCollateral.lookup denom = some pool →
        record.gridDebt.amount ≤ pool.gridDebt.amount) ∧
      ∀ total, state.store.totalCollateral = some total → record.gridDebt.amount ≤ total.gridDebt.amount) ∧
    ∀ ctx : Ctx, (∀ event ∈ events, event.ctx.blockHeight ≤ ctx.blockHeight) →
      (∀ account denom allowNew params rate total pool record,
        state.store.getCollateral ctx account denom allowNew = .ok (total, pool, record) →
        params.interestFee = some rate →
          ∃ settled, settledCollateral ctx state.store account denom allowNew params = .ok settled) ∧
      (∀ (msg : MsgBurnByCollateral) params total pool record, msg.validateBasic = .ok () →
        state.store.getAvailableCollateralParams msg.collateralDenom = .ok params →
        settledCollateral ctx state.store msg.sender msg.collateralDenom false params = .ok (total, pool, record) →
        0 < record.gridDebt.amount → ∃ plan, burnByCollateralPlan ctx state msg = .ok plan) ∧
      ∀ (msg : MsgLiquidateCollateral) params total pool record price threshold commissionFee collateralOut repayIn,
        msg.validateBasic = .ok () →
        state.store.getAvailableCollateralParams msg.collateral.denom = .ok params →
        settledCollateral ctx state.store msg.debtor msg.collateral.denom false params = .ok (total, pool, record) →
        LiquidationAllowed ctx msg params pool record price threshold commissionFee collateralOut repayIn →
          ∃ plan, liquidateCollateralPlan ctx state msg = .ok plan := by
  refine ⟨fun account denom record stored => ?_, fun ctx elapsed => ?_⟩
  · obtain ⟨height, elapsed⟩ : ∃ height, ∀ event ∈ events, event.ctx.blockHeight ≤ height := by
      obtain ⟨height, bound⟩ := (events.map fun event => event.ctx.blockHeight).toFinset.bddAbove
      exact ⟨height, fun event member => bound (by simpa using ⟨event, member, rfl⟩)⟩
    have sound := run_debtsSound bank ordered rates elapsed
    have within := (sound.bounded.account account denom record stored).1
    refine ⟨⟨within.nonneg, within.within⟩, fun pool found => ?_, fun total found => ?_⟩
    · exact debt_le_pool sound.bounded sound.agreement stored found
    · exact debt_le_total sound.bounded sound.agreement stored found
  · have sound := run_debtsSound bank ordered rates elapsed
    refine ⟨?_, ?_, ?_⟩
    · intro account denom allowNew params rate total pool record found fee
      exact settledCollateral_succeeds sound.bounded found fee
    · intro msg params total pool record valid available settled owes
      have covered := settled_covered sound.bounded sound.agreement sound.stable rfl available settled
      exact burnByCollateralPlan_succeeds valid available settled covered owes
    · intro msg params total pool record price threshold commissionFee collateralOut repayIn valid available settled allowed
      have covered := settled_covered sound.bounded sound.agreement sound.stable rfl available settled
      exact liquidateCollateralPlan_succeeds valid sound.keyed available settled covered allowed

/-- The last state of `sampleEvents` has debts, interest and a pool to compare. -/
theorem interest_part_of_debt_sample : ∃ record pool total,
    (run sampleBank sampleEvents).store.accountCollateral.lookup (1, "ucoll") = some record ∧
    (run sampleBank sampleEvents).store.poolCollateral.lookup "ucoll" = some pool ∧
    (run sampleBank sampleEvents).store.totalCollateral = some total ∧
    record.lastInterest.amount ≤ record.gridDebt.amount ∧ record.gridDebt.amount ≤ pool.gridDebt.amount ∧
    record.gridDebt.amount ≤ total.gridDebt.amount := by
  have ordered : sampleEvents.Pairwise fun earlier later => earlier.ctx.blockHeight ≤ later.ctx.blockHeight := by
    simp [sampleEvents, sampleCtx]
  have rates : ∀ event ∈ sampleEvents, RateNonneg event := by
    simp [sampleEvents, RateNonneg]
  obtain ⟨record, stored⟩ : ∃ record,
      (run sampleBank sampleEvents).store.accountCollateral.lookup (1, "ucoll") = some record :=
    Option.isSome_iff_exists.mp (by decide +kernel)
  obtain ⟨pool, pooled⟩ : ∃ pool, (run sampleBank sampleEvents).store.poolCollateral.lookup "ucoll" = some pool :=
    Option.isSome_iff_exists.mp (by decide +kernel)
  obtain ⟨total, totalled⟩ : ∃ total, (run sampleBank sampleEvents).store.totalCollateral = some total :=
    Option.isSome_iff_exists.mp (by decide +kernel)
  obtain ⟨⟨_, within⟩, inPool, inTotal⟩ := (interest_part_of_debt sampleBank ordered rates).1 1 "ucoll" record stored
  exact ⟨record, pool, total, stored, pooled, totalled, within, inPool pool pooled, inTotal total totalled⟩

end Rotofury.Soundness.Maker
