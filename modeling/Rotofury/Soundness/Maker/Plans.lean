import Rotofury.Model.Maker.Proposal

/-! # The plans of the maker's handlers

Each handler is taken apart once. A plan on the backing side moves one pool and the total by the same
amounts; a plan on the collateral side first settles the interest of one account and then moves the
account's record, its pool and the total by the same amounts. The bank calls are listed with the amounts
that occur in these moves. Everything later is derived from these lemmas and no longer looks into the
handlers.
-/

namespace Rotofury.Soundness.Maker

open Model.Sdk Model.App Model.Maker Except

variable {store : Store} {denom backingDenom : Denom} {ctx : Ctx} {state : State}
  {backingIn ironIn backingOut ironOut : Coin} {account : Address} {allowNew : Bool} {total total' : TotalCollateral}
  {pool pool' : PoolCollateral} {record record' : AccountCollateral} {params : CollateralRiskParams} {plan : Plan Coin}

/-- Changes of the counters on the backing side. -/
structure BackingDelta where
  gridMinted : ℤ
  backing : ℤ
  ironBurned : ℤ

def shiftPoolBacking (pool : PoolBacking) (delta : BackingDelta) : PoolBacking where
  gridMinted := pool.gridMinted.addAmount delta.gridMinted
  backing := pool.backing.addAmount delta.backing
  ironBurned := pool.ironBurned.addAmount delta.ironBurned

def shiftTotalBacking (total : TotalBacking) (delta : BackingDelta) : TotalBacking where
  gridMinted := total.gridMinted.addAmount delta.gridMinted
  ironBurned := total.ironBurned.addAmount delta.ironBurned

/-- One pool and the total moved by the same amounts. -/
def shiftBacking (store : Store) (total : TotalBacking) (pool : PoolBacking) (delta : BackingDelta) : Store :=
  (store.setPoolBacking (shiftPoolBacking pool delta)).setTotalBacking (shiftTotalBacking total delta)

/-- Changes of the counters on the collateral side. -/
structure CollateralDelta where
  collateral : ℤ
  gridDebt : ℤ
  ironCollateralized : ℤ
  lastInterest : ℤ

def shiftAccountCollateral (record : AccountCollateral) (delta : CollateralDelta) (height : ℤ) :
    AccountCollateral where
  account := record.account
  collateral := record.collateral.addAmount delta.collateral
  gridDebt := record.gridDebt.addAmount delta.gridDebt
  ironCollateralized := record.ironCollateralized.addAmount delta.ironCollateralized
  lastInterest := record.lastInterest.addAmount delta.lastInterest
  lastSettlementBlock := height

def shiftPoolCollateral (pool : PoolCollateral) (delta : CollateralDelta) : PoolCollateral where
  collateral := pool.collateral.addAmount delta.collateral
  gridDebt := pool.gridDebt.addAmount delta.gridDebt
  ironCollateralized := pool.ironCollateralized.addAmount delta.ironCollateralized

def shiftTotalCollateral (total : TotalCollateral) (delta : CollateralDelta) : TotalCollateral where
  gridDebt := total.gridDebt.addAmount delta.gridDebt
  ironCollateralized := total.ironCollateralized.addAmount delta.ironCollateralized

/-- One account's record, its pool and the total moved by the same amounts. -/
def shiftCollateral (store : Store) (account : Address) (height : ℤ) (total : TotalCollateral)
    (pool : PoolCollateral) (record : AccountCollateral) (delta : CollateralDelta) : Store :=
  setCollateral store account (shiftTotalCollateral total delta) (shiftPoolCollateral pool delta)
    (shiftAccountCollateral record delta height)

/-- The records a backing plan starts from. -/
structure BackingBase (store : Store) (denom : Denom) (total : TotalBacking) (pool : PoolBacking) : Prop where
  total : store.totalBacking = some total
  pool : store.poolBacking.lookup denom = some pool

/-- The records a collateral plan starts from; an account without a record starts from zeros. -/
structure CollateralBase (ctx : Ctx) (store : Store) (account : Address) (denom : Denom)
    (total : TotalCollateral) (pool : PoolCollateral) (record : AccountCollateral) : Prop where
  total : store.totalCollateral = some total
  pool : store.poolCollateral.lookup denom = some pool
  record : store.accountCollateral.lookup (account, denom) = some record ∨
    store.accountCollateral.lookup (account, denom) = none ∧
      record = Store.newAccountCollateral ctx account denom

theorem getBacking_ok {total : TotalBacking} {pool : PoolBacking}
    (ok : store.getBacking denom = .ok (total, pool)) : BackingBase store denom total pool := by
  simp only [Store.getBacking, ok_iffs, Store.found_ok_iff, Prod.mk.injEq] at ok
  obtain ⟨_, foundTotal, _, foundPool, rfl, rfl⟩ := ok
  exact ⟨foundTotal, foundPool⟩

private theorem calculateMintBySwapOut_denoms {backingInMax ironInMax : Coin} {full : Bool} {mintOut mintFee : Coin}
    (ok : calculateMintBySwapOut ctx state backingInMax ironInMax full =
      .ok (backingIn, ironIn, mintOut, mintFee)) :
    backingIn.denom = backingInMax.denom ∧ ironIn.denom = attoIronDenom ∧ mintOut.denom = microUSMDenom ∧
      mintFee.denom = microUSMDenom ∧ 0 ≤ mintFee.amount := by
  simp only [calculateMintBySwapOut, ok_iffs, Prod.exists, Prod.mk.injEq, newCoin_ok_iff, Coin.sub_ok_iff] at ok
  obtain ⟨_, _, _, _, _, _, _, _, _, _, _, _, _, _, _, ⟨_, rfl⟩, _, _, _, _, _, _, _, _, _, fee, computed, _,
    ⟨_, _, rfl⟩, rfl, rfl, rfl, rfl⟩ := ok
  obtain ⟨feeDenom, feeNonneg⟩ := computeFee_ok computed
  exact ⟨rfl, rfl, rfl, feeDenom, feeNonneg⟩

theorem mintBySwapPlan_ok {msg : MsgMintBySwap} {plan : Plan MintBySwapResponse}
    (ok : mintBySwapPlan ctx state msg = .ok plan) :
    ∃ total pool backingIn ironIn mintOut mintFee,
      BackingBase state.store msg.backingInMax.denom total pool ∧ 0 ≤ mintFee ∧
      plan.store = shiftBacking state.store total pool ⟨mintOut + mintFee, backingIn, ironIn⟩ ∧
      plan.ops =
        [.sendCoinsFromAccountToModule msg.sender .maker
          [⟨msg.backingInMax.denom, backingIn⟩, ⟨attoIronDenom, ironIn⟩]] ++
        whenPositive ⟨attoIronDenom, ironIn⟩ (.burnCoins .maker [⟨attoIronDenom, ironIn⟩]) ++
        [.mintCoins .maker [⟨microUSMDenom, mintOut + mintFee⟩],
          .sendCoinsFromModuleToAccount .maker (msg.receiver.getD msg.sender) [⟨microUSMDenom, mintOut⟩]] ++
        whenPositive ⟨microUSMDenom, mintFee⟩
          (.sendCoinsFromModuleToModule .maker .oracle [⟨microUSMDenom, mintFee⟩]) := by
  simp only [mintBySwapPlan, ok_iffs, Prod.exists, Coin.add_ok_iff] at ok
  obtain ⟨⟨_, backingIn⟩, ⟨_, ironIn⟩, ⟨_, mintOut⟩, ⟨_, mintFee⟩, calculated, _, ⟨_, rfl⟩, _, _, total, pool,
    base, _, ⟨_, rfl⟩, _, ⟨_, rfl⟩, _, ⟨_, rfl⟩, _, ⟨_, rfl⟩, _, ⟨_, rfl⟩, rfl⟩ := ok
  obtain ⟨rfl, rfl, rfl, rfl, feeNonneg⟩ := calculateMintBySwapOut_denoms calculated
  exact ⟨total, pool, backingIn, ironIn, mintOut, mintFee, getBacking_ok base, feeNonneg, rfl, rfl⟩

private theorem calculateBurnBySwapOut_denoms {burnIn burnFee : Coin}
    (ok : calculateBurnBySwapOut ctx state burnIn backingDenom = .ok (backingOut, ironOut, burnFee)) :
    backingOut.denom = backingDenom ∧ ironOut.denom = attoIronDenom ∧ burnFee.denom = burnIn.denom ∧
      0 ≤ burnFee.amount := by
  simp only [calculateBurnBySwapOut, ok_iffs, Prod.exists, Prod.mk.injEq] at ok
  obtain ⟨_, _, _, _, _, _, _, _, fee, computed, _, _, _, _, _, _, _, rfl, rfl, rfl⟩ := ok
  exact ⟨rfl, rfl, computeFee_ok computed⟩

theorem burnBySwapPlan_ok {msg : MsgBurnBySwap} {plan : Plan BurnBySwapResponse}
    (ok : burnBySwapPlan ctx state msg = .ok plan) (valid : msg.validateBasic = .ok ()) :
    ∃ total pool backingOut ironOut burnActual burnFee,
      BackingBase state.store msg.backingOutMin.denom total pool ∧ backingOut ≤ pool.backing.amount ∧
      0 ≤ burnFee ∧
      plan.store = shiftBacking state.store total pool ⟨-burnActual, -backingOut, -ironOut⟩ ∧
      plan.ops = [
        .sendCoinsFromAccountToModule msg.sender .maker [⟨microUSMDenom, burnActual + burnFee⟩],
        .burnCoins .maker [⟨microUSMDenom, burnActual⟩],
        .sendCoinsFromModuleToModule .maker .oracle [⟨microUSMDenom, burnFee⟩],
        .mintCoins .maker [⟨attoIronDenom, ironOut⟩],
        .sendCoinsFromModuleToAccount .maker (msg.receiver.getD msg.sender)
          [⟨msg.backingOutMin.denom, backingOut⟩, ⟨attoIronDenom, ironOut⟩]] := by
  simp only [MsgBurnBySwap.validateBasic, requireDenom, ok_iffs] at valid
  obtain ⟨_, burnDenom, -⟩ := valid
  simp only [burnBySwapPlan, ok_iffs, Prod.exists, Coin.sub_ok_iff] at ok
  obtain ⟨⟨_, backingOut⟩, ⟨_, ironOut⟩, ⟨_, burnFee⟩, calculated, _, ⟨_, _, rfl⟩, _, _, _, _, total, pool, base,
    _, ⟨_, enough, rfl⟩, rfl⟩ := ok
  obtain ⟨rfl, rfl, rfl, feeNonneg⟩ := calculateBurnBySwapOut_denoms calculated
  refine ⟨total, pool, backingOut, ironOut, msg.burnIn.amount - burnFee, burnFee, getBacking_ok base, enough,
    feeNonneg, ?_, ?_⟩
  · simp [shiftBacking, shiftPoolBacking, shiftTotalBacking, Int.sub_eq_add_neg]
  · simp [Coin.ext_iff, burnDenom, Int.sub_eq_add_neg]

private theorem calculateBuyBackingOut_denoms {buybackFee : Coin}
    (ok : calculateBuyBackingOut ctx state ironIn backingDenom = .ok (backingOut, buybackFee)) :
    backingOut.denom = backingDenom ∧ buybackFee.denom = backingDenom ∧ 0 ≤ buybackFee.amount := by
  simp only [calculateBuyBackingOut, ok_iffs, Prod.mk.injEq, newCoin_ok_iff, Coin.sub_ok_iff] at ok
  obtain ⟨_, _, _, _, _, _, _, _, _, _, _, _, _, ⟨_, rfl⟩, _, _, fee, computed, _, ⟨_, _, rfl⟩, rfl, rfl⟩ := ok
  exact ⟨rfl, computeFee_ok computed⟩

theorem buyBackingPlan_ok {msg : MsgBuyBacking} {plan : Plan BuyBackingResponse}
    (ok : buyBackingPlan ctx state msg = .ok plan) (valid : msg.validateBasic = .ok ()) :
    ∃ total pool ironIn backingOut buybackFee,
      BackingBase state.store msg.backingOutMin.denom total pool ∧
      backingOut + buybackFee ≤ pool.backing.amount ∧ 0 ≤ buybackFee ∧
      plan.store = shiftBacking state.store total pool ⟨0, -(backingOut + buybackFee), ironIn⟩ ∧
      plan.ops = [
        .sendCoinsFromAccountToModule msg.sender .maker [⟨attoIronDenom, ironIn⟩],
        .burnCoins .maker [⟨attoIronDenom, ironIn⟩],
        .sendCoinsFromModuleToAccount .maker (msg.receiver.getD msg.sender)
          [⟨msg.backingOutMin.denom, backingOut⟩],
        .sendCoinsFromModuleToModule .maker .oracle [⟨msg.backingOutMin.denom, buybackFee⟩]] := by
  simp only [MsgBuyBacking.validateBasic, requireDenom, ok_iffs] at valid
  obtain ⟨_, ironDenom, -⟩ := valid
  simp only [buyBackingPlan, ok_iffs, Prod.exists, Coin.sub_ok_iff, Coin.add_ok_iff] at ok
  obtain ⟨⟨_, backingOut⟩, ⟨_, buybackFee⟩, calculated, _, _, total, pool, base, _, ⟨_, _, rfl⟩, _,
    ⟨_, enough, rfl⟩, _, ⟨_, rfl⟩, _, ⟨_, rfl⟩, rfl⟩ := ok
  obtain ⟨rfl, rfl, feeNonneg⟩ := calculateBuyBackingOut_denoms calculated
  refine ⟨total, pool, msg.ironIn.amount, backingOut, buybackFee, getBacking_ok base, ?_, feeNonneg, ?_, ?_⟩
  · simp only [Coin.addAmount_amount] at enough
    omega
  · simp [shiftBacking, shiftPoolBacking, shiftTotalBacking, add_comm]
  · simp [Coin.ext_iff, ironDenom]

private theorem calculateSellBackingOut_denoms {rebackFee : Coin}
    (ok : calculateSellBackingOut ctx state backingIn = .ok (ironOut, rebackFee)) :
    ironOut.denom = attoIronDenom ∧ rebackFee.denom = attoIronDenom ∧ 0 ≤ rebackFee.amount := by
  simp only [calculateSellBackingOut, ok_iffs, Prod.exists, Prod.mk.injEq, newCoin_ok_iff, Coin.sub_ok_iff,
    Coin.add_ok_iff] at ok
  obtain ⟨_, _, _, _, _, _, _, _, _, _, _, _, _, _, _, _, _, _, _, _, ⟨_, rfl⟩, _, _, fee, computed, _, _, _,
    ⟨_, rfl⟩, _, ⟨_, _, rfl⟩, rfl, rfl⟩ := ok
  exact ⟨rfl, computeFee_ok computed⟩

theorem sellBackingPlan_ok {msg : MsgSellBacking} {plan : Plan SellBackingResponse}
    (ok : sellBackingPlan ctx state msg = .ok plan) :
    ∃ total pool ironOut rebackFee,
      BackingBase state.store msg.backingIn.denom total pool ∧ 0 ≤ rebackFee ∧
      plan.store = shiftBacking state.store total pool ⟨0, msg.backingIn.amount, -(ironOut + rebackFee)⟩ ∧
      plan.ops = [
        .sendCoinsFromAccountToModule msg.sender .maker [msg.backingIn],
        .mintCoins .maker [⟨attoIronDenom, ironOut + rebackFee⟩],
        .sendCoinsFromModuleToAccount .maker (msg.receiver.getD msg.sender) [⟨attoIronDenom, ironOut⟩],
        .sendCoinsFromModuleToModule .maker .oracle [⟨attoIronDenom, rebackFee⟩]] := by
  simp only [sellBackingPlan, ok_iffs, Prod.exists, Coin.add_ok_iff] at ok
  obtain ⟨⟨_, ironOut⟩, ⟨_, rebackFee⟩, calculated, _, ⟨_, rfl⟩, _, _, total, pool, base, _, ⟨_, rfl⟩, rfl⟩ := ok
  obtain ⟨rfl, rfl, feeNonneg⟩ := calculateSellBackingOut_denoms calculated
  refine ⟨total, pool, ironOut, rebackFee, getBacking_ok base, feeNonneg, ?_, rfl⟩
  simp [shiftBacking, shiftPoolBacking, shiftTotalBacking]

theorem getCollateral_ok (ok : store.getCollateral ctx account denom allowNew = .ok (total, pool, record)) :
    CollateralBase ctx store account denom total pool record := by
  simp only [Store.getCollateral, ok_iffs, Store.found_ok_iff, Prod.mk.injEq] at ok
  obtain ⟨_, foundTotal, _, foundPool, _, foundRecord, rfl, rfl, rfl⟩ := ok
  refine ⟨foundTotal, foundPool, ?_⟩
  rcases Option.or_eq_some_iff.mp foundRecord with present | ⟨absent, fresh⟩
  · exact .inl present
  · refine .inr ⟨absent, ?_⟩
    split at fresh
    · exact (Option.some.inj fresh).symm
    · cases fresh

/-- Settling moves the debts of the three records and the account's interest by one and the same amount;
settling again at the same height moves nothing. -/
theorem settleInterestFee_ok {apr : Dec}
    (ok : settleInterestFee ctx total pool record apr = .ok (total', pool', record')) :
    ∃ interest, (record.lastSettlementBlock = ctx.blockHeight → interest = 0) ∧
      total' = shiftTotalCollateral total ⟨0, interest, 0, interest⟩ ∧
      pool' = shiftPoolCollateral pool ⟨0, interest, 0, interest⟩ ∧
      record' = shiftAccountCollateral record ⟨0, interest, 0, interest⟩ ctx.blockHeight := by
  simp only [settleInterestFee] at ok
  split at ok
  · next same =>
    simp only [pure_ok_iff, Prod.mk.injEq] at ok
    obtain ⟨rfl, rfl, rfl⟩ := ok
    refine ⟨0, fun _ => rfl, ?_, ?_, ?_⟩
    · simp [shiftTotalCollateral]
    · simp [shiftPoolCollateral]
    · have height : ctx.blockHeight = record.lastSettlementBlock := by omega
      simp [shiftAccountCollateral, height]
  · next elapsed =>
    simp only [ok_iffs, Prod.mk.injEq] at ok
    obtain ⟨_, _, interest, _, rfl, rfl, rfl⟩ := ok
    refine ⟨interest.roundInt, fun same => absurd (by omega) elapsed, ?_, ?_, ?_⟩
    · simp [shiftTotalCollateral]
    · simp [shiftPoolCollateral]
    · simp [shiftAccountCollateral]

/-- The records after settling, from the records in the store. -/
theorem settledCollateral_ok
    (ok : settledCollateral ctx store account denom allowNew params = .ok (total', pool', record')) :
    ∃ total pool record interest, CollateralBase ctx store account denom total pool record ∧
      (record.lastSettlementBlock = ctx.blockHeight → interest = 0) ∧
      total' = shiftTotalCollateral total ⟨0, interest, 0, interest⟩ ∧
      pool' = shiftPoolCollateral pool ⟨0, interest, 0, interest⟩ ∧
      record' = shiftAccountCollateral record ⟨0, interest, 0, interest⟩ ctx.blockHeight := by
  simp only [settledCollateral, bind_ok_iff, Prod.exists] at ok
  obtain ⟨total, pool, record, found, _, _, settled⟩ := ok
  obtain ⟨interest, settledZero, rfl, rfl, rfl⟩ := settleInterestFee_ok settled
  exact ⟨total, pool, record, interest, getCollateral_ok found, settledZero, rfl, rfl, rfl⟩

/-- The records of a collateral plan, with the interest it settles first. -/
structure CollateralPlan (ctx : Ctx) (store next : Store) (account : Address) (denom : Denom)
    (total : TotalCollateral) (pool : PoolCollateral) (record : AccountCollateral) (interest : ℤ)
    (delta : CollateralDelta) : Prop where
  base : CollateralBase ctx store account denom total pool record
  settled : record.lastSettlementBlock = ctx.blockHeight → interest = 0
  shifted : next = shiftCollateral store account ctx.blockHeight total pool record
    ⟨delta.collateral, interest + delta.gridDebt, delta.ironCollateralized, interest + delta.lastInterest⟩

theorem mintByCollateralPlan_ok {msg : MsgMintByCollateral}
    (ok : mintByCollateralPlan ctx state msg = .ok plan) (valid : msg.validateBasic = .ok ()) :
    ∃ total pool record interest mintFee,
      CollateralPlan ctx state.store plan.store msg.sender msg.collateralDenom total pool record interest
        ⟨0, msg.mintOut.amount + mintFee, 0, 0⟩ ∧ 0 ≤ mintFee ∧
      plan.ops =
        [.mintCoins .maker [⟨microUSMDenom, msg.mintOut.amount + mintFee⟩],
          .sendCoinsFromModuleToAccount .maker (msg.receiver.getD msg.sender)
            [⟨microUSMDenom, msg.mintOut.amount⟩]] ++
        whenPositive ⟨microUSMDenom, mintFee⟩
          (.sendCoinsFromModuleToModule .maker .oracle [⟨microUSMDenom, mintFee⟩]) := by
  simp only [MsgMintByCollateral.validateBasic, requireDenom, ok_iffs] at valid
  obtain ⟨_, outDenom, -⟩ := valid
  simp only [mintByCollateralPlan, calculateMintByCollateral, ok_iffs, Prod.exists, Prod.mk.injEq, Coin.add_ok_iff] at ok
  obtain ⟨⟨_, mintFee⟩, _, _, _, ⟨params, _, _, _, _, _, total, pool, record, found, _, _, _, _, _, settle, _,
    computed, _, ⟨_, rfl⟩, _, ⟨_, rfl⟩, _, ⟨_, rfl⟩, _, ⟨_, rfl⟩, _, _, _, _, _, _, _, _, _, _, rfl, rfl, rfl,
    rfl⟩, _, ⟨_, rfl⟩, rfl⟩ := ok
  obtain ⟨rfl, feeNonneg⟩ := computeFee_ok computed
  obtain ⟨interest, settledZero, rfl, rfl, rfl⟩ := settleInterestFee_ok settle
  refine ⟨total, pool, record, interest, mintFee, ⟨getCollateral_ok found, settledZero, ?_⟩, feeNonneg, ?_⟩
  · simp [shiftCollateral, shiftAccountCollateral, shiftPoolCollateral, shiftTotalCollateral]
  · simp [Coin.addAmount, Coin.ext_iff, outDenom]

theorem burnByCollateralPlan_ok {msg : MsgBurnByCollateral}
    (ok : burnByCollateralPlan ctx state msg = .ok plan) (valid : msg.validateBasic = .ok ()) :
    ∃ total pool record interest repayIn repayInterest,
      CollateralPlan ctx state.store plan.store msg.sender msg.collateralDenom total pool record interest
        ⟨0, -repayIn, 0, -repayInterest⟩ ∧ 0 ≤ repayInterest ∧ repayInterest ≤ repayIn ∧
      plan.ops =
        [.sendCoinsFromAccountToModule msg.sender .maker [⟨microUSMDenom, repayIn⟩]] ++
        whenPositive ⟨microUSMDenom, repayIn - repayInterest⟩
          (.burnCoins .maker [⟨microUSMDenom, repayIn - repayInterest⟩]) ++
        whenPositive ⟨microUSMDenom, repayInterest⟩
          (.sendCoinsFromModuleToModule .maker .oracle [⟨microUSMDenom, repayInterest⟩]) := by
  simp only [MsgBurnByCollateral.validateBasic, requireDenom, ok_iffs] at valid
  obtain ⟨_, repayDenom, -⟩ := valid
  simp only [burnByCollateralPlan, ok_iffs, Prod.exists, Coin.sub_ok_iff, newCoin_ok_iff, repayDenom] at ok
  obtain ⟨params, _, _, _, _, settle, _, _, _, ⟨_, rfl⟩, _, ⟨interestNonneg, rfl⟩, _, ⟨_, atMost, rfl⟩, _,
    ⟨_, _, rfl⟩, _, ⟨_, _, rfl⟩, _, ⟨_, _, rfl⟩, _, ⟨_, _, rfl⟩, rfl⟩ := ok
  obtain ⟨total, pool, record, interest, base, settledZero, rfl, rfl, rfl⟩ := settledCollateral_ok settle
  refine ⟨total, pool, record, interest, _, _, ⟨base, settledZero, ?_⟩, interestNonneg, atMost, rfl⟩
  simp [shiftCollateral, shiftAccountCollateral, shiftPoolCollateral, shiftTotalCollateral]

theorem depositCollateralPlan_ok {msg : MsgDepositCollateral} {plan : Plan Unit}
    (ok : depositCollateralPlan ctx state msg = .ok plan) (valid : msg.validateBasic = .ok ()) :
    ∃ total pool record interest,
      CollateralPlan ctx state.store plan.store (msg.receiver.getD msg.sender) msg.collateralIn.denom total pool
        record interest ⟨msg.collateralIn.amount, 0, msg.ironIn.amount, 0⟩ ∧
      0 ≤ msg.collateralIn.amount ∧ 0 ≤ msg.ironIn.amount ∧
      plan.ops = [.sendCoinsFromAccountToModule msg.sender .maker
        [msg.collateralIn, ⟨attoIronDenom, msg.ironIn.amount⟩]] := by
  simp only [MsgDepositCollateral.validateBasic, requireDenom, requireNotNegative, ok_iffs] at valid
  obtain ⟨_, collateralNonneg, _, ironDenom, _, ironNonneg, -⟩ := valid
  simp only [depositCollateralPlan, ok_iffs, Prod.exists, Coin.add_ok_iff] at ok
  obtain ⟨params, _, _, _, _, settle, _, ⟨_, rfl⟩, _, ⟨_, rfl⟩, _, ⟨_, rfl⟩, _, ⟨_, rfl⟩, _, ⟨_, rfl⟩, _, _,
    rfl⟩ := ok
  obtain ⟨total, pool, record, interest, base, settledZero, rfl, rfl, rfl⟩ := settledCollateral_ok settle
  refine ⟨total, pool, record, interest, ⟨base, settledZero, ?_⟩, collateralNonneg, ironNonneg, ?_⟩
  · simp [shiftCollateral, shiftAccountCollateral, shiftPoolCollateral, shiftTotalCollateral]
  · simp [Coin.ext_iff, ironDenom]

theorem redeemCollateralPlan_ok {msg : MsgRedeemCollateral} {plan : Plan Unit}
    (ok : redeemCollateralPlan ctx state msg = .ok plan) (valid : msg.validateBasic = .ok ()) :
    ∃ total pool record interest,
      CollateralPlan ctx state.store plan.store msg.sender msg.collateralOut.denom total pool record interest
        ⟨-msg.collateralOut.amount, 0, -msg.ironOut.amount, 0⟩ ∧
      msg.collateralOut.amount ≤ pool.collateral.amount ∧ msg.ironOut.amount ≤ total.ironCollateralized.amount ∧
      plan.ops = [.sendCoinsFromModuleToAccount .maker (msg.receiver.getD msg.sender)
        [msg.collateralOut, ⟨attoIronDenom, msg.ironOut.amount⟩]] := by
  simp only [MsgRedeemCollateral.validateBasic, requireDenom, ok_iffs] at valid
  obtain ⟨_, _, _, ironDenom, -⟩ := valid
  simp only [redeemCollateralPlan, ok_iffs, Prod.exists, Coin.sub_ok_iff] at ok
  obtain ⟨params, _, _, _, _, settle, _, ⟨_, _, rfl⟩, _, ⟨_, poolEnough, rfl⟩, _, ⟨_, _, rfl⟩, _, ⟨_, _, rfl⟩, _,
    ⟨_, totalEnough, rfl⟩, _, _, _, _, _, rfl⟩ := ok
  obtain ⟨total, pool, record, interest, base, settledZero, rfl, rfl, rfl⟩ := settledCollateral_ok settle
  refine ⟨total, pool, record, interest, ⟨base, settledZero, ?_⟩, ?_, ?_, ?_⟩
  · simp [shiftCollateral, shiftAccountCollateral, shiftPoolCollateral, shiftTotalCollateral]
  · simpa [shiftPoolCollateral] using poolEnough
  · simpa [shiftTotalCollateral] using totalEnough
  · simp [Coin.ext_iff, ironDenom]

theorem liquidationAmounts_ok {price : Dec} {collateral commissionFee collateralOut repayIn : Coin}
    (ok : liquidationAmounts ctx params price collateral = .ok (commissionFee, collateralOut, repayIn)) :
    commissionFee.denom = collateral.denom ∧ 0 ≤ commissionFee.amount ∧
      collateralOut = collateral.addAmount (-commissionFee.amount) ∧ repayIn.denom = microUSMDenom := by
  simp only [liquidationAmounts, ok_iffs, Prod.mk.injEq, newCoin_ok_iff, Coin.sub_ok_iff] at ok
  obtain ⟨_, _, _, ⟨feeNonneg, rfl⟩, _, ⟨_, _, rfl⟩, _, _, _, ⟨_, rfl⟩, rfl, rfl, rfl⟩ := ok
  exact ⟨rfl, feeNonneg, rfl, rfl⟩

/-- What a liquidation computes before it writes: the debtor's settled record, the repayment for the seized
collateral, and the parts of it that go to the debt and, first, to the interest. -/
structure LiquidationQuote (ctx : Ctx) (store : Store) (msg : MsgLiquidateCollateral) (record : AccountCollateral)
    (repayIn repayDebt repayInterest : ℤ) : Prop where
  settled : ∃ params total pool, store.getAvailableCollateralParams msg.collateral.denom = .ok params ∧
    settledCollateral ctx store msg.debtor msg.collateral.denom false params = .ok (total, pool, record)
  priced : ∃ params price commissionFee collateralOut,
    store.getAvailableCollateralParams msg.collateral.denom = .ok params ∧
    ctx.exchangeRate msg.collateral.denom = some price ∧
    liquidationAmounts ctx params price msg.collateral =
      .ok (commissionFee, collateralOut, ⟨microUSMDenom, repayIn⟩)
  debt : repayDebt = min record.gridDebt.amount repayIn
  interest : repayInterest = min record.lastInterest.amount repayDebt
  interest_nonneg : 0 ≤ repayInterest

theorem liquidateCollateralPlan_ok {msg : MsgLiquidateCollateral} {plan : Plan LiquidateCollateralResponse}
    (ok : liquidateCollateralPlan ctx state msg = .ok plan) :
    ∃ total pool record interest repayDebt repayInterest gridRefund commissionFee,
      CollateralPlan ctx state.store plan.store msg.debtor msg.collateral.denom total pool record interest
        ⟨-msg.collateral.amount, -repayDebt, 0, -repayInterest⟩ ∧
      LiquidationQuote ctx state.store msg
        (shiftAccountCollateral record ⟨0, interest, 0, interest⟩ ctx.blockHeight)
        (repayDebt + gridRefund) repayDebt repayInterest ∧
      msg.collateral.amount ≤ pool.collateral.amount ∧ 0 ≤ gridRefund ∧ 0 ≤ commissionFee ∧
      plan.ops =
        [.sendCoinsFromAccountToModule msg.sender .maker [⟨microUSMDenom, repayDebt + gridRefund⟩],
          .burnCoins .maker [⟨microUSMDenom, repayDebt⟩]] ++
        whenPositive ⟨microUSMDenom, gridRefund⟩
          (.sendCoinsFromModuleToAccount .maker msg.debtor [⟨microUSMDenom, gridRefund⟩]) ++
        [.sendCoinsFromModuleToAccount .maker (msg.receiver.getD msg.sender)
            [⟨msg.collateral.denom, msg.collateral.amount - commissionFee⟩],
          .sendCoinsFromModuleToModule .maker .oracle [⟨msg.collateral.denom, commissionFee⟩]] := by
  simp only [liquidateCollateralPlan, ok_iffs, Prod.exists, Coin.sub_ok_iff, newCoin_ok_iff,
    Ctx.getExchangeRate_ok_iff] at ok
  obtain ⟨params, available, _, _, _, settle, price, priced, _, _, _, _, _, _, ⟨_, commissionFee⟩, _,
    ⟨_, repayIn⟩, amounts, _, _, _, ⟨_, rfl⟩, _, ⟨_, atMost, rfl⟩, _, ⟨interestNonneg, rfl⟩, _, ⟨_, _, rfl⟩, _,
    ⟨_, _, rfl⟩, _, ⟨_, _, rfl⟩, _, ⟨_, _, rfl⟩, _, ⟨_, _, rfl⟩, _, ⟨_, poolEnough, rfl⟩, rfl⟩ := ok
  obtain ⟨rfl, feeNonneg, rfl, rfl⟩ := liquidationAmounts_ok amounts
  obtain ⟨total, pool, record, interest, base, settledZero, rfl, rfl, rfl⟩ := settledCollateral_ok settle
  have refund : min (record.gridDebt.amount + interest) repayIn +
      (repayIn - min (record.gridDebt.amount + interest) repayIn) = repayIn := by omega
  refine ⟨total, pool, record, interest, _, _, repayIn - min (record.gridDebt.amount + interest) repayIn,
    commissionFee, ⟨base, settledZero, ?_⟩, ⟨⟨params, _, _, available, settle⟩,
      ⟨params, price, ⟨msg.collateral.denom, commissionFee⟩, msg.collateral.addAmount (-commissionFee), available,
        priced, ?_⟩, ?_, rfl, interestNonneg⟩, ?_, ?_, feeNonneg, ?_⟩
  · simp [shiftCollateral, shiftAccountCollateral, shiftPoolCollateral, shiftTotalCollateral]
  · simp only [shiftAccountCollateral, Coin.addAmount_amount, refund]
    exact amounts
  · simp only [shiftAccountCollateral, Coin.addAmount_amount, refund]
  · simpa [shiftPoolCollateral] using poolEnough
  · have := min_le_right (record.gridDebt.amount + interest) repayIn
    omega
  · simp [Coin.addAmount, shiftAccountCollateral, Int.sub_eq_add_neg]

end Rotofury.Soundness.Maker
