import Rotofury.Model.Maker.Calculate

/-! # Message handlers of the maker

In every handler all reads, checks and store writes precede the bank calls. A handler is therefore a
plan, the new store together with the bank calls to make, followed by the execution of these calls. A
message that fails anywhere leaves the state as it was.
-/

namespace Rotofury.Model.Maker

open Model.Sdk Model.App Except

/-- The outcome of a handler's checks: its response, the new store and the bank calls still to make. -/
structure Plan (ρ : Type) where
  response : ρ
  store : Store
  ops : List BankOp

/-- Carry out a plan. -/
def Plan.perform {ρ : Type} (state : State) (plan : Plan ρ) : Except Fault (ρ × State) := do
  let bank ← execOps state.bank plan.ops
  pure (plan.response, ⟨plan.store, bank⟩)

/-- A bank call made only when its coin is positive. -/
def whenPositive (coin : Coin) (op : BankOp) : List BankOp := if 0 < coin.amount then [op] else []

def requireNotLess (coin minimum : Coin) (fault : Fault) : Except Fault Unit := do
  let less ← coin.isLT minimum
  require (less = false) fault

structure MintBySwapResponse where
  backingIn : Coin
  ironIn : Coin
  mintOut : Coin
  mintFee : Coin
deriving DecidableEq, Repr

def mintBySwapPlan (ctx : Ctx) (state : State) (msg : MsgMintBySwap) :
    Except Fault (Plan MintBySwapResponse) := do
  let receiver := msg.receiver.getD msg.sender
  let (backingIn, ironIn, mintOut, mintFee) ←
    calculateMintBySwapOut ctx state msg.backingInMax msg.ironInMax msg.fullBacking
  let mintTotal ← mintOut.add mintFee
  requireNotLess mintOut msg.mintOutMin (.err errOverSlippage s!"mint out: {mintOut}")
  let (total, pool) ← state.store.getBacking msg.backingInMax.denom
  let pool := { pool with gridMinted := ← pool.gridMinted.add mintTotal }
  let pool := { pool with backing := ← pool.backing.add backingIn }
  let pool := { pool with ironBurned := ← pool.ironBurned.add ironIn }
  let total := { total with gridMinted := ← total.gridMinted.add mintTotal }
  let total := { total with ironBurned := ← total.ironBurned.add ironIn }
  pure {
    response := ⟨backingIn, ironIn, mintOut, mintFee⟩
    store := (state.store.setPoolBacking pool).setTotalBacking total
    ops :=
      [.sendCoinsFromAccountToModule msg.sender .maker [backingIn, ironIn]] ++
      whenPositive ironIn (.burnCoins .maker [ironIn]) ++
      [.mintCoins .maker [mintTotal], .sendCoinsFromModuleToAccount .maker receiver [mintOut]] ++
      whenPositive mintFee (.sendCoinsFromModuleToModule .maker .oracle [mintFee]) }

structure BurnBySwapResponse where
  burnFee : Coin
  backingOut : Coin
  ironOut : Coin
deriving DecidableEq, Repr

def burnBySwapPlan (ctx : Ctx) (state : State) (msg : MsgBurnBySwap) :
    Except Fault (Plan BurnBySwapResponse) := do
  let receiver := msg.receiver.getD msg.sender
  let (backingOut, ironOut, burnFee) ← calculateBurnBySwapOut ctx state msg.burnIn msg.backingOutMin.denom
  let burnActual ← msg.burnIn.sub burnFee
  requireNotLess backingOut msg.backingOutMin (.err errOverSlippage s!"backing out: {backingOut}")
  requireNotLess ironOut msg.ironOutMin (.err errOverSlippage s!"iron out: {ironOut}")
  let (total, pool) ← state.store.getBacking msg.backingOutMin.denom
  let pool := { pool with backing := ← pool.backing.sub backingOut }
  -- the iron and grid counters may become negative, which means minted iron and burned grid
  let pool := { pool with ironBurned := pool.ironBurned.addAmount (-ironOut.amount) }
  let total := { total with ironBurned := total.ironBurned.addAmount (-ironOut.amount) }
  let pool := { pool with gridMinted := pool.gridMinted.addAmount (-burnActual.amount) }
  let total := { total with gridMinted := total.gridMinted.addAmount (-burnActual.amount) }
  pure {
    response := ⟨burnFee, backingOut, ironOut⟩
    store := (state.store.setPoolBacking pool).setTotalBacking total
    ops := [
      .sendCoinsFromAccountToModule msg.sender .maker [msg.burnIn],
      .burnCoins .maker [burnActual],
      .sendCoinsFromModuleToModule .maker .oracle [burnFee],
      .mintCoins .maker [ironOut],
      .sendCoinsFromModuleToAccount .maker receiver [backingOut, ironOut]] }

structure BuyBackingResponse where
  backingOut : Coin
  buybackFee : Coin
deriving DecidableEq, Repr

def buyBackingPlan (ctx : Ctx) (state : State) (msg : MsgBuyBacking) :
    Except Fault (Plan BuyBackingResponse) := do
  let receiver := msg.receiver.getD msg.sender
  let (backingOut, buybackFee) ← calculateBuyBackingOut ctx state msg.ironIn msg.backingOutMin.denom
  requireNotLess backingOut msg.backingOutMin (.err errOverSlippage s!"backing out: {backingOut}")
  let (total, pool) ← state.store.getBacking msg.backingOutMin.denom
  let pool := { pool with backing := ← (← pool.backing.sub backingOut).sub buybackFee }
  let pool := { pool with ironBurned := ← pool.ironBurned.add msg.ironIn }
  let total := { total with ironBurned := ← total.ironBurned.add msg.ironIn }
  pure {
    response := ⟨backingOut, buybackFee⟩
    store := (state.store.setPoolBacking pool).setTotalBacking total
    ops := [
      .sendCoinsFromAccountToModule msg.sender .maker [msg.ironIn],
      .burnCoins .maker [msg.ironIn],
      .sendCoinsFromModuleToAccount .maker receiver [backingOut],
      .sendCoinsFromModuleToModule .maker .oracle [buybackFee]] }

structure SellBackingResponse where
  ironOut : Coin
  rebackFee : Coin
deriving DecidableEq, Repr

def sellBackingPlan (ctx : Ctx) (state : State) (msg : MsgSellBacking) :
    Except Fault (Plan SellBackingResponse) := do
  let receiver := msg.receiver.getD msg.sender
  let (ironOut, rebackFee) ← calculateSellBackingOut ctx state msg.backingIn
  let ironMint ← ironOut.add rebackFee
  requireNotLess ironOut msg.ironOutMin (.err errOverSlippage s!"iron out: {ironOut}")
  let (total, pool) ← state.store.getBacking msg.backingIn.denom
  let pool := { pool with backing := ← pool.backing.add msg.backingIn }
  -- the iron counter may become negative, which means minted iron
  let pool := { pool with ironBurned := pool.ironBurned.addAmount (-ironMint.amount) }
  let total := { total with ironBurned := total.ironBurned.addAmount (-ironMint.amount) }
  pure {
    response := ⟨ironOut, rebackFee⟩
    store := (state.store.setPoolBacking pool).setTotalBacking total
    ops := [
      .sendCoinsFromAccountToModule msg.sender .maker [msg.backingIn],
      .mintCoins .maker [ironMint],
      .sendCoinsFromModuleToAccount .maker receiver [ironOut],
      .sendCoinsFromModuleToModule .maker .oracle [rebackFee]] }

/-- Write the three collateral records back. -/
def setCollateral (store : Store) (account : Address) (total : TotalCollateral) (pool : PoolCollateral)
    (record : AccountCollateral) : Store :=
  ((store.setAccountCollateral account record).setPoolCollateral pool).setTotalCollateral total

def mintByCollateralPlan (ctx : Ctx) (state : State) (msg : MsgMintByCollateral) : Except Fault (Plan Coin) := do
  let receiver := msg.receiver.getD msg.sender
  let (mintFee, total, pool, record) ←
    calculateMintByCollateral ctx state.store msg.sender msg.collateralDenom msg.mintOut
  let mintTotal ← msg.mintOut.add mintFee
  pure {
    response := mintFee
    store := setCollateral state.store msg.sender total pool record
    ops :=
      [.mintCoins .maker [mintTotal], .sendCoinsFromModuleToAccount .maker receiver [msg.mintOut]] ++
      whenPositive mintFee (.sendCoinsFromModuleToModule .maker .oracle [mintFee]) }

/-- The records of an account with its interest settled. -/
def settledCollateral (ctx : Ctx) (store : Store) (account : Address) (collateralDenom : Denom)
    (allowNewAccount : Bool) (collateralParams : CollateralRiskParams) :
    Except Fault (TotalCollateral × PoolCollateral × AccountCollateral) := do
  let (total, pool, record) ← store.getCollateral ctx account collateralDenom allowNewAccount
  settleInterestFee ctx total pool record (← deref collateralParams.interestFee)

def burnByCollateralPlan (ctx : Ctx) (state : State) (msg : MsgBurnByCollateral) : Except Fault (Plan Coin) := do
  let collateralDenom := msg.collateralDenom
  let collateralParams ← state.store.getAvailableCollateralParams collateralDenom
  let (total, pool, record) ← settledCollateral ctx state.store msg.sender collateralDenom false collateralParams
  require (0 < record.gridDebt.amount)
    (.err errAccountNoDebt s!"account has no debt for {collateralDenom} collateral")
  -- interest is repaid first
  let repayIn ← newCoin msg.repayInMax.denom (min record.gridDebt.amount msg.repayInMax.amount)
  let repayInterest ← newCoin msg.repayInMax.denom (min record.lastInterest.amount repayIn.amount)
  let burn ← repayIn.sub repayInterest
  let record := { record with lastInterest := ← record.lastInterest.sub repayInterest }
  let record := { record with gridDebt := ← record.gridDebt.sub repayIn }
  let pool := { pool with gridDebt := ← pool.gridDebt.sub repayIn }
  let total := { total with gridDebt := ← total.gridDebt.sub repayIn }
  pure {
    response := repayIn
    store := setCollateral state.store msg.sender total pool record
    ops :=
      [.sendCoinsFromAccountToModule msg.sender .maker [repayIn]] ++
      whenPositive burn (.burnCoins .maker [burn]) ++
      whenPositive repayInterest (.sendCoinsFromModuleToModule .maker .oracle [repayInterest]) }

def depositCollateralPlan (ctx : Ctx) (state : State) (msg : MsgDepositCollateral) : Except Fault (Plan Unit) := do
  let collateralDenom := msg.collateralIn.denom
  let receiver := msg.receiver.getD msg.sender
  let collateralParams ← state.store.getAvailableCollateralParams collateralDenom
  let (total, pool, record) ← settledCollateral ctx state.store receiver collateralDenom true collateralParams
  let record := { record with collateral := ← record.collateral.add msg.collateralIn }
  let pool := { pool with collateral := ← pool.collateral.add msg.collateralIn }
  let record := { record with ironCollateralized := ← record.ironCollateralized.add msg.ironIn }
  let pool := { pool with ironCollateralized := ← pool.ironCollateralized.add msg.ironIn }
  let total := { total with ironCollateralized := ← total.ironCollateralized.add msg.ironIn }
  require (belowCeiling collateralParams.maxCollateral pool.collateral.amount)
    (.err errCollateralCeiling "")
  pure {
    response := ()
    store := setCollateral state.store receiver total pool record
    ops := [.sendCoinsFromAccountToModule msg.sender .maker [msg.collateralIn, msg.ironIn]] }

def redeemCollateralPlan (ctx : Ctx) (state : State) (msg : MsgRedeemCollateral) : Except Fault (Plan Unit) := do
  let collateralDenom := msg.collateralOut.denom
  let receiver := msg.receiver.getD msg.sender
  let collateralParams ← state.store.getAvailableCollateralParams collateralDenom
  let (total, pool, record) ← settledCollateral ctx state.store msg.sender collateralDenom false collateralParams
  let record := { record with collateral := ← record.collateral.sub msg.collateralOut }
  let pool := { pool with collateral := ← pool.collateral.sub msg.collateralOut }
  let record := { record with ironCollateralized := ← record.ironCollateralized.sub msg.ironOut }
  let pool := { pool with ironCollateralized := ← pool.ironCollateralized.sub msg.ironOut }
  let total := { total with ironCollateralized := ← total.ironCollateralized.sub msg.ironOut }
  let (_, maxDebtInUSD) ← maxLoanToValueForAccount ctx record collateralParams
  require (¬ maxDebtInUSD < (Dec.ofInt record.gridDebt.amount).mul microUSMTarget)
    (.err errAccountInsufficientCollateral s!"account collateral insufficient: {collateralDenom}")
  pure {
    response := ()
    store := setCollateral state.store msg.sender total pool record
    ops := [.sendCoinsFromModuleToAccount .maker receiver [msg.collateralOut, msg.ironOut]] }

structure LiquidateCollateralResponse where
  repayIn : Coin
  collateralOut : Coin
deriving DecidableEq, Repr

/-- `commissionFee`, `collateralOut` and `repayIn` of a liquidation. -/
def liquidationAmounts (ctx : Ctx) (collateralParams : CollateralRiskParams) (collateralPrice : Dec)
    (collateral : Coin) : Except Fault (Coin × Coin × Coin) := do
  let liquidationFee := (Dec.ofInt collateral.amount).mul (← deref collateralParams.liquidationFee)
  let commissionFee ← newCoin collateral.denom
    (liquidationFee.mul ctx.params.liquidationCommissionFee).truncateInt
  let collateralOut ← collateral.sub commissionFee
  let repayIn ← newCoin microUSMDenom
    (← ((Dec.ofInt collateral.amount - liquidationFee).mul collateralPrice).quo microUSMTarget).truncateInt
  pure (commissionFee, collateralOut, repayIn)

def liquidateCollateralPlan (ctx : Ctx) (state : State) (msg : MsgLiquidateCollateral) :
    Except Fault (Plan LiquidateCollateralResponse) := do
  let collateralDenom := msg.collateral.denom
  let receiver := msg.receiver.getD msg.sender
  let collateralParams ← state.store.getAvailableCollateralParams collateralDenom
  let (total, pool, record) ← settledCollateral ctx state.store msg.debtor collateralDenom false collateralParams
  let collateralPrice ← ctx.getExchangeRate collateralDenom
  let liquidationValue := ((Dec.ofInt record.collateral.amount).mul collateralPrice).mul
    (← deref collateralParams.liquidationThreshold)
  require (¬ (Dec.ofInt record.gridDebt.amount).mul microUSMTarget < liquidationValue)
    (.err errNotUndercollateralized "")
  require (¬ record.collateral.amount < msg.collateral.amount) (.err errCollateralCoinInsufficient "")
  let (commissionFee, collateralOut, repayIn) ←
    liquidationAmounts ctx collateralParams collateralPrice msg.collateral
  requireNotLess msg.repayInMax repayIn (.err errGridSlippage "")
  -- repay for the debtor as much as possible, interest first
  let repayDebt ← newCoin microUSMDenom (min record.gridDebt.amount repayIn.amount)
  let gridRefund ← repayIn.sub repayDebt
  let repayInterest ← newCoin microUSMDenom (min record.lastInterest.amount repayDebt.amount)
  let record := { record with lastInterest := ← record.lastInterest.sub repayInterest }
  let record := { record with gridDebt := ← record.gridDebt.sub repayDebt }
  let pool := { pool with gridDebt := ← pool.gridDebt.sub repayDebt }
  let total := { total with gridDebt := ← total.gridDebt.sub repayDebt }
  let record := { record with collateral := ← record.collateral.sub msg.collateral }
  let pool := { pool with collateral := ← pool.collateral.sub msg.collateral }
  pure {
    response := ⟨repayIn, collateralOut⟩
    store := setCollateral state.store msg.debtor total pool record
    ops :=
      [.sendCoinsFromAccountToModule msg.sender .maker [repayIn], .burnCoins .maker [repayDebt]] ++
      whenPositive gridRefund (.sendCoinsFromModuleToAccount .maker msg.debtor [gridRefund]) ++
      [.sendCoinsFromModuleToAccount .maker receiver [collateralOut],
        .sendCoinsFromModuleToModule .maker .oracle [commissionFee]] }

def mintBySwap (ctx : Ctx) (state : State) (msg : MsgMintBySwap) :
    Except Fault (MintBySwapResponse × State) := do
  (← mintBySwapPlan ctx state msg).perform state

def burnBySwap (ctx : Ctx) (state : State) (msg : MsgBurnBySwap) :
    Except Fault (BurnBySwapResponse × State) := do
  (← burnBySwapPlan ctx state msg).perform state

def buyBacking (ctx : Ctx) (state : State) (msg : MsgBuyBacking) :
    Except Fault (BuyBackingResponse × State) := do
  (← buyBackingPlan ctx state msg).perform state

def sellBacking (ctx : Ctx) (state : State) (msg : MsgSellBacking) :
    Except Fault (SellBackingResponse × State) := do
  (← sellBackingPlan ctx state msg).perform state

def mintByCollateral (ctx : Ctx) (state : State) (msg : MsgMintByCollateral) :
    Except Fault (Coin × State) := do
  (← mintByCollateralPlan ctx state msg).perform state

def burnByCollateral (ctx : Ctx) (state : State) (msg : MsgBurnByCollateral) :
    Except Fault (Coin × State) := do
  (← burnByCollateralPlan ctx state msg).perform state

def depositCollateral (ctx : Ctx) (state : State) (msg : MsgDepositCollateral) :
    Except Fault (Unit × State) := do
  (← depositCollateralPlan ctx state msg).perform state

def redeemCollateral (ctx : Ctx) (state : State) (msg : MsgRedeemCollateral) :
    Except Fault (Unit × State) := do
  (← redeemCollateralPlan ctx state msg).perform state

def liquidateCollateral (ctx : Ctx) (state : State) (msg : MsgLiquidateCollateral) :
    Except Fault (LiquidateCollateralResponse × State) := do
  (← liquidateCollateralPlan ctx state msg).perform state

namespace Msg

/-- The message server's dispatch; responses are dropped. -/
def handle (ctx : Ctx) (state : State) : Msg → Except Fault State
  | .mintBySwap msg => Prod.snd <$> Maker.mintBySwap ctx state msg
  | .burnBySwap msg => Prod.snd <$> Maker.burnBySwap ctx state msg
  | .buyBacking msg => Prod.snd <$> Maker.buyBacking ctx state msg
  | .sellBacking msg => Prod.snd <$> Maker.sellBacking ctx state msg
  | .mintByCollateral msg => Prod.snd <$> Maker.mintByCollateral ctx state msg
  | .burnByCollateral msg => Prod.snd <$> Maker.burnByCollateral ctx state msg
  | .depositCollateral msg => Prod.snd <$> Maker.depositCollateral ctx state msg
  | .redeemCollateral msg => Prod.snd <$> Maker.redeemCollateral ctx state msg
  | .liquidateCollateral msg => Prod.snd <$> Maker.liquidateCollateral ctx state msg

/-- The new store and the bank calls a message comes to. -/
def planned (ctx : Ctx) (state : State) : Msg → Except Fault (Store × List BankOp)
  | .mintBySwap msg => (fun plan => (plan.store, plan.ops)) <$> mintBySwapPlan ctx state msg
  | .burnBySwap msg => (fun plan => (plan.store, plan.ops)) <$> burnBySwapPlan ctx state msg
  | .buyBacking msg => (fun plan => (plan.store, plan.ops)) <$> buyBackingPlan ctx state msg
  | .sellBacking msg => (fun plan => (plan.store, plan.ops)) <$> sellBackingPlan ctx state msg
  | .mintByCollateral msg => (fun plan => (plan.store, plan.ops)) <$> mintByCollateralPlan ctx state msg
  | .burnByCollateral msg => (fun plan => (plan.store, plan.ops)) <$> burnByCollateralPlan ctx state msg
  | .depositCollateral msg => (fun plan => (plan.store, plan.ops)) <$> depositCollateralPlan ctx state msg
  | .redeemCollateral msg => (fun plan => (plan.store, plan.ops)) <$> redeemCollateralPlan ctx state msg
  | .liquidateCollateral msg => (fun plan => (plan.store, plan.ops)) <$> liquidateCollateralPlan ctx state msg

/-- Deliver a message: the stateless checks, then the handler. -/
def deliver (ctx : Ctx) (state : State) (msg : Msg) : Except Fault State := do
  msg.validateBasic
  msg.handle ctx state

private theorem perform_snd {ρ : Type} (state : State) (plan : Except Fault (Plan ρ)) :
    Prod.snd <$> (plan >>= fun plan => plan.perform state) =
      (do
        let (store, ops) ← (fun plan => (plan.store, plan.ops)) <$> plan
        let bank ← execOps state.bank ops
        pure (⟨store, bank⟩ : State)) := by
  cases plan with
  | error fault => rfl
  | ok plan =>
    simp only [ok_bind, Plan.perform, Functor.map, Except.map]
    cases execOps state.bank plan.ops <;> rfl

/-- A handler is its plan followed by the execution of the planned bank calls. -/
theorem handle_eq (ctx : Ctx) (state : State) (msg : Msg) :
    msg.handle ctx state = (do
      let (store, ops) ← msg.planned ctx state
      let bank ← execOps state.bank ops
      pure ⟨store, bank⟩) := by
  cases msg <;> exact perform_snd state _

/-- What a delivered message has been through. -/
theorem deliver_ok {ctx : Ctx} {state next : State} {msg : Msg} (ok : msg.deliver ctx state = .ok next) :
    msg.validateBasic = .ok () ∧ ∃ ops, msg.planned ctx state = .ok (next.store, ops) ∧
      execOps state.bank ops = .ok next.bank := by
  simp only [deliver, handle_eq, ok_iffs] at ok
  obtain ⟨_, valid, ⟨store, ops⟩, planned, bank, executed, rfl⟩ := ok
  exact ⟨valid, ops, planned, executed⟩

end Msg

end Rotofury.Model.Maker
