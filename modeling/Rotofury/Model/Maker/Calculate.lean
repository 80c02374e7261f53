import Rotofury.Model.Maker.Types

/-! # Amount calculation of the maker

Price bounds, fees, the excess backing value and the amounts each swap takes and pays, as the keeper
computes them from the store, the module's balance and the oracle's prices.
-/

namespace Rotofury.Model.Maker

open Model.Sdk Model.App Except

/-- The fee at an optional rate; no rate means no fee. -/
def computeFee (coin : Coin) (rate : Option Dec) : Except Fault Coin :=
  newCoin coin.denom (match rate with
    | some rate => ((Dec.ofInt coin.amount).mul rate).roundInt
    | none => 0)

theorem computeFee_ok {coin fee : Coin} {rate : Option Dec} (ok : computeFee coin rate = .ok fee) :
    fee.denom = coin.denom ∧ 0 ≤ fee.amount := by
  simp only [computeFee, newCoin_ok_iff] at ok
  obtain ⟨nonnegative, rfl⟩ := ok
  exact ⟨rfl, nonnegative⟩

def checkMintPriceLowerBound (ctx : Ctx) : Except Fault Unit := do
  let gridPrice ← ctx.getExchangeRate microUSMDenom
  let mintPriceLowerBound := microUSMTarget.mul (Dec.one + ctx.mintPriceBias)
  require (¬ gridPrice < mintPriceLowerBound)
    (.err errGridPriceTooLow s!"{microUSMDenom} price too low: {gridPrice}")

def checkBurnPriceUpperBound (ctx : Ctx) : Except Fault Unit := do
  let gridPrice ← ctx.getExchangeRate microUSMDenom
  let burnPriceUpperBound := microUSMTarget.mul (Dec.one - ctx.burnPriceBias)
  require (¬ burnPriceUpperBound < gridPrice)
    (.err errGridPriceTooHigh s!"{microUSMDenom} price too high: {gridPrice}")

/-- An unset ceiling admits every amount. -/
def belowCeiling (ceiling : Option ℤ) (amount : ℤ) : Prop := ∀ limit ∈ ceiling, amount ≤ limit

instance (ceiling : Option ℤ) (amount : ℤ) : Decidable (belowCeiling ceiling amount) :=
  inferInstanceAs (Decidable (∀ limit ∈ ceiling, amount ≤ limit))

def totalBackingInUSD (ctx : Ctx) (store : Store) : Except Fault ℤ := do
  let value ← store.getAllPoolBacking.foldlM (fun value pool => do
    let backingPrice ← ctx.getExchangeRate pool.backing.denom
    pure (value + (Dec.ofInt pool.backing.amount).mul backingPrice)) Dec.zero
  pure value.truncateInt

def getExcessBackingValue (ctx : Ctx) (store : Store) : Except Fault ℤ := do
  let totalBacking ← Store.found store.totalBacking errBackingCoinNotFound "total backing not found"
  let required := ((Dec.ofInt totalBacking.gridMinted.amount).mul store.getBackingRatio).ceil.truncateInt
  let requiredBackingValue := if required < 0 then 0 else required
  let totalBackingValue ← totalBackingInUSD ctx store
  pure (totalBackingValue - requiredBackingValue)

/-- A positive maximum caps the computed input. -/
def capInput (inMax computed : Coin) : Except Fault ℤ :=
  if 0 < inMax.amount then do
    let exceeded ← inMax.isLT computed
    pure (if exceeded then inMax.amount else computed.amount)
  else pure computed.amount

/-- `backingIn`, `ironIn` and the minted value of a swap, before rounding the latter to coins. -/
def mintBySwapInputs (backingRatio backingPrice ironPrice : Dec) (backingInMax ironInMax : Coin)
    (fullBacking : Bool) : Except Fault (ℤ × ℤ × Dec) := do
  let backingInMaxInUSD := backingPrice.mulInt backingInMax.amount
  let ironInMaxInUSD := ironPrice.mulInt ironInMax.amount
  if Dec.one ≤ backingRatio ∨ fullBacking = true then
    pure (backingInMax.amount, 0, backingInMaxInUSD)
  else if backingRatio.isZero then
    pure (0, ironInMax.amount, ironInMaxInUSD)
  else
    let max1 ← backingInMaxInUSD.quo backingRatio
    let max2 ← ironInMaxInUSD.quo (Dec.one - backingRatio)
    if 0 < backingInMax.amount ∧ (ironInMax.amount = 0 ∨ max1 ≤ max2) then
      let ironIn := (← (max1.mul (Dec.one - backingRatio)).quoRoundUp ironPrice).roundInt
      pure (backingInMax.amount, ← capInput ironInMax ⟨attoIronDenom, ironIn⟩, max1)
    else
      let backingIn := (← (max2.mul backingRatio).quoRoundUp backingPrice).roundInt
      pure (← capInput backingInMax ⟨backingInMax.denom, backingIn⟩, ironInMax.amount, max2)

/-- Returns `backingIn`, `ironIn`, `mintOut` and `mintFee`. -/
def calculateMintBySwapOut (ctx : Ctx) (state : State) (backingInMax ironInMax : Coin) (fullBacking : Bool) :
    Except Fault (Coin × Coin × Coin × Coin) := do
  let backingDenom := backingInMax.denom
  checkMintPriceLowerBound ctx
  let backingParams ← state.store.getAvailableBackingParams backingDenom
  let backingPrice ← ctx.getExchangeRate backingDenom
  let ironPrice ← ctx.getExchangeRate attoIronDenom
  let (backingInAmount, ironInAmount, mintTotalInUSD) ← mintBySwapInputs state.store.getBackingRatio
    backingPrice ironPrice backingInMax ironInMax fullBacking
  let backingIn : Coin := ⟨backingDenom, backingInAmount⟩
  let ironIn : Coin := ⟨attoIronDenom, ironInAmount⟩
  let mintTotal ← newCoin microUSMDenom (← mintTotalInUSD.quo microUSMTarget).truncateInt
  let (_, poolBacking) ← state.store.getBacking backingDenom
  require (belowCeiling backingParams.maxGridMint (poolBacking.gridMinted.amount + mintTotal.amount))
    (.err errGridCeiling "")
  let backing ← poolBacking.backing.add backingIn
  require (belowCeiling backingParams.maxBacking backing.amount) (.err errBackingCeiling "")
  let mintFee ← computeFee mintTotal backingParams.mintFee
  let mintOut ← mintTotal.sub mintFee
  pure (backingIn, ironIn, mintOut, mintFee)

/-- The backing a pool can pay: no more than it records and no more than the module holds. -/
def requirePoolBacking (state : State) (backingDenom : Denom) (backingOut : Coin) : Except Fault Unit := do
  let (_, poolBacking) ← state.store.getBacking backingDenom
  let moduleOwnedBacking : ℤ := state.bank.balance ModuleAccount.maker.address backingDenom
  let poolBackingBalance ← newCoin backingDenom (min poolBacking.backing.amount moduleOwnedBacking)
  let short ← poolBackingBalance.isLT backingOut
  require (short = false) (.err errBackingCoinInsufficient
    s!"backing coin out({backingOut}) > balance({poolBackingBalance})")

/-- `backingOut` and `ironOut` of a swap. -/
def burnBySwapOutputs (backingRatio backingPrice ironPrice burnActualInUSD : Dec) : Except Fault (ℤ × ℤ) := do
  if Dec.one ≤ backingRatio then
    pure ((← burnActualInUSD.quoTruncate backingPrice).truncateInt, 0)
  else if backingRatio.isZero then
    pure (0, (← burnActualInUSD.quoTruncate ironPrice).truncateInt)
  else
    let backingOut ← (burnActualInUSD.mul backingRatio).quoTruncate backingPrice
    let ironOut ← (burnActualInUSD.mul (Dec.one - backingRatio)).quoTruncate ironPrice
    pure (backingOut.truncateInt, ironOut.truncateInt)

/-- Returns `backingOut`, `ironOut` and `burnFee`. -/
def calculateBurnBySwapOut (ctx : Ctx) (state : State) (burnIn : Coin) (backingDenom : Denom) :
    Except Fault (Coin × Coin × Coin) := do
  checkBurnPriceUpperBound ctx
  let backingParams ← state.store.getAvailableBackingParams backingDenom
  let backingPrice ← ctx.getExchangeRate backingDenom
  let ironPrice ← ctx.getExchangeRate attoIronDenom
  let burnFee ← computeFee burnIn backingParams.burnFee
  let burnActual ← burnIn.sub burnFee
  let burnActualInUSD := (Dec.ofInt burnActual.amount).mul microUSMTarget
  let (backingOutAmount, ironOutAmount) ←
    burnBySwapOutputs state.store.getBackingRatio backingPrice ironPrice burnActualInUSD
  let backingOut : Coin := ⟨backingDenom, backingOutAmount⟩
  requirePoolBacking state backingDenom backingOut
  pure (backingOut, ⟨attoIronDenom, ironOutAmount⟩, burnFee)

/-- Returns `backingOut` and `buybackFee`. -/
def calculateBuyBackingOut (ctx : Ctx) (state : State) (ironIn : Coin) (backingDenom : Denom) :
    Except Fault (Coin × Coin) := do
  let backingParams ← state.store.getAvailableBackingParams backingDenom
  let backingPrice ← ctx.getExchangeRate backingDenom
  let ironPrice ← ctx.getExchangeRate attoIronDenom
  let excessBackingValue ← getExcessBackingValue ctx state.store
  let ironInValue := (Dec.ofInt ironIn.amount).mul ironPrice
  require (¬ Dec.ofInt excessBackingValue < ironInValue) (.err errBackingCoinInsufficient "")
  let backingOutTotal ← newCoin backingDenom (← ironInValue.quo backingPrice).truncateInt
  requirePoolBacking state backingDenom backingOutTotal
  let buybackFee ← computeFee backingOutTotal backingParams.buybackFee
  let backingOut ← backingOutTotal.sub buybackFee
  pure (backingOut, buybackFee)

/-- Returns `ironOut` and `rebackFee`. -/
def calculateSellBackingOut (ctx : Ctx) (state : State) (backingIn : Coin) : Except Fault (Coin × Coin) := do
  let backingDenom := backingIn.denom
  let backingParams ← state.store.getAvailableBackingParams backingDenom
  let backingPrice ← ctx.getExchangeRate backingDenom
  let ironPrice ← ctx.getExchangeRate attoIronDenom
  let (_, poolBacking) ← state.store.getBacking backingDenom
  let backing ← poolBacking.backing.add backingIn
  require (belowCeiling backingParams.maxBacking backing.amount) (.err errBackingCeiling "")
  let excessBackingValue ← getExcessBackingValue ctx state.store
  let availableIronMint ← (Dec.ofInt (-excessBackingValue)).quo ironPrice
  let ironMint ← newCoin attoIronDenom
    (← ((Dec.ofInt backingIn.amount).mul backingPrice).quo ironPrice).truncateInt
  let bonus ← computeFee ironMint (some ctx.params.rebackBonus)
  let rebackFee ← computeFee ironMint backingParams.rebackFee
  require (¬ availableIronMint < Dec.ofInt ironMint.amount) (.err errIronCoinInsufficient "")
  let ironOut ← (← ironMint.add bonus).sub rebackFee
  pure (ironOut, rebackFee)

/-- Interest since the last settlement is added to the debt of the account, of its pool and of the
total, and remembered in the account as interest. -/
def settleInterestFee (ctx : Ctx) (total : TotalCollateral) (pool : PoolCollateral) (record : AccountCollateral)
    (apr : Dec) : Except Fault (TotalCollateral × PoolCollateral × AccountCollateral) :=
  let period := ctx.blockHeight - record.lastSettlementBlock
  if period = 0 then pure (total, pool, record)
  else do
    let principalDebt ← record.gridDebt.sub record.lastInterest
    let yearly := ((Dec.ofInt principalDebt.amount).mul apr).mulInt period
    let interestOfPeriod := (← yearly.quoInt blocksPerYear).roundInt
    pure ({ total with gridDebt := total.gridDebt.addAmount interestOfPeriod },
      { pool with gridDebt := pool.gridDebt.addAmount interestOfPeriod },
      { record with
        lastInterest := record.lastInterest.addAmount interestOfPeriod
        gridDebt := record.gridDebt.addAmount interestOfPeriod
        lastSettlementBlock := ctx.blockHeight })

/-- The loan-to-value ratio `calculateMintByCollateral` allows: with no catalytic ratio, the basic one. -/
def mintLoanToValue (collateralParams : CollateralRiskParams) (ironCollateralizedValue collateralValue : Dec) :
    Except Fault Dec := do
  let catalyticIronRatio ← deref collateralParams.catalyticIronRatio
  let actualCatalyticRatio := (← ironCollateralizedValue.quo collateralValue).min catalyticIronRatio
  -- actualCatalyticRatio / catalyticRatio = (availableLTV - basicLTV) / (maxLTV - basicLTV)
  let basicLoanToValue ← deref collateralParams.basicLoanToValue
  if catalyticIronRatio.isPositive then
    let loanToValue ← deref collateralParams.loanToValue
    pure (basicLoanToValue +
      (← (actualCatalyticRatio.mul (loanToValue - basicLoanToValue)).quo catalyticIronRatio))
  else pure basicLoanToValue

/-- Returns `mintFee` and the three records with the interest settled and the minted debt added. -/
def calculateMintByCollateral (ctx : Ctx) (store : Store) (account : Address) (collateralDenom : Denom)
    (mintOut : Coin) : Except Fault (Coin × TotalCollateral × PoolCollateral × AccountCollateral) := do
  let collateralParams ← store.getAvailableCollateralParams collateralDenom
  let collateralPrice ← ctx.getExchangeRate collateralDenom
  let ironPrice ← ctx.getExchangeRate attoIronDenom
  let (total, pool, record) ← store.getCollateral ctx account collateralDenom false
  let (total, pool, record) ← settleInterestFee ctx total pool record (← deref collateralParams.interestFee)
  let mintFee ← computeFee mintOut collateralParams.mintFee
  let mintTotal ← mintOut.add mintFee
  let record := { record with gridDebt := ← record.gridDebt.add mintTotal }
  let pool := { pool with gridDebt := ← pool.gridDebt.add mintTotal }
  let total := { total with gridDebt := ← total.gridDebt.add mintTotal }
  require (belowCeiling collateralParams.maxGridMint pool.gridDebt.amount) (.err errGridCeiling "")
  let collateralValue := (Dec.ofInt record.collateral.amount).mul collateralPrice
  let ironCollateralizedValue := (Dec.ofInt record.ironCollateralized.amount).mul ironPrice
  require collateralValue.isPositive (.err errAccountInsufficientCollateral "")
  let availableLTV ← mintLoanToValue collateralParams ironCollateralizedValue collateralValue
  let availableDebtMax := (← (collateralValue.mul availableLTV).quo microUSMTarget).truncateInt
  require (¬ availableDebtMax < record.gridDebt.amount) (.err errAccountInsufficientCollateral "")
  pure (mintFee, total, pool, record)

/-- Returns the available loan-to-value ratio of an account and its maximal debt. -/
def maxLoanToValueForAccount (ctx : Ctx) (record : AccountCollateral) (collateralParams : CollateralRiskParams) :
    Except Fault (Dec × Dec) := do
  let collateralPrice ← ctx.getExchangeRate record.collateral.denom
  let ironPrice ← ctx.getExchangeRate attoIronDenom
  let collateralInUSD := (Dec.ofInt record.collateral.amount).mul collateralPrice
  let collateralizedIronInUSD := (Dec.ofInt record.ironCollateralized.amount).mul ironPrice
  if ¬ collateralInUSD.isPositive then pure (Dec.zero, Dec.zero)
  else
    let catalyticIronRatio ← deref collateralParams.catalyticIronRatio
    let catalyticRatio := (← collateralizedIronInUSD.quo collateralInUSD).min catalyticIronRatio
    let loanToValue ← deref collateralParams.loanToValue
    let basicLoanToValue ← deref collateralParams.basicLoanToValue
    let availableLTV :=
      (← ((loanToValue - basicLoanToValue).mul catalyticRatio).quo catalyticIronRatio) + basicLoanToValue
    pure (availableLTV, collateralInUSD.mul availableLTV)

end Rotofury.Model.Maker
