import Mathlib.Data.Finmap
import Rotofury.Model.Maker.MsgServer

/-! # Queries of the maker

Besides what is stored, the amounts of a swap can be queried, from the amount put in or from the amount taken out. The
functions for the former are those the messages use; those for the latter are used by queries only. A query for all records
of a table reads them in the order of their keys, so it is answered with the table as a map.
-/

namespace Rotofury.Model.Maker

open Model.Sdk Model.App Except

/-- `backingIn` and `ironIn` for a minted value. -/
def mintBySwapRequired (backingRatio backingPrice ironPrice mintTotalInUSD : Dec) (fullBacking : Bool) :
    Except Fault (ℤ × ℤ) := do
  if Dec.one ≤ backingRatio ∨ fullBacking = true then
    pure ((← mintTotalInUSD.quoRoundUp backingPrice).roundInt, 0)
  else if backingRatio.isZero then
    pure (0, (← mintTotalInUSD.quoRoundUp ironPrice).roundInt)
  else
    let backingIn ← (mintTotalInUSD.mul backingRatio).quoRoundUp backingPrice
    let ironIn ← (mintTotalInUSD.mul (Dec.one - backingRatio)).quoRoundUp ironPrice
    pure (backingIn.roundInt, ironIn.roundInt)

/-- Returns `backingIn`, `ironIn` and `mintFee`. -/
def calculateMintBySwapIn (ctx : Ctx) (state : State) (mintOut : Coin) (backingDenom : Denom) (fullBacking : Bool) :
    Except Fault (Coin × Coin × Coin) := do
  checkMintPriceLowerBound ctx
  let backingParams ← state.store.getAvailableBackingParams backingDenom
  let backingPrice ← ctx.getExchangeRate backingDenom
  let ironPrice ← ctx.getExchangeRate attoIronDenom
  let mintFee ← computeFee mintOut backingParams.mintFee
  let mintTotal ← mintOut.add mintFee
  let mintTotalInUSD := (Dec.ofInt mintTotal.amount).mul microUSMTarget
  let (_, poolBacking) ← state.store.getBacking backingDenom
  let gridMinted ← poolBacking.gridMinted.add mintTotal
  require (belowCeiling backingParams.maxGridMint gridMinted.amount) (.err errGridCeiling "grid over ceiling")
  let (backingInAmount, ironInAmount) ←
    mintBySwapRequired state.store.getBackingRatio backingPrice ironPrice mintTotalInUSD fullBacking
  let backingIn : Coin := ⟨backingDenom, backingInAmount⟩
  let backing ← poolBacking.backing.add backingIn
  require (belowCeiling backingParams.maxBacking backing.amount) (.err errBackingCeiling "backing over ceiling")
  pure (backingIn, ⟨attoIronDenom, ironInAmount⟩, mintFee)

/-- The burned value, `backingOut` and `ironOut` of a swap for at most these amounts. -/
def burnBySwapRequired (backingRatio backingPrice ironPrice : Dec) (backingOutMax ironOutMax : Coin) :
    Except Fault (Dec × ℤ × ℤ) := do
  let backingOutMaxInUSD := backingPrice.mulInt backingOutMax.amount
  let ironOutMaxInUSD := ironPrice.mulInt ironOutMax.amount
  if Dec.one ≤ backingRatio then pure (backingOutMaxInUSD, backingOutMax.amount, 0)
  else if backingRatio.isZero then pure (ironOutMaxInUSD, 0, ironOutMax.amount)
  else
    let burnActualWithBackingInUSD ← backingOutMaxInUSD.quo backingRatio
    let burnActualWithIronInUSD ← ironOutMaxInUSD.quo (Dec.one - backingRatio)
    if ironOutMax.amount = 0 ∨ (0 < backingOutMax.amount ∧ burnActualWithBackingInUSD < burnActualWithIronInUSD) then
      let ironOut ← (burnActualWithBackingInUSD.mul (Dec.one - backingRatio)).quoRoundUp ironPrice
      pure (burnActualWithBackingInUSD, backingOutMax.amount, ironOut.roundInt)
    else
      let backingOut ← (burnActualWithIronInUSD.mul backingRatio).quoRoundUp backingPrice
      pure (burnActualWithIronInUSD, backingOut.roundInt, ironOutMax.amount)

/-- Returns `burnIn`, `backingOut`, `ironOut` and `burnFee`. The pool is not looked at, only what the module holds. -/
def calculateBurnBySwapIn (ctx : Ctx) (state : State) (backingOutMax ironOutMax : Coin) :
    Except Fault (Coin × Coin × Coin × Coin) := do
  let backingDenom := backingOutMax.denom
  checkBurnPriceUpperBound ctx
  let backingParams ← state.store.getAvailableBackingParams backingDenom
  let backingPrice ← ctx.getExchangeRate backingDenom
  let ironPrice ← ctx.getExchangeRate attoIronDenom
  let (burnActualInUSD, backingOutAmount, ironOutAmount) ←
    burnBySwapRequired state.store.getBackingRatio backingPrice ironPrice backingOutMax ironOutMax
  let backingOut : Coin := ⟨backingDenom, backingOutAmount⟩
  let moduleOwnedBacking : Coin := ⟨backingDenom, state.bank.balance ModuleAccount.maker.address backingDenom⟩
  let short ← moduleOwnedBacking.isLT backingOut
  require (short = false)
    (.err errBackingCoinInsufficient s!"backing coin out({backingOut}) < balance({moduleOwnedBacking})")
  let burnFeeRate := backingParams.burnFee.getD Dec.zero
  let burnInValue ← (← burnActualInUSD.quo microUSMTarget).quo (Dec.one - burnFeeRate)
  let burnIn ← newCoin microUSMDenom burnInValue.roundInt
  let burnFee ← newCoin microUSMDenom (burnInValue.mul burnFeeRate).roundInt
  pure (burnIn, backingOut, ⟨attoIronDenom, ironOutAmount⟩, burnFee)

/-- Returns `ironIn` and `buybackFee`. -/
def calculateBuyBackingIn (ctx : Ctx) (state : State) (backingOut : Coin) : Except Fault (Coin × Coin) := do
  let backingDenom := backingOut.denom
  let backingParams ← state.store.getAvailableBackingParams backingDenom
  let backingPrice ← ctx.getExchangeRate backingDenom
  let ironPrice ← ctx.getExchangeRate attoIronDenom
  let excessBackingValue ← getExcessBackingValue ctx state.store
  let buybackFeeRate ← deref backingParams.buybackFee
  let backingOutTotal ← newCoin backingDenom
    (← (Dec.ofInt backingOut.amount).quo (Dec.one - buybackFeeRate)).truncateInt
  let ironInValue := (Dec.ofInt backingOutTotal.amount).mul backingPrice
  require (¬ Dec.ofInt excessBackingValue < ironInValue) (.err errBackingCoinInsufficient "")
  requirePoolBacking state backingDenom backingOutTotal
  let ironIn ← newCoin attoIronDenom (← ironInValue.quo ironPrice).roundInt
  let buybackFee ← newCoin backingDenom ((Dec.ofInt backingOutTotal.amount).mul buybackFeeRate).roundInt
  pure (ironIn, buybackFee)

/-- Returns `backingIn` and `rebackFee`. -/
def calculateSellBackingIn (ctx : Ctx) (state : State) (ironOut : Coin) (backingDenom : Denom) :
    Except Fault (Coin × Coin) := do
  let backingParams ← state.store.getAvailableBackingParams backingDenom
  let backingPrice ← ctx.getExchangeRate backingDenom
  let ironPrice ← ctx.getExchangeRate attoIronDenom
  let (_, poolBacking) ← state.store.getBacking backingDenom
  let excessBackingValue ← getExcessBackingValue ctx state.store
  let availableIronMint ← (Dec.ofInt (-excessBackingValue)).quo ironPrice
  let rebackFeeRate ← deref backingParams.rebackFee
  let ironMint ← (Dec.ofInt ironOut.amount).quo (Dec.one + ctx.params.rebackBonus - rebackFeeRate)
  let backingIn ← newCoin backingDenom (← (ironMint.mul ironPrice).quo backingPrice).roundInt
  let rebackFee ← newCoin attoIronDenom (ironMint.mul rebackFeeRate).roundInt
  let backing ← poolBacking.backing.add backingIn
  require (belowCeiling backingParams.maxBacking backing.amount) (.err errBackingCeiling "")
  require (¬ availableIronMint < ironMint) (.err errIronCoinInsufficient "")
  pure (backingIn, rebackFee)

inductive Query where
  | allBackingRiskParams
  | allCollateralRiskParams
  | allBackingPools
  | allCollateralPools
  | backingPool (backingDenom : Denom)
  | collateralPool (collateralDenom : Denom)
  | collateralOfAccount (account : Address) (collateralDenom : Denom)
  | totalBacking
  | totalCollateral
  | backingRatio
  | params
  | estimateMintBySwapIn (mintOut : Coin) (backingDenom : Denom) (fullBacking : Bool)
  | estimateMintBySwapOut (backingInMax ironInMax : Coin) (fullBacking : Bool)
  | estimateBurnBySwapIn (backingOutMax ironOutMax : Coin)
  | estimateBurnBySwapOut (burnIn : Coin) (backingDenom : Denom)
  | estimateBuyBackingIn (backingOut : Coin)
  | estimateBuyBackingOut (ironIn : Coin) (backingDenom : Denom)
  | estimateSellBackingIn (ironOut : Coin) (backingDenom : Denom)
  | estimateSellBackingOut (backingIn : Coin)

/-- The totals of a store that has none are empty records. -/
inductive Answer where
  | backingRiskParams (records : Finmap fun _ : Denom => BackingRiskParams)
  | collateralRiskParams (records : Finmap fun _ : Denom => CollateralRiskParams)
  | backingPools (records : Finmap fun _ : Denom => PoolBacking)
  | collateralPools (records : Finmap fun _ : Denom => PoolCollateral)
  | backingPool (pool : PoolBacking)
  | collateralPool (pool : PoolCollateral)
  | accountCollateral (record : AccountCollateral)
  | totalBacking (total : Option TotalBacking) (backingValue : ℤ)
  | totalCollateral (total : Option TotalCollateral)
  | backingRatio (ratio : Dec) (lastUpdateBlock : ℤ)
  | params (params : Params)
  | coins (amounts : List Coin)

def notFound (text : String) : Fault := .err ⟨"rpc", 5, "NotFound"⟩ text

def collateralOfAccount (ctx : Ctx) (store : Store) (account : Address) (collateralDenom : Denom) :
    Except Fault AccountCollateral :=
  match store.accountCollateral.lookup (account, collateralDenom) with
  | some collateral => .ok collateral
  | none => do
    require ((store.collateralParams.lookup collateralDenom).isSome = true) (.err errCollateralCoinNotFound "")
    pure (Store.newAccountCollateral ctx account collateralDenom)

def Query.answer (ctx : Ctx) (state : State) : Query → Except Fault Answer
  | .allBackingRiskParams => .ok (.backingRiskParams state.store.backingParams.toFinmap)
  | .allCollateralRiskParams => .ok (.collateralRiskParams state.store.collateralParams.toFinmap)
  | .allBackingPools => .ok (.backingPools state.store.poolBacking.toFinmap)
  | .allCollateralPools => .ok (.collateralPools state.store.poolCollateral.toFinmap)
  | .backingPool backingDenom =>
    match state.store.poolBacking.lookup backingDenom with
    | some pool => .ok (.backingPool pool)
    | none => .error (notFound s!"backing pool with backing denom '{backingDenom}'")
  | .collateralPool collateralDenom =>
    match state.store.poolCollateral.lookup collateralDenom with
    | some pool => .ok (.collateralPool pool)
    | none => .error (notFound s!"collateral pool with collateral denom '{collateralDenom}'")
  | .collateralOfAccount account collateralDenom =>
    .accountCollateral <$> Maker.collateralOfAccount ctx state.store account collateralDenom
  | .totalBacking => .totalBacking state.store.totalBacking <$> totalBackingInUSD ctx state.store
  | .totalCollateral => .ok (.totalCollateral state.store.totalCollateral)
  | .backingRatio => .ok (.backingRatio state.store.getBackingRatio state.store.getBackingRatioLastBlock)
  | .params => .ok (.params ctx.params)
  | .estimateMintBySwapIn mintOut backingDenom fullBacking => do
    let (backingIn, ironIn, mintFee) ← calculateMintBySwapIn ctx state mintOut backingDenom fullBacking
    pure (.coins [backingIn, ironIn, mintFee])
  | .estimateMintBySwapOut backingInMax ironInMax fullBacking => do
    let (backingIn, ironIn, mintOut, mintFee) ← calculateMintBySwapOut ctx state backingInMax ironInMax fullBacking
    pure (.coins [backingIn, ironIn, mintOut, mintFee])
  | .estimateBurnBySwapIn backingOutMax ironOutMax => do
    let (burnIn, backingOut, ironOut, burnFee) ← calculateBurnBySwapIn ctx state backingOutMax ironOutMax
    pure (.coins [burnIn, backingOut, ironOut, burnFee])
  | .estimateBurnBySwapOut burnIn backingDenom => do
    let (backingOut, ironOut, burnFee) ← calculateBurnBySwapOut ctx state burnIn backingDenom
    pure (.coins [backingOut, ironOut, burnFee])
  | .estimateBuyBackingIn backingOut => do
    let (ironIn, buybackFee) ← calculateBuyBackingIn ctx state backingOut
    pure (.coins [ironIn, buybackFee])
  | .estimateBuyBackingOut ironIn backingDenom => do
    let (backingOut, buybackFee) ← calculateBuyBackingOut ctx state ironIn backingDenom
    pure (.coins [backingOut, buybackFee])
  | .estimateSellBackingIn ironOut backingDenom => do
    let (backingIn, rebackFee) ← calculateSellBackingIn ctx state ironOut backingDenom
    pure (.coins [backingIn, rebackFee])
  | .estimateSellBackingOut backingIn => do
    let (ironOut, rebackFee) ← calculateSellBackingOut ctx state backingIn
    pure (.coins [ironOut, rebackFee])

/-! ## Genesis -/

structure GenesisState where
  params : Params
  backingRatio : Dec

def exportGenesis (params : Params) (store : Store) : GenesisState := ⟨params, store.getBackingRatio⟩

/-- The store of a module that is started with a genesis state. -/
def initGenesis (genesis : GenesisState) : Store := { Store.empty with backingRatio := some genesis.backingRatio }

end Rotofury.Model.Maker
