import Rotofury.Model.Maker.Proposal

/-! # The backing ratio

At the end of a block, once the cooldown since the last adjustment is over, the backing ratio moves one step against the
price of the stablecoin: down when the price is above its band, up when it is below. The height of the adjustment is
recorded even when the price lies within the band and the ratio stays.
-/

namespace Rotofury.Model.Maker

open Model.Sdk Except

namespace Params

def requirePositiveRatio (ratio : Dec) (text : String) (printed : Dec) : Except Fault Unit :=
  require (¬ (¬ ratio.isPositive ∨ Dec.one < ratio)) (plainError s!"{text} should be a value between (0,1], is {printed}")

def requireShare (ratio : Dec) (text : String) : Except Fault Unit :=
  require (¬ (ratio.isNegative ∨ Dec.one < ratio)) (plainError s!"{text} should be a value between [0,1], is {ratio}")

/-- `Params.Validate`; the text for the burn price bias prints the mint price bias. -/
def validate (params : Params) : Except Fault Unit := do
  requirePositiveRatio params.backingRatioStep "backing ratio adjusting step" params.backingRatioStep
  requirePositiveRatio params.backingRatioPriceBand "price band for adjusting backing ratio" params.backingRatioPriceBand
  require (¬ params.backingRatioCooldownPeriod ≤ 0) (plainError
    s!"cooldown period for adjusting backing ratio should be positive, is {params.backingRatioCooldownPeriod}")
  requirePositiveRatio params.mintPriceBias "mint price bias ratio" params.mintPriceBias
  requirePositiveRatio params.burnPriceBias "burn price bias ratio" params.mintPriceBias
  requireShare params.rebackBonus "reback bonus ratio"
  requireShare params.liquidationCommissionFee "liquidation commission fee ratio"

end Params

def defaultParams : Params where
  backingRatioStep := Dec.withPrec 25 4
  backingRatioPriceBand := Dec.withPrec 5 3
  backingRatioCooldownPeriod := 600
  mintPriceBias := Dec.withPrec 1 2
  burnPriceBias := Dec.withPrec 1 2
  rebackBonus := Dec.withPrec 75 4
  liquidationCommissionFee := Dec.withPrec 10 2

/-- The ratio one step against the price, within zero and one. -/
def adjustedBackingRatio (params : Params) (gridPrice backingRatio : Dec) : Dec :=
  let priceBand := microUSMTarget.mul params.backingRatioPriceBand
  if microUSMTarget + priceBand < gridPrice then Dec.max (backingRatio - params.backingRatioStep) Dec.zero
  else if gridPrice < microUSMTarget - priceBand then Dec.min (backingRatio + params.backingRatioStep) Dec.one
  else backingRatio

/-- `panic(err)` with the error of a missing price. -/
def quotedOrPanic (ctx : Ctx) (denom : Denom) : Except Fault Dec :=
  match ctx.exchangeRate denom with
  | some price => .ok price
  | none => .error (.panic s!"{denom}: {errUnknownDenom.description}")

namespace Store

def setBackingRatio (store : Store) (ratio : Dec) : Store := { store with backingRatio := some ratio }

def setBackingRatioLastBlock (store : Store) (height : ℤ) : Except Fault Store := do
  require (¬ height < 0) (.panic "invalid block height")
  pure { store with backingRatioLastBlock := some height }

end Store

def adjustBackingRatio (ctx : Ctx) (store : Store) : Except Fault Store :=
  if ctx.blockHeight - store.getBackingRatioLastBlock < ctx.params.backingRatioCooldownPeriod then pure store
  else if ctx.params.backingRatioStep.isZero then pure store
  else do
    let gridPrice ← quotedOrPanic ctx microUSMDenom
    let backingRatio := adjustedBackingRatio ctx.params gridPrice store.getBackingRatio
    (store.setBackingRatio backingRatio).setBackingRatioLastBlock ctx.blockHeight

/-- The module's part of the end of a block. -/
def endBlocker (ctx : Ctx) (store : Store) : Except Fault Store := adjustBackingRatio ctx store

end Rotofury.Model.Maker
