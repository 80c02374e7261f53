import Rotofury.ToMathlib.AListSum
import Rotofury.Model.Sdk.BankOps

/-! # State of the maker module

The maker mints the stablecoin `uusm` against backing pools and against collateral accounts. Its store
holds one total and one record per registered denomination for each side, and one record per account
and denomination for collateral. Every record is written under the denomination it carries. Prices come
from the oracle, parameters from the parameter store; both are part of the context of a call.
-/

namespace Rotofury.Model.Maker

open Model.Sdk Model.App Except

def attoIronDenom : Denom := "airon"
def microUSMDenom : Denom := "uusm"
def microUSMTarget : Dec := Dec.one
def blocksPerYear : ℤ := 10 * 60 * 24 * 365

def errGridPriceTooLow : RegisteredError := ⟨"maker", 2, "grid stablecoin price too low"⟩
def errGridPriceTooHigh : RegisteredError := ⟨"maker", 3, "grid stablecoin price too high"⟩
def errBackingParamsInvalid : RegisteredError := ⟨"maker", 4, "backing params invalid"⟩
def errCollateralParamsInvalid : RegisteredError := ⟨"maker", 5, "collateral params invalid"⟩
def errBackingCoinDisabled : RegisteredError := ⟨"maker", 6, "backing coin disabled"⟩
def errCollateralCoinDisabled : RegisteredError := ⟨"maker", 7, "collateral coin disabled"⟩
def errBackingCoinAlreadyExists : RegisteredError := ⟨"maker", 8, "backing coin already exists"⟩
def errCollateralCoinAlreadyExists : RegisteredError := ⟨"maker", 9, "collateral coin already exists"⟩
def errBackingCoinNotFound : RegisteredError := ⟨"maker", 10, "backing coin not found"⟩
def errCollateralCoinNotFound : RegisteredError := ⟨"maker", 11, "collateral coin not found"⟩
def errGridSlippage : RegisteredError := ⟨"maker", 12, "grid over slippage"⟩
def errBackingCeiling : RegisteredError := ⟨"maker", 15, "total backing coin over ceiling"⟩
def errCollateralCeiling : RegisteredError := ⟨"maker", 16, "total collateral coin over ceiling"⟩
def errGridCeiling : RegisteredError := ⟨"maker", 17, "total grid coin over ceiling"⟩
def errBackingCoinInsufficient : RegisteredError := ⟨"maker", 18, "backing coin balance insufficient"⟩
def errCollateralCoinInsufficient : RegisteredError := ⟨"maker", 19, "collateral coin balance insufficient"⟩
def errIronCoinInsufficient : RegisteredError := ⟨"maker", 20, "insufficient available iron coin"⟩
def errAccountNoCollateral : RegisteredError := ⟨"maker", 21, "account has no collateral"⟩
def errAccountInsufficientCollateral : RegisteredError := ⟨"maker", 22, "account collateral insufficient"⟩
def errAccountNoDebt : RegisteredError := ⟨"maker", 23, "account has no debt"⟩
def errNotUndercollateralized : RegisteredError := ⟨"maker", 24, "position is not undercollateralized"⟩
def errOverSlippage : RegisteredError := ⟨"maker", 26, "over slippage"⟩
def errUnknownDenom : RegisteredError := ⟨"oracle", 14, "unknown denom"⟩

structure Params where
  backingRatioStep : Dec
  backingRatioPriceBand : Dec
  backingRatioCooldownPeriod : ℤ
  mintPriceBias : Dec
  burnPriceBias : Dec
  rebackBonus : Dec
  liquidationCommissionFee : Dec
deriving DecidableEq, Repr

structure BackingRiskParams where
  backingDenom : Denom
  enabled : Bool
  maxBacking : Option ℤ
  maxGridMint : Option ℤ
  mintFee : Option Dec
  burnFee : Option Dec
  buybackFee : Option Dec
  rebackFee : Option Dec
deriving DecidableEq, Repr

structure CollateralRiskParams where
  collateralDenom : Denom
  enabled : Bool
  maxCollateral : Option ℤ
  maxGridMint : Option ℤ
  liquidationThreshold : Option Dec
  loanToValue : Option Dec
  basicLoanToValue : Option Dec
  catalyticIronRatio : Option Dec
  liquidationFee : Option Dec
  mintFee : Option Dec
  interestFee : Option Dec
deriving DecidableEq, Repr

structure TotalBacking where
  gridMinted : Coin
  ironBurned : Coin
deriving DecidableEq, Repr

structure PoolBacking where
  gridMinted : Coin
  backing : Coin
  ironBurned : Coin
deriving DecidableEq, Repr

structure TotalCollateral where
  gridDebt : Coin
  ironCollateralized : Coin
deriving DecidableEq, Repr

structure PoolCollateral where
  collateral : Coin
  gridDebt : Coin
  ironCollateralized : Coin
deriving DecidableEq, Repr

structure AccountCollateral where
  account : Address
  collateral : Coin
  gridDebt : Coin
  ironCollateralized : Coin
  lastInterest : Coin
  lastSettlementBlock : ℤ
deriving DecidableEq, Repr

/-- The module's key-value store. -/
structure Store where
  backingRatio : Option Dec
  backingRatioLastBlock : Option ℤ
  backingParams : AList fun _ : Denom => BackingRiskParams
  collateralParams : AList fun _ : Denom => CollateralRiskParams
  totalBacking : Option TotalBacking
  poolBacking : AList fun _ : Denom => PoolBacking
  totalCollateral : Option TotalCollateral
  poolCollateral : AList fun _ : Denom => PoolCollateral
  accountCollateral : AList fun _ : Address × Denom => AccountCollateral

/-- The module's state together with the bank it shares with the rest of the chain. -/
structure State where
  store : Store
  bank : Bank

/-- What a call reads besides the state: the block height, the parameters and the oracle's prices. -/
structure Ctx where
  blockHeight : ℤ
  params : Params
  exchangeRate : Denom → Option Dec

namespace Ctx

/-- `GetExchangeRate`: a denomination without a price is an error. -/
def getExchangeRate (ctx : Ctx) (denom : Denom) : Except Fault Dec :=
  match ctx.exchangeRate denom with
  | some price => .ok price
  | none => .error (.err errUnknownDenom denom)

@[simp]
theorem getExchangeRate_ok_iff {ctx : Ctx} {denom : Denom} {price : Dec} :
    ctx.getExchangeRate denom = .ok price ↔ ctx.exchangeRate denom = some price := by
  unfold getExchangeRate
  split <;> simp_all

def mintPriceBias (ctx : Ctx) : Dec := ctx.params.mintPriceBias

/-- `BurnPriceBias` reads the key of the mint price bias. -/
def burnPriceBias (ctx : Ctx) : Dec := ctx.params.mintPriceBias

end Ctx

namespace Store

/-- The store before any denomination is registered. -/
def empty : Store := ⟨none, none, ∅, ∅, none, ∅, none, ∅, ∅⟩

/-- `GetBackingRatio`: an unset ratio is one. -/
def getBackingRatio (store : Store) : Dec := store.backingRatio.getD Dec.one

def getBackingRatioLastBlock (store : Store) : ℤ := store.backingRatioLastBlock.getD 0

def setBackingRiskParams (store : Store) (params : BackingRiskParams) : Store :=
  { store with backingParams := store.backingParams.insert params.backingDenom params }

def setCollateralRiskParams (store : Store) (params : CollateralRiskParams) : Store :=
  { store with collateralParams := store.collateralParams.insert params.collateralDenom params }

def setTotalBacking (store : Store) (total : TotalBacking) : Store :=
  { store with totalBacking := some total }

def setPoolBacking (store : Store) (pool : PoolBacking) : Store :=
  { store with poolBacking := store.poolBacking.insert pool.backing.denom pool }

/-- `GetAllPoolBacking`: in the order of the store's keys. -/
def getAllPoolBacking (store : Store) : List PoolBacking :=
  (store.poolBacking.entries.insertionSort fun left right => left.1 ≤ right.1).map (·.2)

def setTotalCollateral (store : Store) (total : TotalCollateral) : Store :=
  { store with totalCollateral := some total }

def setPoolCollateral (store : Store) (pool : PoolCollateral) : Store :=
  { store with poolCollateral := store.poolCollateral.insert pool.collateral.denom pool }

def setAccountCollateral (store : Store) (account : Address) (record : AccountCollateral) : Store :=
  { store with
    accountCollateral := store.accountCollateral.insert (account, record.collateral.denom) record }

/-- Reading a missing record is an error with the given text. -/
def found {α : Type} (record : Option α) (error : RegisteredError) (detail : String) : Except Fault α :=
  match record with
  | some value => .ok value
  | none => .error (.err error detail)

@[simp]
theorem found_ok_iff {α : Type} {record : Option α} {error : RegisteredError} {detail : String} {value : α} :
    found record error detail = .ok value ↔ record = some value := by
  cases record <;> simp [found]

def getBacking (store : Store) (denom : Denom) : Except Fault (TotalBacking × PoolBacking) := do
  let detail := s!"backing coin denomination not found: {denom}"
  let total ← found store.totalBacking errBackingCoinNotFound detail
  let pool ← found (store.poolBacking.lookup denom) errBackingCoinNotFound detail
  pure (total, pool)

def getAvailableBackingParams (store : Store) (denom : Denom) : Except Fault BackingRiskParams := do
  let params ← found (store.backingParams.lookup denom) errBackingCoinNotFound
    s!"backing coin denomination not found: {denom}"
  require (params.enabled = true) (.err errBackingCoinDisabled s!"backing coin disabled: {denom}")
  pure params

def getAvailableCollateralParams (store : Store) (denom : Denom) : Except Fault CollateralRiskParams := do
  let params ← found (store.collateralParams.lookup denom) errCollateralCoinNotFound
    s!"collateral coin denomination not found: {denom}"
  require (params.enabled = true) (.err errCollateralCoinDisabled s!"collateral coin disabled: {denom}")
  pure params

/-- The record an account starts with on its first deposit. -/
def newAccountCollateral (ctx : Ctx) (account : Address) (denom : Denom) : AccountCollateral where
  account := account
  collateral := ⟨denom, 0⟩
  gridDebt := ⟨microUSMDenom, 0⟩
  ironCollateralized := ⟨attoIronDenom, 0⟩
  lastInterest := ⟨microUSMDenom, 0⟩
  lastSettlementBlock := ctx.blockHeight

def getCollateral (store : Store) (ctx : Ctx) (account : Address) (denom : Denom) (allowNewAccount : Bool) :
    Except Fault (TotalCollateral × PoolCollateral × AccountCollateral) := do
  let detail := s!"collateral coin denomination not found: {denom}"
  let total ← found store.totalCollateral errCollateralCoinNotFound detail
  let pool ← found (store.poolCollateral.lookup denom) errCollateralCoinNotFound detail
  let fresh := if allowNewAccount then some (newAccountCollateral ctx account denom) else none
  let record ← found ((store.accountCollateral.lookup (account, denom)).or fresh) errAccountNoCollateral
    s!"account has no collateral: {denom}"
  pure (total, pool, record)

end Store

/-! ## Maker messages and their stateless checks

The nine messages with the checks of `ValidateBasic`, which the application runs before a message
reaches its handler. Addresses are parsed already: an absent receiver means the sender.
-/

structure MsgMintBySwap where
  sender : Address
  receiver : Option Address
  mintOutMin : Coin
  backingInMax : Coin
  ironInMax : Coin
  fullBacking : Bool
deriving DecidableEq, Repr

structure MsgBurnBySwap where
  sender : Address
  receiver : Option Address
  burnIn : Coin
  backingOutMin : Coin
  ironOutMin : Coin
deriving DecidableEq, Repr

structure MsgBuyBacking where
  sender : Address
  receiver : Option Address
  ironIn : Coin
  backingOutMin : Coin
deriving DecidableEq, Repr

structure MsgSellBacking where
  sender : Address
  receiver : Option Address
  backingIn : Coin
  ironOutMin : Coin
deriving DecidableEq, Repr

structure MsgMintByCollateral where
  sender : Address
  receiver : Option Address
  collateralDenom : Denom
  mintOut : Coin
deriving DecidableEq, Repr

structure MsgBurnByCollateral where
  sender : Address
  collateralDenom : Denom
  repayInMax : Coin
deriving DecidableEq, Repr

structure MsgDepositCollateral where
  sender : Address
  receiver : Option Address
  collateralIn : Coin
  ironIn : Coin
deriving DecidableEq, Repr

structure MsgRedeemCollateral where
  sender : Address
  receiver : Option Address
  collateralOut : Coin
  ironOut : Coin
deriving DecidableEq, Repr

structure MsgLiquidateCollateral where
  sender : Address
  receiver : Option Address
  debtor : Address
  collateral : Coin
  repayInMax : Coin
deriving DecidableEq, Repr

/-- Any maker message. -/
inductive Msg where
  | mintBySwap (msg : MsgMintBySwap)
  | burnBySwap (msg : MsgBurnBySwap)
  | buyBacking (msg : MsgBuyBacking)
  | sellBacking (msg : MsgSellBacking)
  | mintByCollateral (msg : MsgMintByCollateral)
  | burnByCollateral (msg : MsgBurnByCollateral)
  | depositCollateral (msg : MsgDepositCollateral)
  | redeemCollateral (msg : MsgRedeemCollateral)
  | liquidateCollateral (msg : MsgLiquidateCollateral)
deriving DecidableEq, Repr

/-- The coin must be of the given denomination. -/
def requireDenom (coin : Coin) (denom : Denom) : Except Fault Unit :=
  require (coin.denom = denom) (.err errInvalidCoins s!"invalid coin: {coin.denom}")

def requirePositive (coin : Coin) (detail : String) : Except Fault Unit :=
  require (0 < coin.amount) (.err errInvalidCoins detail)

def requireNotNegative (coin : Coin) (detail : String) : Except Fault Unit :=
  require (0 ≤ coin.amount) (.err errInvalidCoins detail)

namespace MsgMintBySwap

def validateBasic (msg : MsgMintBySwap) : Except Fault Unit := do
  requireDenom msg.mintOutMin microUSMDenom
  requireDenom msg.ironInMax attoIronDenom
  requirePositive msg.mintOutMin "mint_out_min must be positive"
  requireNotNegative msg.backingInMax "backing_in_max must be positive or zero"
  requireNotNegative msg.ironInMax "iron_in_max must be positive or zero"
  require (¬ (msg.backingInMax.amount = 0 ∧ msg.ironInMax.amount = 0))
    (.err errInvalidCoins "backing_in_max and iron_in_max must not be both zero")
  require (¬ (msg.fullBacking = true ∧ 0 < msg.ironInMax.amount))
    (.err errInvalidCoins "iron_in_max must be zero when full_backing is true")

end MsgMintBySwap

namespace MsgBurnBySwap

def validateBasic (msg : MsgBurnBySwap) : Except Fault Unit := do
  requireDenom msg.burnIn microUSMDenom
  requireDenom msg.ironOutMin attoIronDenom
  requirePositive msg.burnIn msg.burnIn.toString
  requireNotNegative msg.backingOutMin msg.backingOutMin.toString
  requireNotNegative msg.ironOutMin msg.ironOutMin.toString

end MsgBurnBySwap

namespace MsgBuyBacking

def validateBasic (msg : MsgBuyBacking) : Except Fault Unit := do
  requireDenom msg.ironIn attoIronDenom
  requirePositive msg.ironIn msg.ironIn.toString
  requireNotNegative msg.backingOutMin msg.backingOutMin.toString

end MsgBuyBacking

namespace MsgSellBacking

def validateBasic (msg : MsgSellBacking) : Except Fault Unit := do
  requireDenom msg.ironOutMin attoIronDenom
  requirePositive msg.backingIn msg.backingIn.toString
  requireNotNegative msg.ironOutMin msg.ironOutMin.toString

end MsgSellBacking

namespace MsgMintByCollateral

def validateBasic (msg : MsgMintByCollateral) : Except Fault Unit := do
  requireDenom msg.mintOut microUSMDenom
  requirePositive msg.mintOut msg.mintOut.toString

end MsgMintByCollateral

namespace MsgBurnByCollateral

def validateBasic (msg : MsgBurnByCollateral) : Except Fault Unit := do
  requireDenom msg.repayInMax microUSMDenom
  requirePositive msg.repayInMax msg.repayInMax.toString

end MsgBurnByCollateral

namespace MsgDepositCollateral

def validateBasic (msg : MsgDepositCollateral) : Except Fault Unit := do
  requireNotNegative msg.collateralIn msg.collateralIn.toString
  requireDenom msg.ironIn attoIronDenom
  requireNotNegative msg.ironIn msg.ironIn.toString
  require (¬ (msg.collateralIn.amount = 0 ∧ msg.ironIn.amount = 0)) (.err errInvalidCoins "")

end MsgDepositCollateral

namespace MsgRedeemCollateral

def validateBasic (msg : MsgRedeemCollateral) : Except Fault Unit := do
  requireNotNegative msg.collateralOut msg.collateralOut.toString
  requireDenom msg.ironOut attoIronDenom
  requireNotNegative msg.ironOut msg.ironOut.toString
  require (¬ (msg.collateralOut.amount = 0 ∧ msg.ironOut.amount = 0)) (.err errInvalidCoins "")

end MsgRedeemCollateral

namespace MsgLiquidateCollateral

def validateBasic (msg : MsgLiquidateCollateral) : Except Fault Unit := do
  requirePositive msg.collateral msg.collateral.toString
  requireDenom msg.repayInMax microUSMDenom
  requirePositive msg.repayInMax msg.repayInMax.toString

end MsgLiquidateCollateral

namespace Msg

def validateBasic : Msg → Except Fault Unit
  | mintBySwap msg => msg.validateBasic
  | burnBySwap msg => msg.validateBasic
  | buyBacking msg => msg.validateBasic
  | sellBacking msg => msg.validateBasic
  | mintByCollateral msg => msg.validateBasic
  | burnByCollateral msg => msg.validateBasic
  | depositCollateral msg => msg.validateBasic
  | redeemCollateral msg => msg.validateBasic
  | liquidateCollateral msg => msg.validateBasic

/-- `GetSigners`: the one account that must have signed the transaction. -/
def signer : Msg → Address
  | mintBySwap msg => msg.sender
  | burnBySwap msg => msg.sender
  | buyBacking msg => msg.sender
  | sellBacking msg => msg.sender
  | mintByCollateral msg => msg.sender
  | burnByCollateral msg => msg.sender
  | depositCollateral msg => msg.sender
  | redeemCollateral msg => msg.sender
  | liquidateCollateral msg => msg.sender

end Msg

end Rotofury.Model.Maker
