import Rotofury.Model.Maker.MsgServer
import Rotofury.Machine.Replay

/-! # Registration proposals of the maker

A governance proposal registers a denomination as backing or as collateral. Its risk parameters pass a
stateless check when the proposal is submitted; the handler then fills in the defaults, checks the
parameters against each other and creates the records, all of them zero.
-/

namespace Rotofury.Model.Maker

open Model.Sdk Except

/-- An error made with `fmt.Errorf`, reported outside every codespace. -/
def plainError (text : String) : Fault := .err ⟨"undefined", 1, text⟩ ""

def requireLimit (field : Option ℤ) (text : String) : Except Fault Unit :=
  require (∀ limit ∈ field, 0 ≤ limit) (plainError text)

def requireRatio (field : Option Dec) (text : String) : Except Fault Unit :=
  require (∀ ratio ∈ field, ¬ (ratio.isNegative ∨ Dec.one < ratio)) (plainError text)

namespace BackingRiskParams

/-- The proposal's `ValidateBasic`. -/
def validateBasic (params : BackingRiskParams) : Except Fault Unit := do
  requireLimit params.maxBacking "max backing value must be not negative"
  requireLimit params.maxGridMint "max grid mint value must be not negative"
  requireRatio params.mintFee "mint fee must be in [0, 1]"
  requireRatio params.burnFee "burn fee must be in [0, 1]"
  requireRatio params.buybackFee "buyback fee must be in [0, 1]"
  requireRatio params.rebackFee "reback fee must be in [0, 1]"

/-- Missing fields get their default value. -/
def withDefaults (params : BackingRiskParams) : BackingRiskParams :=
  { params with
    mintFee := some (params.mintFee.getD Dec.zero)
    burnFee := some (params.burnFee.getD Dec.zero)
    buybackFee := some (params.buybackFee.getD Dec.zero)
    rebackFee := some (params.rebackFee.getD Dec.zero) }

/-- `validateBackingRiskParams` of the keeper. -/
def validate (ctx : Ctx) (params : BackingRiskParams) : Except Fault Unit := do
  let rebackFee ← deref params.rebackFee
  require (¬ ctx.params.rebackBonus < rebackFee) (.err errBackingParamsInvalid
    "reback fee ratio should not be greater than reback bonus ratio")

end BackingRiskParams

namespace CollateralRiskParams

/-- The proposal's `ValidateBasic`. -/
def validateBasic (params : CollateralRiskParams) : Except Fault Unit := do
  requireLimit params.maxCollateral "max collateral value must be not negative"
  requireLimit params.maxGridMint "max grid mint value must be not negative"
  requireRatio params.liquidationThreshold "liquidation threshold must be in [0, 1]"
  requireRatio params.loanToValue "loan-to-value must be in [0, 1]"
  requireRatio params.basicLoanToValue "basic loan-to-value must be in [0, 1]"
  requireRatio params.catalyticIronRatio "catalytic iron ratio must be in [0, 1]"
  requireRatio params.liquidationFee "liquidation fee must be in [0, 1]"
  requireRatio params.mintFee "mint fee must be in [0, 1]"
  requireRatio params.interestFee "interest fee must be in [0, 1]"

/-- Missing fields get their default value. -/
def withDefaults (params : CollateralRiskParams) : CollateralRiskParams :=
  { params with
    liquidationThreshold := some (params.liquidationThreshold.getD (Dec.withPrec 70 2))
    loanToValue := some (params.loanToValue.getD (Dec.withPrec 60 2))
    basicLoanToValue := some (params.basicLoanToValue.getD (Dec.withPrec 40 2))
    catalyticIronRatio := some (params.catalyticIronRatio.getD (Dec.withPrec 10 2))
    liquidationFee := some (params.liquidationFee.getD (Dec.withPrec 10 2))
    mintFee := some (params.mintFee.getD (Dec.withPrec 5 3))
    interestFee := some (params.interestFee.getD (Dec.withPrec 1 2)) }

/-- `validateCollateralRiskParams` of the keeper. -/
def validate (params : CollateralRiskParams) : Except Fault Unit := do
  let loanToValue ← deref params.loanToValue
  let liquidationThreshold ← deref params.liquidationThreshold
  require (¬ liquidationThreshold ≤ loanToValue)
    (.err errCollateralParamsInvalid "loan-to-value must be < liquidation threshold")
  let basicLoanToValue ← deref params.basicLoanToValue
  require (¬ loanToValue < basicLoanToValue)
    (.err errCollateralParamsInvalid "basic loan-to-value must be <= loan-to-value")

end CollateralRiskParams

def zeroTotalBacking : TotalBacking := ⟨⟨microUSMDenom, 0⟩, ⟨attoIronDenom, 0⟩⟩

def zeroPoolBacking (denom : Denom) : PoolBacking := ⟨⟨microUSMDenom, 0⟩, ⟨denom, 0⟩, ⟨attoIronDenom, 0⟩⟩

def zeroTotalCollateral : TotalCollateral := ⟨⟨microUSMDenom, 0⟩, ⟨attoIronDenom, 0⟩⟩

def zeroPoolCollateral (denom : Denom) : PoolCollateral :=
  ⟨⟨denom, 0⟩, ⟨microUSMDenom, 0⟩, ⟨attoIronDenom, 0⟩⟩

def handleRegisterBackingProposal (ctx : Ctx) (state : State) (proposal : BackingRiskParams) :
    Except Fault State := do
  require ((state.store.backingParams.lookup proposal.backingDenom).isNone = true)
    (.err errBackingCoinAlreadyExists
      s!"backing coin denomination already registered: {proposal.backingDenom}")
  require (state.bank.hasSupply proposal.backingDenom)
    (.err errInvalidCoins s!"denomination '{proposal.backingDenom}' cannot have a supply of 0")
  let params := proposal.withDefaults
  params.validate ctx
  let store := state.store.setBackingRiskParams params
  let store := store.setTotalBacking (store.totalBacking.getD zeroTotalBacking)
  pure { state with store := store.setPoolBacking (zeroPoolBacking params.backingDenom) }

def handleRegisterCollateralProposal (state : State) (proposal : CollateralRiskParams) : Except Fault State := do
  require ((state.store.collateralParams.lookup proposal.collateralDenom).isNone = true)
    (.err errCollateralCoinAlreadyExists
      s!"collateral coin denomination already registered: {proposal.collateralDenom}")
  require (state.bank.hasSupply proposal.collateralDenom)
    (.err errInvalidCoins s!"denomination '{proposal.collateralDenom}' cannot have a supply of 0")
  let params := proposal.withDefaults
  params.validate
  let store := state.store.setCollateralRiskParams params
  let store := store.setTotalCollateral (store.totalCollateral.getD zeroTotalCollateral)
  pure { state with store := store.setPoolCollateral (zeroPoolCollateral params.collateralDenom) }

/-! ## Runs of the maker

A run is a list of events, each in its own context: a message, a registration proposal, or a change of
the backing ratio or of the risk parameters of a registered denomination to any value. A failed event is
rolled back. Other modules' use of the bank is not part of a run.
-/

open Model.App

inductive Action where
  | msg (msg : Msg)
  | registerBacking (params : BackingRiskParams)
  | registerCollateral (params : CollateralRiskParams)
  | setBackingRatio (ratio : Dec)
  | setBackingRiskParams (params : BackingRiskParams)
  | setCollateralRiskParams (params : CollateralRiskParams)

structure Event where
  ctx : Ctx
  action : Action

/-- One event; proposals have passed their stateless check. -/
def step (state : State) (event : Event) : Except Fault State :=
  match event.action with
  | .msg msg => msg.deliver event.ctx state
  | .registerBacking params => do
    params.validateBasic
    handleRegisterBackingProposal event.ctx state params
  | .registerCollateral params => do
    params.validateBasic
    handleRegisterCollateralProposal state params
  | .setBackingRatio ratio => pure { state with store.backingRatio := some ratio }
  | .setBackingRiskParams params => do
    require ((state.store.backingParams.lookup params.backingDenom).isSome = true)
      (.err errBackingCoinNotFound "")
    pure { state with store := state.store.setBackingRiskParams params }
  | .setCollateralRiskParams params => do
    require ((state.store.collateralParams.lookup params.collateralDenom).isSome = true)
      (.err errCollateralCoinNotFound "")
    pure { state with store := state.store.setCollateralRiskParams params }

/-- The module before any registration, over any bank. -/
def fresh (bank : Bank) : State := ⟨Store.empty, bank⟩

/-- The state after a run. -/
def run (bank : Bank) (events : List Event) : State := Machine.replay step (fresh bank) events

/-- A transaction needs a signature by its signer; the module account has no key to sign with. -/
def Signed (event : Event) : Prop :=
  ∀ msg, event.action = .msg msg → msg.signer ≠ ModuleAccount.maker.address

end Rotofury.Model.Maker
