import Rotofury.Model.Maker.Proposal

/-! # Changing risk parameters

A set proposal is a patch: the fields it carries are written through the pointers of the stored record, the others
stay. The record is then checked as a whole and stored, but only if the patch set anything. A batch applies its
patches in order and stops at the first error. Events are left out.
-/

namespace Rotofury.Model.Maker

open Model.Sdk

/-- Write a patch's field, if present, through the pointer to the stored field, and report whether it was. A stored
field that is absent is a nil pointer. -/
def updateField {α : Type} (target patch : Option α) : Except Fault (Option α × Bool) :=
  match patch with
  | none => pure (target, false)
  | some value => do
    let _ ← deref target
    pure (some value, true)

def updateInt (target patch : Option ℤ) : Except Fault (Option ℤ × Bool) := updateField target patch

def updateDecimal (target patch : Option Dec) : Except Fault (Option Dec × Bool) := updateField target patch

/-- The record with a patch written into it, and whether the patch set anything. -/
def updateBackingRiskParams (params patch : BackingRiskParams) : Except Fault (BackingRiskParams × Bool) := do
  let updated := params.enabled != patch.enabled
  let (maxBacking, updatedMaxBacking) ← updateInt params.maxBacking patch.maxBacking
  let (maxGridMint, updatedMaxGridMint) ← updateInt params.maxGridMint patch.maxGridMint
  let (mintFee, updatedMintFee) ← updateDecimal params.mintFee patch.mintFee
  let (burnFee, updatedBurnFee) ← updateDecimal params.burnFee patch.burnFee
  let (buybackFee, updatedBuybackFee) ← updateDecimal params.buybackFee patch.buybackFee
  let (rebackFee, updatedRebackFee) ← updateDecimal params.rebackFee patch.rebackFee
  pure (⟨params.backingDenom, patch.enabled, maxBacking, maxGridMint, mintFee, burnFee, buybackFee, rebackFee⟩,
    updated || updatedMaxBacking || updatedMaxGridMint || updatedMintFee || updatedBurnFee || updatedBuybackFee ||
      updatedRebackFee)

def updateCollateralRiskParams (params patch : CollateralRiskParams) :
    Except Fault (CollateralRiskParams × Bool) := do
  let updated := params.enabled != patch.enabled
  let (maxCollateral, updatedMaxCollateral) ← updateInt params.maxCollateral patch.maxCollateral
  let (maxGridMint, updatedMaxGridMint) ← updateInt params.maxGridMint patch.maxGridMint
  let (liquidationThreshold, updatedThreshold) ←
    updateDecimal params.liquidationThreshold patch.liquidationThreshold
  let (loanToValue, updatedLoanToValue) ← updateDecimal params.loanToValue patch.loanToValue
  let (basicLoanToValue, updatedBasicLoanToValue) ← updateDecimal params.basicLoanToValue patch.basicLoanToValue
  let (catalyticIronRatio, updatedCatalytic) ← updateDecimal params.catalyticIronRatio patch.catalyticIronRatio
  let (liquidationFee, updatedLiquidationFee) ← updateDecimal params.liquidationFee patch.liquidationFee
  let (mintFee, updatedMintFee) ← updateDecimal params.mintFee patch.mintFee
  let (interestFee, updatedInterestFee) ← updateDecimal params.interestFee patch.interestFee
  pure (⟨params.collateralDenom, patch.enabled, maxCollateral, maxGridMint, liquidationThreshold, loanToValue,
      basicLoanToValue, catalyticIronRatio, liquidationFee, mintFee, interestFee⟩,
    updated || updatedMaxCollateral || updatedMaxGridMint || updatedThreshold || updatedLoanToValue ||
      updatedBasicLoanToValue || updatedCatalytic || updatedLiquidationFee || updatedMintFee || updatedInterestFee)

/-- Find the stored record, write the patch into it, and if that set anything check the record and store it. -/
def setRiskParams {ρ : Type} (stored : Option ρ) (missing : RegisteredError) (detail : String)
    (update : ρ → Except Fault (ρ × Bool)) (validate : ρ → Except Fault Unit) (write : ρ → State) (state : State) :
    Except Fault State := do
  let params ← Store.found stored missing detail
  let (params, updated) ← update params
  if updated then do
    validate params
    pure (write params)
  else pure state

-- the error texts print the denomination of the record that was not found, which is empty

def setBackingRiskParamsProposal (ctx : Ctx) (state : State) (patch : BackingRiskParams) : Except Fault State :=
  setRiskParams (state.store.backingParams.lookup patch.backingDenom) errBackingCoinNotFound
    "backing coin denomination not found: " (updateBackingRiskParams · patch) (BackingRiskParams.validate ctx)
    (fun params => { state with store := state.store.setBackingRiskParams params }) state

def setCollateralRiskParamsProposal (state : State) (patch : CollateralRiskParams) : Except Fault State :=
  setRiskParams (state.store.collateralParams.lookup patch.collateralDenom) errCollateralCoinNotFound
    "collateral coin denomination not found: " (updateCollateralRiskParams · patch) CollateralRiskParams.validate
    (fun params => { state with store := state.store.setCollateralRiskParams params }) state

/-- The content of a maker proposal. -/
inductive Proposal where
  | registerBacking (riskParams : BackingRiskParams)
  | registerCollateral (riskParams : CollateralRiskParams)
  | setBackingRiskParams (riskParams : BackingRiskParams)
  | setCollateralRiskParams (riskParams : CollateralRiskParams)
  | batchSetBackingRiskParams (riskParams : List BackingRiskParams)
  | batchSetCollateralRiskParams (riskParams : List CollateralRiskParams)
deriving DecidableEq, Repr

namespace Proposal

def validateBasic : Proposal → Except Fault Unit
  | .registerBacking riskParams => riskParams.validateBasic
  | .registerCollateral riskParams => riskParams.validateBasic
  | .setBackingRiskParams riskParams => riskParams.validateBasic
  | .setCollateralRiskParams riskParams => riskParams.validateBasic
  | .batchSetBackingRiskParams riskParams => riskParams.forM BackingRiskParams.validateBasic
  | .batchSetCollateralRiskParams riskParams => riskParams.forM CollateralRiskParams.validateBasic

/-- The module's proposal handler. -/
def handle (ctx : Ctx) (state : State) : Proposal → Except Fault State
  | .registerBacking riskParams => handleRegisterBackingProposal ctx state riskParams
  | .registerCollateral riskParams => handleRegisterCollateralProposal state riskParams
  | .setBackingRiskParams riskParams => setBackingRiskParamsProposal ctx state riskParams
  | .setCollateralRiskParams riskParams => setCollateralRiskParamsProposal state riskParams
  | .batchSetBackingRiskParams riskParams => riskParams.foldlM (setBackingRiskParamsProposal ctx) state
  | .batchSetCollateralRiskParams riskParams => riskParams.foldlM setCollateralRiskParamsProposal state

end Proposal

/-- What happens to the module between two blocks: messages, and proposals that have passed. -/
inductive GovernedAction where
  | msg (msg : Msg)
  | proposal (proposal : Proposal)

/-- One action in its context. A proposal was checked when it was submitted. -/
def governedStep (state : State) (event : Ctx × GovernedAction) : Except Fault State :=
  match event.2 with
  | .msg msg => msg.deliver event.1 state
  | .proposal proposal => do
    proposal.validateBasic
    proposal.handle event.1 state

end Rotofury.Model.Maker
