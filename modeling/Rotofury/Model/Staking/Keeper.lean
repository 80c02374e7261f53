import Rotofury.Model.Staking.Slash
import Rotofury.Model.Ve.Nft

/-! # The calls that move delegations of ves

A call that fails is undone, with all it has written, by the transaction it is part of.
-/

namespace Rotofury.Model.Staking

open Model.Sdk Model.App Except

inductive Call where
  | veDelegate (delAddr : Address) (bondAmt : ℤ) (veTokens : List VeTokens) (tokenSrc : BondStatus) (validator : Validator)
      (subtractAccount : Bool)
  | undelegate (delAddr valAddr : Address) (sharesAmount : Dec)
  | beginRedelegation (delAddr valSrcAddr valDstAddr : Address) (sharesAmount : Dec)
  | completeUnbonding (delAddr valAddr : Address)
  | slashUnbondingDelegation (delAddr valAddr : Address) (unbondingDelegation : List UnbondingDelegationEntry)
      (infractionHeight : ℤ) (slashFactor : Dec)
  | slashRedelegation (delAddr valSrcAddr valDstAddr : Address) (redelegation : List RedelegationEntry)
      (infractionHeight : ℤ) (slashFactor : Dec)

def Call.run (ctx : Ctx) (state : State) : Call → Except Fault State
  | .veDelegate delAddr bondAmt veTokens tokenSrc validator subtractAccount =>
    Prod.fst <$> Staking.veDelegate ctx state delAddr bondAmt veTokens tokenSrc validator subtractAccount
  | .undelegate delAddr valAddr sharesAmount => Prod.fst <$> Staking.undelegate ctx state delAddr valAddr sharesAmount
  | .beginRedelegation delAddr valSrcAddr valDstAddr sharesAmount =>
    Prod.fst <$> Staking.beginRedelegation ctx state delAddr valSrcAddr valDstAddr sharesAmount
  | .completeUnbonding delAddr valAddr => do
    let (state, outcome) ← Staking.completeUnbonding ctx state delAddr valAddr
    let _ ← outcome
    pure state
  | .slashUnbondingDelegation delAddr valAddr unbondingDelegation infractionHeight slashFactor =>
    Prod.fst <$> Staking.slashUnbondingDelegation ctx state delAddr valAddr unbondingDelegation infractionHeight slashFactor
  | .slashRedelegation delAddr valSrcAddr valDstAddr redelegation infractionHeight slashFactor =>
    Prod.fst <$>
      Staking.slashRedelegation ctx state delAddr valSrcAddr valDstAddr redelegation infractionHeight slashFactor

/-- The calls that move shares of ves between validators. -/
inductive ShareCall where
  | veDelegate (delAddr : Address) (bondAmt : ℤ) (veTokens : List VeTokens) (tokenSrc : BondStatus) (validator : Validator)
      (subtractAccount : Bool)
  | unbond (delAddr valAddr : Address) (shares : Dec) (updateVeAmt : Bool)
  | beginRedelegation (delAddr valSrcAddr valDstAddr : Address) (sharesAmount : Dec)

def ShareCall.run (ctx : Ctx) (state : State) : ShareCall → Except Fault State
  | .veDelegate delAddr bondAmt veTokens tokenSrc validator subtractAccount =>
    Prod.fst <$> Staking.veDelegate ctx state delAddr bondAmt veTokens tokenSrc validator subtractAccount
  | .unbond delAddr valAddr shares updateVeAmt => Prod.fst <$> Staking.unbond ctx state delAddr valAddr shares updateVeAmt
  | .beginRedelegation delAddr valSrcAddr valDstAddr sharesAmount =>
    Prod.fst <$> Staking.beginRedelegation ctx state delAddr valSrcAddr valDstAddr sharesAmount

/-- `Slash` calls `SlashUnbondingDelegation` with the records it finds in the store. -/
def slashStoredUnbonding (ctx : Ctx) (state : State) (delAddr valAddr : Address) (infractionHeight : ℤ) (slashFactor : Dec) :
    Except Fault State :=
  match state.entries.unbondingDelegations.lookup (delAddr, valAddr) with
  | none => .ok state
  | some unbondingDelegation =>
    Prod.fst <$> slashUnbondingDelegation ctx state delAddr valAddr unbondingDelegation infractionHeight slashFactor

/-- `Slash` calls `SlashRedelegation` with the records it finds in the store. -/
def slashStoredRedelegation (ctx : Ctx) (state : State) (delAddr valSrcAddr valDstAddr : Address) (infractionHeight : ℤ)
    (slashFactor : Dec) : Except Fault State :=
  match state.entries.redelegations.lookup (delAddr, valSrcAddr, valDstAddr) with
  | none => .ok state
  | some redelegation =>
    Prod.fst <$> slashRedelegation ctx state delAddr valSrcAddr valDstAddr redelegation infractionHeight slashFactor

/-- A slash of the unbonding record that a delegator has with a validator. -/
structure UnbondingSlash where
  ctx : Ctx
  delAddr : Address
  valAddr : Address
  infractionHeight : ℤ
  slashFactor : Dec

def UnbondingSlash.step (state : State) (event : UnbondingSlash) : Except Fault State :=
  slashStoredUnbonding event.ctx state event.delAddr event.valAddr event.infractionHeight event.slashFactor

/-- The calls that write records of entries, and whatever else changes the rest of the state. -/
inductive RecordCall where
  | undelegate (delAddr valAddr : Address) (sharesAmount : Dec)
  | beginRedelegation (delAddr valSrcAddr valDstAddr : Address) (sharesAmount : Dec)
  | slashUnbondingDelegation (delAddr valAddr : Address) (infractionHeight : ℤ) (slashFactor : Dec)
  | slashRedelegation (delAddr valSrcAddr valDstAddr : Address) (infractionHeight : ℤ) (slashFactor : Dec)
  | completeUnbonding (delAddr valAddr : Address)
  | completeRedelegation (delAddr valSrcAddr valDstAddr : Address)
  | other (holdings : Holdings) (ve : Ve.State)

structure RecordEvent where
  ctx : Ctx
  call : RecordCall

def RecordEvent.step (state : State) (event : RecordEvent) : Except Fault State :=
  match event.call with
  | .undelegate delAddr valAddr sharesAmount => Prod.fst <$> Staking.undelegate event.ctx state delAddr valAddr sharesAmount
  | .beginRedelegation delAddr valSrcAddr valDstAddr sharesAmount =>
    Prod.fst <$> Staking.beginRedelegation event.ctx state delAddr valSrcAddr valDstAddr sharesAmount
  | .slashUnbondingDelegation delAddr valAddr infractionHeight slashFactor =>
    slashStoredUnbonding event.ctx state delAddr valAddr infractionHeight slashFactor
  | .slashRedelegation delAddr valSrcAddr valDstAddr infractionHeight slashFactor =>
    slashStoredRedelegation event.ctx state delAddr valSrcAddr valDstAddr infractionHeight slashFactor
  -- the end of the block passes over a returned error, and what was written by then stays
  | .completeUnbonding delAddr valAddr => Prod.fst <$> Staking.completeUnbonding event.ctx state delAddr valAddr
  | .completeRedelegation delAddr valSrcAddr valDstAddr =>
    Prod.fst <$> Staking.completeRedelegation event.ctx state delAddr valSrcAddr valDstAddr
  | .other holdings ve => .ok { state with holdings := holdings, ve := ve }

/-! ## How the keepers are wired

The ve module does not know the staking module. It asks how much of a ve is delegated through a function in its keeper,
which the staking module's `NewKeeper` is to set there.
-/

/-- What the keeper of the ve module holds besides its stores. -/
structure VeKeeper where
  getDelegatedAmount : Option (State → ℕ → ℤ)

namespace VeKeeper

/-- `NewKeeper` of the ve module -/
def newKeeper : VeKeeper := ⟨none⟩

/-- A method with a value receiver writes to a copy of the keeper; the keeper of the caller stays as it is. -/
def onCopy (method : VeKeeper → VeKeeper) (keeper : VeKeeper) : VeKeeper :=
  let _copy := method keeper
  keeper

def setGetDelegatedAmountByUser (keeper : VeKeeper) (getDelegatedAmount : State → ℕ → ℤ) : VeKeeper :=
  keeper.onCopy fun copy => { copy with getDelegatedAmount := some getDelegatedAmount }

end VeKeeper

structure Keeper where
  veKeeper : VeKeeper

/-- `NewKeeper` of the staking module -/
def newKeeper (veKeeper : VeKeeper) : Keeper :=
  ⟨veKeeper.setGetDelegatedAmountByUser fun state veId => state.holdings.veDelegatedAmount veId⟩

/-- The keepers of the app. -/
structure AppKeepers where
  veKeeper : VeKeeper
  stakingKeeper : Keeper

/-- The app serves the messages of the ve module with the keeper it has built, and hands a copy of it to the staking
module. -/
def newAppKeepers : AppKeepers :=
  let veKeeper := VeKeeper.newKeeper
  ⟨veKeeper, newKeeper veKeeper⟩

/-- The context in which the ve module serves a message. -/
def Ctx.wired (ctx : Ctx) (state : State) : Ve.Ctx :=
  { ctx.ve with
    delegatedAmount := newAppKeepers.veKeeper.getDelegatedAmount.map fun getDelegatedAmount => getDelegatedAmount state }

/-- The calls that change what ves have delegated or locked. -/
inductive EscrowCall where
  | veDelegate (delAddr : Address) (bondAmt : ℤ) (veTokens : List VeTokens) (tokenSrc : BondStatus) (validator : Validator)
      (subtractAccount : Bool)
  | slashVeDelegatedAmount (veId : ℕ) (burnAmount : ℤ)
  | subVeDelegatedAmount (veId : ℕ) (subAmount : ℤ)
  | withdraw (msg : Ve.MsgWithdraw)
  | merge (msg : Ve.MsgMerge)

def EscrowCall.run (ctx : Ctx) (state : State) : EscrowCall → Except Fault State
  | .veDelegate delAddr bondAmt veTokens tokenSrc validator subtractAccount =>
    Prod.fst <$> Staking.veDelegate ctx state delAddr bondAmt veTokens tokenSrc validator subtractAccount
  | .slashVeDelegatedAmount veId burnAmount => Staking.slashVeDelegatedAmount ctx state veId burnAmount
  | .subVeDelegatedAmount veId subAmount => .ok (state.setHoldings (state.holdings.subVeDelegatedAmount veId subAmount))
  | .withdraw msg => do
    msg.validateBasic
    let ve ← Ve.withdraw (ctx.wired state) state.ve msg
    pure { state with ve := ve }
  | .merge msg => do
    msg.validateBasic
    let ve ← Ve.merge (ctx.wired state) state.ve msg
    pure { state with ve := ve }

/-! ## The staking message for ves, and who may send it

`MsgVeDelegate` delegates coins locked in a ve. Together with the messages of the ve module it makes up what an account
can do with a ve.
-/

/-- An error that no module has registered. -/
def errInternal : RegisteredError := ⟨"undefined", 1, "internal"⟩

structure MsgVeDelegate where
  delegatorAddress : Address
  validatorAddress : String
  veId : String
  amount : Coin
deriving DecidableEq, Repr

def MsgVeDelegate.validateBasic (msg : MsgVeDelegate) : Except Fault Unit := do
  require (msg.validatorAddress ≠ "") (.err errEmptyValidatorAddr "")
  require (Ve.uint64FromVeId msg.veId ≠ Ve.emptyVeId) (.err Ve.errInvalidRequest "invalid ve id")
  require (0 < msg.amount.amount) (.err Ve.errInvalidRequest "invalid delegation amount")

/-- The validator a message names. -/
def findValidator (ctx : Ctx) (holdings : Holdings) (validatorAddress : String) : Except Fault Validator :=
  match ctx.world.valAddressFromBech32 validatorAddress with
  | none => .error (.err errInternal "decoding bech32 failed")
  | some valAddr =>
    match holdings.validators valAddr with
    | none => .error (.err errNoValidatorFound "")
    | some validator => .ok validator

/-- The refusal on the ground of ownership. -/
def notOwned (veId : String) : Fault := .err Ve.errInvalidRequest s!"ve {veId} not owned by delegator"

def MsgVeDelegate.serve (ctx : Ctx) (state : State) (msg : MsgVeDelegate) : Except Fault State := do
  let validator ← findValidator ctx state.holdings msg.validatorAddress
  require (msg.amount.denom = ctx.bondDenom)
    (.err Ve.errInvalidRequest s!"invalid coin denomination: got {msg.amount.denom}, expected {ctx.bondDenom}")
  -- it is the owner that is refused
  require (state.ve.store.getOwner msg.veId ≠ some msg.delegatorAddress) (notOwned msg.veId)
  let veTokens := [⟨Ve.uint64FromVeId msg.veId, msg.amount.amount.toNat⟩]
  let (state, _) ← veDelegate ctx state msg.delegatorAddress msg.amount.amount veTokens .unbonded validator true
  pure state

/-- What an account can do with a ve. -/
inductive DisposalMsg where
  | ve (msg : Ve.OwnerMsg)
  | veDelegate (msg : MsgVeDelegate)
deriving DecidableEq, Repr

namespace DisposalMsg

/-- `GetSigners` -/
def signer : DisposalMsg → Address
  | .ve (.extendTime sender _ _) | .ve (.merge sender _ _) | .ve (.withdraw sender _) => sender
  | .veDelegate msg => msg.delegatorAddress

/-- The ves a message names. -/
def veIds : DisposalMsg → List String
  | .ve (.extendTime _ veId _) | .ve (.withdraw _ veId) => [veId]
  | .ve (.merge _ fromVeId toVeId) => [fromVeId, toVeId]
  | .veDelegate msg => [msg.veId]

def run (ctx : Ctx) (state : State) : DisposalMsg → Except Fault State
  | .ve msg => do
    msg.validateBasic
    let ve ← msg.serve (ctx.wired state) state.ve
    pure { state with ve := ve }
  | .veDelegate msg => do
    msg.validateBasic
    msg.serve ctx state

end DisposalMsg

end Rotofury.Model.Staking
