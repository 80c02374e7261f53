import Rotofury.Model.Staking.Types

/-! # Delegating with ves

The setters of the store, the settling of a ve delegation after its validator was slashed, and `VeDelegate`: a delegation
of which a part is coins and the rest is locked in ves.
-/

namespace Rotofury.Model.Staking

open Model.Sdk Model.App
open Except (require)

/-- `panic(err)`, with a text before that of the error. -/
def mustSucceed {α : Type} (context : String) : Except Fault α → Except Fault α
  | .ok value => .ok value
  | .error (.panic reason) => .error (.panic reason)
  | .error (.err error detail) => .error (.panic s!"{context}{detail}: {error.description}")
  | .error (.insufficientFunds _ _) => .error (.panic s!"{context}insufficient funds")

@[simp]
theorem mustSucceed_ok_iff {α : Type} {context : String} {result : Except Fault α} {value : α} :
    mustSucceed context result = .ok value ↔ result = .ok value := by
  rcases result with (_ | _ | _) | _ <;> simp [mustSucceed]

/-- The parsing of an operator address that must not fail. -/
def mustValAddress (world : World) (text : String) : Except Fault Address :=
  match world.valAddressFromBech32 text with
  | some valAddr => .ok valAddr
  | none => .error (.panic "decoding bech32 failed")

@[simp]
theorem mustValAddress_ok_iff {world : World} {text : String} {valAddr : Address} :
    mustValAddress world text = .ok valAddr ↔ world.valAddressFromBech32 text = some valAddr := by
  unfold mustValAddress
  split <;> simp_all

namespace Holdings

def setValidator (holdings : Holdings) (validator : Validator) : Holdings :=
  { holdings with
    validators := Function.update holdings.validators validator.operatorAddress (some validator)
    operators := by
      intro valAddr found
      by_cases same : valAddr = validator.operatorAddress
      · subst same
        rw [Function.update_self]
        rintro ⟨⟩
        rfl
      · rw [Function.update_of_ne same]
        exact holdings.operators valAddr found }

def setDelegation (holdings : Holdings) (pair : DvPair) (shares : Dec) : Holdings :=
  { holdings with delegations := Function.update holdings.delegations pair (some shares) }

def removeDelegation (holdings : Holdings) (pair : DvPair) : Holdings :=
  { holdings with delegations := Function.update holdings.delegations pair none }

def setVeValidator (holdings : Holdings) (valAddr : Address) (veDelegatorShares : Dec) : Holdings :=
  { holdings with veValidators := Function.update holdings.veValidators valAddr (some veDelegatorShares) }

def removeVeValidator (holdings : Holdings) (valAddr : Address) : Holdings :=
  { holdings with veValidators := Function.update holdings.veValidators valAddr none }

/-- The record is stored under the addresses that are written in it. -/
def setVeDelegation (holdings : Holdings) (world : World) (delegation : VeDelegation) : Except Fault Holdings := do
  let valAddr ← mustValAddress world delegation.validatorAddress
  pure { holdings with
    veDelegations := holdings.veDelegations.insert (delegation.delegatorAddress, valAddr) delegation }

def removeVeDelegation (holdings : Holdings) (world : World) (delegation : VeDelegation) : Except Fault Holdings := do
  let valAddr ← mustValAddress world delegation.validatorAddress
  pure { holdings with veDelegations := holdings.veDelegations.erase (delegation.delegatorAddress, valAddr) }

/-- Write a record, or remove it where nothing is left in it. -/
def storeVeDelegation (holdings : Holdings) (world : World) (empty : Prop) [Decidable empty] (delegation : VeDelegation) :
    Except Fault Holdings :=
  if empty then holdings.removeVeDelegation world delegation else holdings.setVeDelegation world delegation

/-- An amount of zero is removed, or stored as such: it reads as zero either way. -/
def setVeDelegatedAmount (holdings : Holdings) (veId : ℕ) (amount : ℤ) : Holdings :=
  { holdings with veDelegatedAmount := Function.update holdings.veDelegatedAmount veId amount }

def subVeDelegatedAmount (holdings : Holdings) (veId : ℕ) (subAmount : ℤ) : Holdings :=
  holdings.setVeDelegatedAmount veId (holdings.veDelegatedAmount veId - subAmount)

def addValidatorTokensAndShares (holdings : Holdings) (validator : Validator) (tokensToAdd : ℕ) :
    Except Fault (Holdings × ℕ) := do
  let (validator, addedShares) ← validator.addTokensFromDel tokensToAdd
  pure (holdings.setValidator validator, addedShares)

end Holdings

def State.setHoldings (state : State) (holdings : Holdings) : State := { state with holdings := holdings }

def State.setBank (state : State) (bank : Bank) : State := { state with ve := { state.ve with bank := bank } }

def slashVeDelegatedAmount (ctx : Ctx) (state : State) (veId : ℕ) (burnAmount : ℤ) : Except Fault State :=
  if 0 < burnAmount then do
    let ve ← Ve.slashLockedAmountByUser ctx.ve state.ve veId burnAmount
    pure { state with holdings := state.holdings.subVeDelegatedAmount veId burnAmount, ve := ve }
  else .ok state

/-- The tokens of a ve as its shares are worth now. -/
def VeShares.settle (validator : Validator) (shares : VeShares) : VeShares :=
  { shares with tokensMayUnsettled := validator.worth shares.shares }

def VeDelegation.settle (validator : Validator) (delegation : VeDelegation) : VeDelegation :=
  { delegation with
    veShares := delegation.veShares.map (·.settle validator)
    nodup := by rw [List.map_map]; exact delegation.nodup }

/-- What the shares of a ve have lost is burned from its lock; a gain is not added to what it has delegated. -/
def burnUnsettled (ctx : Ctx) (validator : Validator) (state : State) (shares : VeShares) : Except Fault State := do
  let tokens ← validator.wholeTokensFromShares shares.shares
  slashVeDelegatedAmount ctx state shares.veId (shares.tokensMayUnsettled - tokens)

def settleVeDelegation (ctx : Ctx) (state : State) (delegation : VeDelegation) (validator : Validator) :
    Except Fault (State × VeDelegation) := do
  let state ← delegation.veShares.foldlM (burnUnsettled ctx validator) state
  let settled := delegation.settle validator
  let holdings ← state.holdings.storeVeDelegation ctx.world (settled.shares = 0) settled
  pure (state.setHoldings holdings, settled)

/-- `BondedTokensToNotBonded` and `NotBondedTokensToBonded` -/
def bondedTokensToNotBonded (ctx : Ctx) (bank : Bank) (tokens : ℤ) : Except Fault Bank :=
  mustSucceed "" (execOp bank (.sendCoinsFromModuleToModule .bondedPool .notBondedPool [⟨ctx.bondDenom, tokens⟩]))

def notBondedTokensToBonded (ctx : Ctx) (bank : Bank) (tokens : ℤ) : Except Fault Bank :=
  mustSucceed "" (execOp bank (.sendCoinsFromModuleToModule .notBondedPool .bondedPool [⟨ctx.bondDenom, tokens⟩]))

/-- The pool that holds the coins delegated to a validator. -/
def delegationPool : BondStatus → Except Fault ModuleAccount
  | .bonded => .ok .bondedPool
  | .unbonding | .unbonded => .ok .notBondedPool
  | .unspecified => .error (.panic "invalid validator status")

/-- Bring the unconstrained part of a delegation into the pool of the validator: from the account of the delegator, or,
in a redelegation, from the pool of the source. -/
def fundDelegation (ctx : Ctx) (bank : Bank) (delAddr : Address) (unconstrainedAmt : ℤ) (tokenSrc : BondStatus)
    (validator : Validator) (subtractAccount : Bool) : Except Fault Bank :=
  if subtractAccount then do
    require (tokenSrc ≠ .bonded) (.panic "delegation token source cannot be bonded")
    let pool ← delegationPool validator.status
    execOp bank (.sendCoinsFromAccountToModule delAddr pool [⟨ctx.bondDenom, unconstrainedAmt⟩])
  else
    match tokenSrc, decide (validator.status = .bonded) with
    | .bonded, true | .unbonded, false | .unbonding, false => .ok bank
    | .unbonded, true | .unbonding, true => notBondedTokensToBonded ctx bank unconstrainedAmt
    | .bonded, false => bondedTokensToNotBonded ctx bank unconstrainedAmt
    | .unspecified, _ => .error (.panic "unknown token source bond status")

/-- What a delegation has come to: the store, the shares of the delegation, the ve delegation, and the new shares. -/
structure Delegating where
  holdings : Holdings
  shares : Dec
  veDelegation : VeDelegation
  totalNewShares : ℕ

/-- The part of a delegation that is coins. -/
def delegateUnconstrained (ctx : Ctx) (state : State) (delAddr : Address) (unconstrainedAmt : ℤ) (tokenSrc : BondStatus)
    (validator : Validator) (subtractAccount : Bool) (veDelegation : VeDelegation) (shares : Dec) :
    Except Fault (Bank × Delegating) :=
  if 0 < unconstrainedAmt then do
    let bank ← fundDelegation ctx state.ve.bank delAddr unconstrainedAmt tokenSrc validator subtractAccount
    let (holdings, newShares) ← state.holdings.addValidatorTokensAndShares validator unconstrainedAmt.toNat
    let shares := shares + ⟨newShares⟩
    pure (bank, ⟨holdings.setDelegation (delAddr, validator.operatorAddress) shares, shares, veDelegation, newShares⟩)
  else .ok (state.ve.bank, ⟨state.holdings, shares, veDelegation, 0⟩)

/-- The part of a delegation that is locked in one ve. -/
def delegateVe (ctx : Ctx) (locks : ℕ → Ve.LockedBalance) (delAddr : Address) (validator : Validator)
    (delegating : Delegating) (veTokens : VeTokens) : Except Fault Delegating := do
  let veId := veTokens.veId
  require (veId ≠ Ve.emptyVeId) (.panic "invalid ve id")
  let locked := locks veId
  require (ctx.ve.blockTime < locked.endTime)
    (.err Ve.errInvalidRequest s!"ve expired due to unlocking time {locked.endTime}")
  let veShares := delegating.veDelegation.getSharesByVeId veId
  let veDelegatedAmt := delegating.holdings.veDelegatedAmount veId + veTokens.tokens
  require (veDelegatedAmt ≤ locked.amount) (.err Ve.errInvalidRequest "insufficient ve locked amount")
  let holdings := delegating.holdings.setVeDelegatedAmount veId veDelegatedAmt
  -- every part starts from the validator as it was found, so its record keeps the last part only
  let (holdings, newShares) ← holdings.addValidatorTokensAndShares validator veTokens.tokens
  let shares := delegating.shares + ⟨newShares⟩
  let veDelegation := delegating.veDelegation.setSharesByVeId (veShares.addTokensAndShares veTokens.tokens newShares)
  let holdings ← (holdings.setDelegation (delAddr, validator.operatorAddress) shares).setVeDelegation ctx.world veDelegation
  pure ⟨holdings, shares, veDelegation, delegating.totalNewShares + newShares⟩

/-- The ve delegation that is added to: the one on record, settled, or a new one, whose validator is named by the text of
the whole validator. -/
def openVeDelegation (ctx : Ctx) (state : State) (delAddr : Address) (validator : Validator) :
    Except Fault (State × VeDelegation) :=
  match state.holdings.veDelegations.lookup (delAddr, validator.operatorAddress) with
  | none => .ok (state, ⟨delAddr, ctx.world.validatorString validator, [], List.nodup_nil⟩)
  | some delegation => settleVeDelegation ctx state delegation validator

/-- The new shares, those for coins included, count as shares of ves. -/
def addVeDelegatorShares (holdings : Holdings) (valAddr : Address) (totalNewShares : ℕ) : Holdings :=
  if 0 < totalNewShares then
    holdings.setVeValidator valAddr ((holdings.veValidators valAddr).getD .zero + ⟨totalNewShares⟩)
  else holdings

def veDelegate (ctx : Ctx) (state : State) (delAddr : Address) (bondAmt : ℤ) (veTokens : List VeTokens)
    (tokenSrc : BondStatus) (validator : Validator) (subtractAccount : Bool) : Except Fault (State × ℕ) := do
  require (¬ validator.invalidExRate) (.err errDelegatorShareExRateInvalid "")
  let shares := (state.holdings.delegations (delAddr, validator.operatorAddress)).getD .zero
  let (state, veDelegation) ← openVeDelegation ctx state delAddr validator
  let unconstrainedAmt := bondAmt - totalTokens veTokens
  let (bank, delegating) ←
    delegateUnconstrained ctx state delAddr unconstrainedAmt tokenSrc validator subtractAccount veDelegation shares
  let delegated ← veTokens.foldlM (delegateVe ctx state.ve.store.lockedAmountByUser delAddr validator) delegating
  let holdings := addVeDelegatorShares delegated.holdings validator.operatorAddress delegated.totalNewShares
  pure ((state.setHoldings holdings).setBank bank, delegated.totalNewShares)

end Rotofury.Model.Staking
