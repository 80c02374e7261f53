import Rotofury.Model.Staking.Unbonding

/-! # Slashing

The entries of unbonding delegations and of redelegations that were created since an infraction are slashed; what falls on
a ve is burned from its lock, the rest from the pools. What is left is burned from the validator, of which the part that
its ves hold is not in the pools. `Slash` goes through all records of the validator; those of the store are visited in the order of
their keys, which plays no role here. The order in which the maps of burned amounts are visited is a parameter.
-/

namespace Rotofury.Model.Staking

open Model.Sdk Model.App Except

/-- The map from ves to the amounts burned from them. -/
abbrev BurnedAmounts := AList fun _ : ℕ => ℤ

def BurnedAmounts.add (burned : BurnedAmounts) (veId : ℕ) (amount : ℤ) : BurnedAmounts :=
  burned.insert veId ((burned.lookup veId).getD 0 + amount)

/-- An order in which the burned amounts are visited. Go visits the keys of a map in an order that differs between runs, and
so between the nodes of a chain. -/
structure BurnOrder where
  visit : BurnedAmounts → List (Sigma fun _ : ℕ => ℤ)
  perm : ∀ burned, (visit burned).Perm burned.entries

/-- The order in which the map's own list has its entries. -/
def BurnOrder.listed : BurnOrder := ⟨AList.entries, fun _ => .refl _⟩

/-- The body of the loop over the map. -/
def burnEntry (ctx : Ctx) (state : State) (entry : Sigma fun _ : ℕ => ℤ) : Except Fault State :=
  if 0 < entry.2 then slashVeDelegatedAmount ctx state entry.1 entry.2 else pure state

def burnFromVesIn (order : BurnOrder) (ctx : Ctx) (state : State) (burned : BurnedAmounts) : Except Fault State :=
  (order.visit burned).foldlM (burnEntry ctx) state

/-- `BurnBondedTokens` and `BurnNotBondedTokens` -/
def burnTokens (ctx : Ctx) (bank : Bank) (pool : ModuleAccount) (amount : ℤ) : Except Fault Bank :=
  if 0 < amount then mustSucceed "" (execOp bank (.burnCoins pool [⟨ctx.bondDenom, amount⟩])) else .ok bank

/-- The part of a slash that falls on one balance of a ve. -/
def veSlash (totalSlashAmt totalBalance : ℤ) (balance : VeUnbondingDelegationEntryBalances) : ℤ :=
  (totalSlashAmt * balance.balance).tdiv totalBalance

/-- `VeUnbondingDelegationEntry.Slash`: the parts of the ves in a slash. The loop works on copies of the balances, so the
new ones are lost and the entry stays as it is. -/
def VeUnbondingDelegationEntry.slash (entry : VeUnbondingDelegationEntry) (totalSlashAmt totalBalance : ℤ)
    (veBurnedAmounts : BurnedAmounts) : Except Fault (ℤ × BurnedAmounts) := do
  require (entry.veBalances = [] ∨ totalBalance ≠ 0) (.panic "division by zero")
  pure ((entry.veBalances.map (veSlash totalSlashAmt totalBalance)).sum,
    entry.veBalances.foldl (fun burned b => burned.add b.veId (veSlash totalSlashAmt totalBalance b)) veBurnedAmounts)

/-- What a slash of a record adds up. -/
structure SlashTally where
  totalSlashAmount : ℤ
  burnedAmount : ℤ
  veBurnedAmounts : BurnedAmounts

/-- Only what was created since the infraction and is not mature is slashed. -/
def UnbondingDelegationEntry.slashable (entry : UnbondingDelegationEntry) (ctx : Ctx) (infractionHeight : ℤ) : Prop :=
  infractionHeight ≤ entry.creationHeight ∧ ¬ entry.isMature ctx

instance (entry : UnbondingDelegationEntry) (ctx : Ctx) (infractionHeight : ℤ) :
    Decidable (entry.slashable ctx infractionHeight) := inferInstanceAs (Decidable (_ ∧ _))

/-- The slash in proportion to what was there first. -/
def slashAmount (slashFactor : Dec) (initialBalance : ℤ) : ℤ := (slashFactor.mulInt initialBalance).truncateInt

/-- No more is slashed than an entry holds. -/
def unbondingSlashAmount (slashFactor : Dec) (entry : UnbondingDelegationEntry) : ℤ :=
  min (slashAmount slashFactor entry.initialBalance) entry.balance

/-- One turn of the loop, with the entry it leaves. -/
def slashUnbondingEntry (ctx : Ctx) (infractionHeight : ℤ) (slashFactor : Dec) (tally : SlashTally) (pair : UnbondingPair) :
    Except Fault (SlashTally × UnbondingDelegationEntry) :=
  let entry := pair.1
  if entry.slashable ctx infractionHeight then
    let tally := { tally with
      totalSlashAmount := tally.totalSlashAmount + slashAmount slashFactor entry.initialBalance }
    let slashed := unbondingSlashAmount slashFactor entry
    if slashed = 0 then .ok (tally, entry)
    else do
      let (veSlashAmt, veBurnedAmounts) ← pair.2.slash slashed entry.balance tally.veBurnedAmounts
      pure ({ tally with
        burnedAmount := tally.burnedAmount + (slashed - veSlashAmt)
        veBurnedAmounts := veBurnedAmounts }, { entry with balance := entry.balance - slashed })
  else .ok (tally, entry)

def slashUnbondingEntries (ctx : Ctx) (infractionHeight : ℤ) (slashFactor : Dec) :
    SlashTally → List UnbondingPair → Except Fault (SlashTally × List UnbondingDelegationEntry)
  | tally, [] => .ok (tally, [])
  | tally, pair :: rest => do
    let (tally, entry) ← slashUnbondingEntry ctx infractionHeight slashFactor tally pair
    let (tally, entries) ← slashUnbondingEntries ctx infractionHeight slashFactor tally rest
    pure (tally, entry :: entries)

/-- `SlashUnbondingDelegation` of the record `unbondingDelegation`, with the amount to be slashed. The shadow is written
back as it was; the record is written where an entry has changed. -/
def slashUnbondingDelegationIn (order : BurnOrder) (ctx : Ctx) (state : State) (delAddr valAddr : Address)
    (unbondingDelegation : List UnbondingDelegationEntry) (infractionHeight : ℤ) (slashFactor : Dec) :
    Except Fault (State × ℤ) := do
  let veUbd ← shadowOf state.entries.veUnbondingDelegations (delAddr, valAddr) unbondingDelegation
    "inconsistent ve unbonding delegation"
  let (tally, slashed) ←
    slashUnbondingEntries ctx infractionHeight slashFactor ⟨0, 0, ∅⟩ (unbondingDelegation.zip veUbd)
  let unbondingDelegations :=
    if slashed = unbondingDelegation then state.entries.unbondingDelegations
    else state.entries.unbondingDelegations.insert (delAddr, valAddr) slashed
  let bank ← burnTokens ctx state.ve.bank .notBondedPool tally.burnedAmount
  let state := { state.setBank bank with
    entries := { state.entries with unbondingDelegations := unbondingDelegations } }
  let state ← burnFromVesIn order ctx state tally.veBurnedAmounts
  pure (state, tally.totalSlashAmount)

/-- With the burned amounts in the order of their list. -/
def slashUnbondingDelegation := slashUnbondingDelegationIn .listed

/-- `VeTokensSlice.AddToMap` -/
def addToMap (veTokens : List VeTokens) (veAmounts : BurnedAmounts) : BurnedAmounts :=
  veTokens.foldl (fun amounts vt => amounts.add vt.veId vt.tokens) veAmounts

/-- What a slash of a redelegation adds up, with the state it has come to. -/
structure RedelegationTally where
  state : State
  totalSlashAmount : ℤ
  bondedBurnedAmount : ℤ
  notBondedBurnedAmount : ℤ
  veBurnedAmounts : BurnedAmounts

def RedelegationEntry.slashable (entry : RedelegationEntry) (ctx : Ctx) (infractionHeight : ℤ) : Prop :=
  infractionHeight ≤ entry.creationHeight ∧ ¬ entry.isMature ctx

instance (entry : RedelegationEntry) (ctx : Ctx) (infractionHeight : ℤ) :
    Decidable (entry.slashable ctx infractionHeight) := inferInstanceAs (Decidable (_ ∧ _))

/-- The burned tokens lie in the pool of the destination. -/
def RedelegationTally.burn (tally : RedelegationTally) (status : BondStatus) (tokensToBurn : ℤ) :
    Except Fault RedelegationTally :=
  match status with
  | .bonded => .ok { tally with bondedBurnedAmount := tally.bondedBurnedAmount + tokensToBurn }
  | .unbonded | .unbonding => .ok { tally with notBondedBurnedAmount := tally.notBondedBurnedAmount + tokensToBurn }
  | .unspecified => .error (.panic "unknown validator status")

/-- The shares of an entry that are unbonded: no more than the delegation still has, and none where it is gone. -/
def sharesToUnbond (holdings : Holdings) (delAddr valDstAddr : Address) (slashFactor : Dec) (entry : RedelegationEntry) :
    Option Dec :=
  if (slashFactor.mul entry.sharesDst).isZero then none
  else (holdings.delegations (delAddr, valDstAddr)).map (slashFactor.mul entry.sharesDst).min

def dstValidatorOf (holdings : Holdings) (valDstAddr : Address) : Except Fault Validator :=
  match holdings.validators valDstAddr with
  | some dstValidator => .ok dstValidator
  | none => .error (.panic "destination validator not found")

/-- One turn of the loop: the slashed shares are unbonded from the destination. -/
def slashRedelegationEntry (ctx : Ctx) (delAddr valDstAddr : Address) (infractionHeight : ℤ) (slashFactor : Dec)
    (tally : RedelegationTally) (entry : RedelegationEntry) : Except Fault RedelegationTally :=
  if entry.slashable ctx infractionHeight then
    let tally := { tally with
      totalSlashAmount := tally.totalSlashAmount + slashAmount slashFactor entry.initialBalance }
    match sharesToUnbond tally.state.holdings delAddr valDstAddr slashFactor entry with
    | none => .ok tally
    | some shares => do
      let (state, returnAmount, veTokens) ←
        mustSucceed "error unbonding delegator: " (unbond ctx tally.state delAddr valDstAddr shares false)
      let dstValidator ← dstValidatorOf state.holdings valDstAddr
      { tally with state := state, veBurnedAmounts := addToMap veTokens tally.veBurnedAmounts }.burn
        dstValidator.status (returnAmount - totalTokens veTokens)
  else .ok tally

/-- `SlashRedelegation` of the record `redelegation`. -/
def slashRedelegationIn (order : BurnOrder) (ctx : Ctx) (state : State) (delAddr valSrcAddr valDstAddr : Address)
    (redelegation : List RedelegationEntry) (infractionHeight : ℤ) (slashFactor : Dec) : Except Fault (State × ℤ) := do
  let _ ← shadowOf state.entries.veRedelegations (delAddr, valSrcAddr, valDstAddr) redelegation
    "inconsistent ve redelegation"
  let tally ← redelegation.foldlM (slashRedelegationEntry ctx delAddr valDstAddr infractionHeight slashFactor)
    ⟨state, 0, 0, 0, ∅⟩
  let bank ← burnTokens ctx tally.state.ve.bank .bondedPool tally.bondedBurnedAmount
  let bank ← burnTokens ctx bank .notBondedPool tally.notBondedBurnedAmount
  let state ← burnFromVesIn order ctx (tally.state.setBank bank) tally.veBurnedAmounts
  pure (state, tally.totalSlashAmount)

def slashRedelegation := slashRedelegationIn .listed

/-- The part of the tokens to burn that the pools hold: `Slash` takes it from the shares that are not of ves. -/
def poolTokensToBurn (holdings : Holdings) (validator : Validator) (tokensToBurn : ℤ) : Except Fault ℤ :=
  match holdings.veValidators validator.operatorAddress with
  | some veDelegatorShares =>
    if validator.delegatorShares.isPositive then do
      let part ← ((Dec.ofInt tokensToBurn).mul (validator.delegatorShares - veDelegatorShares)).quo
        validator.delegatorShares
      pure part.truncateInt
    else .ok tokensToBurn
  | none => .ok tokensToBurn

/-- The slashing of all records that left a validator since the infraction, with what remains to be slashed. -/
def slashRecords (ctx : Ctx) (state : State) (valAddr : Address) (infractionHeight : ℤ) (slashFactor : Dec)
    (slashAmount : ℤ) : Except Fault (State × ℤ) := do
  let unbondings := state.entries.unbondingDelegations.entries.filter fun record => record.1.2 = valAddr
  let (state, remaining) ← unbondings.foldlM (fun (state, remaining) record => do
    let (state, amountSlashed) ←
      slashUnbondingDelegation ctx state record.1.1 record.1.2 record.2 infractionHeight slashFactor
    pure (state, remaining - amountSlashed)) (state, slashAmount)
  let redelegations := state.entries.redelegations.entries.filter fun record => record.1.2.1 = valAddr
  redelegations.foldlM (fun (state, remaining) record => do
    let (state, amountSlashed) ←
      slashRedelegation ctx state record.1.1 record.1.2.1 record.1.2.2 record.2 infractionHeight slashFactor
    pure (state, remaining - amountSlashed)) (state, remaining)

/-- `Slash` of the validator with the operator address `valAddr`; one that has been removed is not slashed. -/
def slash (ctx : Ctx) (state : State) (valAddr : Address) (infractionHeight : ℤ) (power : ℤ) (slashFactor : Dec) :
    Except Fault State := do
  require (¬ slashFactor.isNegative)
    (.panic s!"attempted to slash with a negative slash factor: {slashFactor}")
  let amount := power * ctx.powerReduction
  let slashAmount := ((Dec.ofInt amount).mul slashFactor).truncateInt
  match state.holdings.validators valAddr with
  | none => pure state
  | some validator => do
    require (validator.status ≠ .unbonded) (.panic s!"should not be slashing unbonded validator: {valAddr}")
    require (infractionHeight ≤ ctx.ve.blockHeight)
      (.panic s!"impossible attempt to slash future infraction at height {infractionHeight} but we are at height {ctx.ve.blockHeight}")
    let (state, remainingSlashAmount) ←
      if infractionHeight = ctx.ve.blockHeight then pure (state, slashAmount)
      else slashRecords ctx state valAddr infractionHeight slashFactor slashAmount
    let tokensToBurn := max (min remainingSlashAmount validator.tokens) 0
    let validator ← validator.removeTokens tokensToBurn
    let holdings := state.holdings.setValidator validator
    let tokensToBurn ← poolTokensToBurn holdings validator tokensToBurn
    let pool ← delegationPool validator.status
    let bank ← burnTokens ctx state.ve.bank pool tokensToBurn
    pure ((state.setHoldings holdings).setBank bank)

end Rotofury.Model.Staking
