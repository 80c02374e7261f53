import Rotofury.Model.Staking.Delegation

/-! # Unbonding and redelegating

`Unbond` takes shares from a delegation: first those of coins, then those of the ves in the order they are on record.
`Undelegate` and `BeginRedelegation` append an entry to the record of the SDK and one to its shadow; `CompleteUnbonding`
and `CompleteRedelegation` drop the mature entries of both.
-/

namespace Rotofury.Model.Staking

open Model.Sdk Model.App Except

/-- What the loop over a ve delegation draws: the ves it reaches, each with the shares that go, the ves it does not reach,
and what it did not find. -/
structure Drawing where
  taken : List (VeShares × ℕ)
  untouched : List VeShares
  remaining : ℕ

/-- Draw shares from the ves in their order until none remain to be drawn. -/
def draw : ℕ → List VeShares → Drawing
  | remaining, [] => ⟨[], [], remaining⟩
  | remaining, shares :: rest =>
    if remaining = 0 then ⟨[], shares :: rest, 0⟩
    else
      let minShares := min remaining shares.shares
      let later := draw (remaining - minShares) rest
      { later with taken := (shares, minShares) :: later.taken }

theorem draw_split (remaining : ℕ) (veShares : List VeShares) :
    (draw remaining veShares).taken.map Prod.fst ++ (draw remaining veShares).untouched = veShares := by
  induction veShares generalizing remaining with
  | nil => rfl
  | cons shares rest ih =>
    unfold draw
    split
    · rfl
    · simp [ih]

/-- The tokens that go with the shares drawn from a ve. -/
def takenTokens (validator : Validator) (take : VeShares × ℕ) : ℕ := if 0 < take.2 then validator.worth take.2 else 0

/-- What a ve keeps; a ve without shares is dropped from the record. -/
def leftShares (validator : Validator) (take : VeShares × ℕ) : Option VeShares :=
  if take.1.shares - take.2 = 0 then none
  else some ⟨take.1.veId, take.1.tokensMayUnsettled - takenTokens validator take, take.1.shares - take.2⟩

namespace Drawing

/-- The record after the draw. -/
def left (drawing : Drawing) (validator : Validator) : List VeShares :=
  drawing.taken.filterMap (leftShares validator) ++ drawing.untouched

/-- The tokens drawn from each ve. -/
def veTokens (drawing : Drawing) (validator : Validator) : List VeTokens :=
  drawing.taken.filterMap fun take => if 0 < take.2 then some ⟨take.1.veId, validator.worth take.2⟩ else none

end Drawing

theorem leftShares_ids_sublist (validator : Validator) (taken : List (VeShares × ℕ)) :
    ((taken.filterMap (leftShares validator)).map (·.veId)).Sublist ((taken.map Prod.fst).map (·.veId)) := by
  induction taken with
  | nil => exact .slnil
  | cons take rest ih =>
    rw [List.filterMap_cons]
    unfold leftShares
    split
    · next absent => exact ih.cons _
    · next kept found =>
      split at found
      · cases found
      · cases found
        exact ih.cons_cons _

theorem left_nodup {veShares : List VeShares} (nodup : (veShares.map (·.veId)).Nodup) (validator : Validator) (total : ℕ) :
    (((draw total veShares).left validator).map (·.veId)).Nodup := by
  rw [← draw_split total veShares, List.map_append] at nodup
  rw [Drawing.left, List.map_append]
  exact nodup.sublist ((leftShares_ids_sublist validator _).append_right _)

/-- A ve delegation after shares were drawn from it. -/
def VeDelegation.drawn (delegation : VeDelegation) (validator : Validator) (total : ℕ) : VeDelegation :=
  { delegation with
    veShares := (draw total delegation.veShares).left validator
    nodup := left_nodup delegation.nodup validator total }

/-- The tokens of the shares drawn from a ve; without shares nothing is divided. -/
def drawnTokens (validator : Validator) (minShares : ℕ) : Except Fault ℕ :=
  if 0 < minShares then validator.wholeTokensFromShares minShares else .ok 0

/-- One turn of the loop: the tokens must be there, and count as delegated no longer where that is asked for. -/
def takeShares (validator : Validator) (updateVeAmt : Bool) (holdings : Holdings) (take : VeShares × ℕ) :
    Except Fault Holdings := do
  let amt ← drawnTokens validator take.2
  require (0 < take.2 → 0 ≤ take.1.tokensMayUnsettled - amt) (.panic "inconsistent tokens and shares")
  pure (if updateVeAmt then holdings.subVeDelegatedAmount take.1.veId amt else holdings)

namespace Holdings

def removeValidator (holdings : Holdings) (valAddr : Address) : Holdings :=
  { holdings with
    validators := Function.update holdings.validators valAddr none
    operators := by
      intro query found
      by_cases same : query = valAddr
      · subst same
        simp
      · rw [Function.update_of_ne same]
        exact holdings.operators query found }

/-- A delegation without shares is removed. -/
def storeDelegation (holdings : Holdings) (pair : DvPair) (shares : Dec) : Holdings :=
  if shares.isZero then holdings.removeDelegation pair else holdings.setDelegation pair shares

/-- A validator whose own delegation falls below its minimum is jailed. -/
def jailBelowMinimum (holdings : Holdings) (delAddr : Address) (validator : Validator) (shares : Dec) :
    Except Fault (Holdings × Validator) :=
  if delAddr = validator.operatorAddress ∧ validator.jailed = false then do
    let value ← validator.tokensFromShares shares
    if value.truncateInt < validator.minSelfDelegation then
      let validator := { validator with jailed := true }
      pure (holdings.setValidator validator, validator)
    else pure (holdings, validator)
  else .ok (holdings, validator)

def removeValidatorTokensAndShares (holdings : Holdings) (validator : Validator) (shares : Dec) :
    Except Fault (Holdings × Validator × ℤ) := do
  let (validator, removedTokens) ← validator.removeDelShares shares
  pure (holdings.setValidator validator, validator, removedTokens)

/-- An unbonded validator without shares is removed; it has no tokens either. -/
def dropEmptyValidator (holdings : Holdings) (validator : Validator) : Holdings :=
  if validator.delegatorShares.isZero ∧ validator.status = .unbonded then
    holdings.removeValidator validator.operatorAddress
  else holdings

/-- The end of `Unbond`: the validator goes with its ve shares, or loses those that were drawn. -/
def removeVeDelegatorShares (holdings : Holdings) (validator : Validator) (totalVeShares : ℕ) : Except Fault Holdings :=
  let valAddr := validator.operatorAddress
  if validator.delegatorShares.isZero ∧ validator.status = .unbonded then
    .ok ((holdings.removeValidator valAddr).removeVeValidator valAddr)
  else if 0 < totalVeShares then
    match holdings.veValidators valAddr with
    | none => .error (.panic "inconsistent ve validator")
    | some veDelegatorShares => do
      let remaining := veDelegatorShares - ⟨totalVeShares⟩
      require (¬ remaining.isNegative) (.panic "inconsistent ve validator")
      pure (holdings.setVeValidator valAddr remaining)
  else .ok holdings

/-- The lookups that end in an error where nothing is found. -/
def validator (holdings : Holdings) (valAddr : Address) (error : RegisteredError) : Except Fault Validator :=
  match holdings.validators valAddr with
  | some validator => .ok validator
  | none => .error (.err error "")

@[simp]
theorem validator_ok_iff {holdings : Holdings} {valAddr : Address} {error : RegisteredError} {found : Validator} :
    holdings.validator valAddr error = .ok found ↔ holdings.validators valAddr = some found := by
  unfold validator
  split <;> simp_all

def delegation (holdings : Holdings) (pair : DvPair) : Except Fault Dec :=
  match holdings.delegations pair with
  | some shares => .ok shares
  | none => .error (.err errNoDelegatorForAddress "")

@[simp]
theorem delegation_ok_iff {holdings : Holdings} {pair : DvPair} {shares : Dec} :
    holdings.delegation pair = .ok shares ↔ holdings.delegations pair = some shares := by
  unfold delegation
  split <;> simp_all

end Holdings

def requireEnoughShares (delegated shares : Dec) : Except Fault Unit :=
  require (¬ delegated < shares) (.err errNotEnoughDelegationShares (toString delegated))

/-- The SDK's `Unbond`, for a delegation without ves. -/
def unbondCoins (holdings : Holdings) (delAddr valAddr : Address) (delegated shares : Dec) :
    Except Fault (Holdings × ℤ) := do
  requireEnoughShares delegated shares
  let validator ← holdings.validator valAddr errNoValidatorFound
  let (holdings, validator) ← holdings.jailBelowMinimum delAddr validator (delegated - shares)
  let holdings := holdings.storeDelegation (delAddr, valAddr) (delegated - shares)
  let (holdings, validator, amount) ← holdings.removeValidatorTokensAndShares validator shares
  pure (holdings.dropEmptyValidator validator, amount)

/-- `Unbond` where the delegation has a part of ves, from the settled record on. -/
def unbondSettled (ctx : Ctx) (holdings : Holdings) (delAddr valAddr : Address) (delegated shares : Dec)
    (updateVeAmt : Bool) (veDelegation : VeDelegation) (validator : Validator) :
    Except Fault (Holdings × ℤ × List VeTokens) := do
  let unconstrainedShares := delegated - ⟨veDelegation.shares⟩
  let (holdings, validator) ← holdings.jailBelowMinimum delAddr validator (delegated - shares)
  -- `MaxDec(shares - unconstrainedShares, 0)`
  let totalVeShares := (shares - unconstrainedShares).raw.toNat
  let drawing := draw totalVeShares veDelegation.veShares
  let holdings ← drawing.taken.foldlM (takeShares validator updateVeAmt) holdings
  let veDelegation := veDelegation.drawn validator totalVeShares
  let holdings ← holdings.storeVeDelegation ctx.world (veDelegation.veShares = []) veDelegation
  require (drawing.remaining = 0) (.panic "inconsistent shares")
  let holdings := holdings.storeDelegation (delAddr, valAddr) (delegated - shares)
  let (holdings, removed, amount) ← holdings.removeValidatorTokensAndShares validator shares
  let holdings ← holdings.removeVeDelegatorShares removed totalVeShares
  pure (holdings, amount, drawing.veTokens validator)

def unbond (ctx : Ctx) (state : State) (delAddr valAddr : Address) (shares : Dec) (updateVeAmt : Bool) :
    Except Fault (State × ℤ × List VeTokens) := do
  let delegated ← state.holdings.delegation (delAddr, valAddr)
  match state.holdings.veDelegations.lookup (delAddr, valAddr) with
  | none => do
    let (holdings, amount) ← unbondCoins state.holdings delAddr valAddr delegated shares
    pure (state.setHoldings holdings, amount, [])
  | some veDelegation => do
    requireEnoughShares delegated shares
    let validator ← state.holdings.validator valAddr errNoValidatorFound
    let (state, veDelegation) ← settleVeDelegation ctx state veDelegation validator
    let (holdings, amount, veTokens) ←
      unbondSettled ctx state.holdings delAddr valAddr delegated shares updateVeAmt veDelegation validator
    pure (state.setHoldings holdings, amount, veTokens)

namespace Entries

/-- `SetUnbondingDelegationEntry` and `SetVeUnbondingDelegationEntry`: one entry more in each record. -/
def addUnbonding (entries : Entries) (pair : DvPair) (entry : UnbondingDelegationEntry) (veTokens : List VeTokens) :
    Except Fault Entries := do
  let veEntry : VeUnbondingDelegationEntry := ⟨veTokens.map fun vt => ⟨vt.veId, vt.tokens, vt.tokens⟩⟩
  let ubd := (entries.unbondingDelegations.lookup pair).getD [] ++ [entry]
  let veUbd := (entries.veUnbondingDelegations.lookup pair).getD [] ++ [veEntry]
  require (ubd.length = veUbd.length) (.panic "inconsistent ve unbonding delegation entries")
  pure { entries with
    unbondingDelegations := entries.unbondingDelegations.insert pair ubd
    veUnbondingDelegations := entries.veUnbondingDelegations.insert pair veUbd }

/-- `VeRedelegation.AddEntry`: each ve has its part of the shares. -/
def veRedelegationEntry (veTokens : List VeTokens) (totalAmt : ℤ) (totalShares : Dec) : Except Fault VeRedelegationEntry := do
  let veShares ← veTokens.mapM fun vt => do
    let sharesDst ← (totalShares.mulInt vt.tokens).quoInt totalAmt
    pure (⟨vt.veId, vt.tokens, sharesDst⟩ : VeRedelegationEntryShares)
  pure ⟨veShares⟩

/-- `SetRedelegationEntry` and `SetVeRedelegationEntry` -/
def addRedelegation (entries : Entries) (triplet : DvvTriplet) (entry : RedelegationEntry) (veTokens : List VeTokens) :
    Except Fault Entries := do
  let veEntry ← veRedelegationEntry veTokens entry.initialBalance entry.sharesDst
  let red := (entries.redelegations.lookup triplet).getD [] ++ [entry]
  let veRed := (entries.veRedelegations.lookup triplet).getD [] ++ [veEntry]
  require (red.length = veRed.length) (.panic "inconsistent ve redelegation entries")
  pure { entries with
    redelegations := entries.redelegations.insert triplet red
    veRedelegations := entries.veRedelegations.insert triplet veRed }

/-- A record is full; one that does not exist is not. -/
def full {α : Type} (record : Option (List α)) (maxEntries : ℕ) : Prop := ∃ found ∈ record, maxEntries ≤ found.length

instance {α : Type} (record : Option (List α)) (maxEntries : ℕ) : Decidable (full record maxEntries) :=
  decidable_of_iff ((record.any fun found => decide (maxEntries ≤ found.length)) = true) (by simp [full, Option.any_eq_true])

/-- `HasReceivingRedelegation` -/
def hasReceivingRedelegation (entries : Entries) (delAddr valDstAddr : Address) : Bool :=
  entries.redelegations.keys.any fun triplet => triplet.1 = delAddr ∧ triplet.2.2 = valDstAddr

end Entries

/-- The coins of an undelegation leave the pool of a bonded validator. -/
def unbondFromPool (ctx : Ctx) (bank : Bank) (validator : Validator) (unconstrainedAmt : ℤ) : Except Fault Bank :=
  if validator.status = .bonded ∧ 0 < unconstrainedAmt then bondedTokensToNotBonded ctx bank unconstrainedAmt
  else .ok bank

/-- `Undelegate`, with the time at which it completes. -/
def undelegate (ctx : Ctx) (state : State) (delAddr valAddr : Address) (sharesAmount : Dec) :
    Except Fault (State × ℕ) := do
  let validator ← state.holdings.validator valAddr errNoDelegatorForAddress
  require (¬ Entries.full (state.entries.unbondingDelegations.lookup (delAddr, valAddr)) ctx.maxEntries)
    (.err errMaxUnbondingDelegationEntries "")
  let (state, returnAmount, veTokens) ← unbond ctx state delAddr valAddr sharesAmount false
  let unconstrainedAmt := returnAmount - totalTokens veTokens
  let bank ← unbondFromPool ctx state.ve.bank validator unconstrainedAmt
  let completionTime := ctx.headerTime + ctx.unbondingTime
  let entries ← state.entries.addUnbonding (delAddr, valAddr)
    ⟨ctx.ve.blockHeight, completionTime, returnAmount, returnAmount⟩ veTokens
  pure ({ state.setBank bank with entries := entries }, completionTime)

/-- `GetBeginInfo`: when and at which height a redelegation completes; nothing where it completes at once. -/
def getBeginInfo (ctx : Ctx) (holdings : Holdings) (valSrcAddr : Address) : Except Fault (Option (ℕ × ℤ)) :=
  match holdings.validators valSrcAddr with
  | none => .ok (some (ctx.headerTime + ctx.unbondingTime, ctx.ve.blockHeight))
  | some validator =>
    match validator.status with
    | .bonded => .ok (some (ctx.headerTime + ctx.unbondingTime, ctx.ve.blockHeight))
    | .unbonded => .ok none
    | .unbonding => .ok (some (validator.unbondingTime, validator.unbondingHeight))
    | .unspecified => .error (.panic "unknown validator status: BOND_STATUS_UNSPECIFIED")

/-- `BeginRedelegation`, with the time at which it completes; none is given where it has completed. -/
def beginRedelegation (ctx : Ctx) (state : State) (delAddr valSrcAddr valDstAddr : Address) (sharesAmount : Dec) :
    Except Fault (State × Option ℕ) := do
  require (valSrcAddr ≠ valDstAddr) (.err errSelfRedelegation "")
  let dstValidator ← state.holdings.validator valDstAddr errBadRedelegationDst
  let srcValidator ← state.holdings.validator valSrcAddr errBadRedelegationDst
  require (state.entries.hasReceivingRedelegation delAddr valSrcAddr = false) (.err errTransitiveRedelegation "")
  require (¬ Entries.full (state.entries.redelegations.lookup (delAddr, valSrcAddr, valDstAddr)) ctx.maxEntries)
    (.err errMaxRedelegationEntries "")
  let (state, returnAmount, veTokens) ← unbond ctx state delAddr valSrcAddr sharesAmount true
  require (returnAmount ≠ 0) (.err errTinyRedelegationAmount "")
  let (state, sharesCreated) ← veDelegate ctx state delAddr returnAmount veTokens srcValidator.status dstValidator false
  match ← getBeginInfo ctx state.holdings valSrcAddr with
  | none => pure (state, none)
  | some (completionTime, height) => do
    let entries ← state.entries.addRedelegation (delAddr, valSrcAddr, valDstAddr)
      ⟨height, completionTime, returnAmount, ⟨sharesCreated⟩⟩ veTokens
    pure ({ state with entries := entries }, some completionTime)

/-- `IsMature` of both kinds of entries. -/
def UnbondingDelegationEntry.isMature (entry : UnbondingDelegationEntry) (ctx : Ctx) : Prop :=
  entry.completionTime ≤ ctx.headerTime

instance (entry : UnbondingDelegationEntry) (ctx : Ctx) : Decidable (entry.isMature ctx) :=
  inferInstanceAs (Decidable (_ ≤ _))

def RedelegationEntry.isMature (entry : RedelegationEntry) (ctx : Ctx) : Prop := entry.completionTime ≤ ctx.headerTime

instance (entry : RedelegationEntry) (ctx : Ctx) : Decidable (entry.isMature ctx) := inferInstanceAs (Decidable (_ ≤ _))

/-- The shadow of a record: it must be there and have as many entries. -/
def shadowOf {κ α β : Type} [DecidableEq κ] (shadows : AList fun _ : κ => List β) (key : κ) (record : List α)
    (reason : String) : Except Fault (List β) :=
  match shadows.lookup key with
  | none => .error (.panic reason)
  | some shadow => do
    require (shadow.length = record.length) (.panic reason)
    pure shadow

/-- An entry of a record with the entry of the shadow at the same index. -/
abbrev UnbondingPair := UnbondingDelegationEntry × VeUnbondingDelegationEntry

/-- What an entry holds beside the balances of the ves. -/
def unconstrainedBalance (pair : UnbondingPair) : ℤ := pair.1.balance - pair.2.balance

/-- The ve balances of an entry count as delegated no longer. -/
def releaseBalances (holdings : Holdings) (veEntry : VeUnbondingDelegationEntry) : Holdings :=
  veEntry.veBalances.foldl (fun holdings vb => holdings.subVeDelegatedAmount vb.veId vb.balance) holdings

/-- `UndelegateCoinsFromModuleToAccount` from the pool of what is not bonded. -/
def payUnbonded (ctx : Ctx) (bank : Bank) (delAddr : Address) (amount : ℤ) : Except Fault Bank :=
  if amount = 0 then .ok bank
  else do bank.sendCoins ModuleAccount.notBondedPool.address delAddr (← newCoins [⟨ctx.bondDenom, amount⟩])

/-- The loop of `CompleteUnbonding`. A panic ends the call; an error of the bank is returned, with the state the loop has
come to. Else the result is the entries that stay and the amount that has unbonded. -/
def completeEntries (ctx : Ctx) (delAddr : Address) :
    State → List UnbondingPair → Except Fault (State × Except Fault (List UnbondingPair × ℤ))
  | state, [] => .ok (state, .ok ([], 0))
  | state, pair :: rest =>
    if pair.1.isMature ctx then do
      let state := state.setHoldings (releaseBalances state.holdings pair.2)
      require (0 ≤ unconstrainedBalance pair) (.panic "inconsistent ve unbonding delegation")
      match payUnbonded ctx state.ve.bank delAddr (unconstrainedBalance pair) with
      | .error fault => pure (state, .error fault)
      | .ok bank => do
        let coin ← newCoin ctx.bondDenom pair.1.balance
        let (state, outcome) ← completeEntries ctx delAddr (state.setBank bank) rest
        pure (state, (fun (kept, balances) => (kept, coin.amount + balances)) <$> outcome)
    else do
      let (state, outcome) ← completeEntries ctx delAddr state rest
      pure (state, (fun (kept, balances) => (pair :: kept, balances)) <$> outcome)

/-- A record without entries is removed. -/
def storeEntries {κ α : Type} [DecidableEq κ] (records : AList fun _ : κ => List α) (key : κ) (record : List α) :
    AList fun _ : κ => List α :=
  if record = [] then records.erase key else records.insert key record

/-- `CompleteUnbonding`: what it returns, an error included, with the state it leaves behind. -/
def completeUnbonding (ctx : Ctx) (state : State) (delAddr valAddr : Address) : Except Fault (State × Except Fault ℤ) :=
  match state.entries.unbondingDelegations.lookup (delAddr, valAddr) with
  | none => .ok (state, .error (.err errNoUnbondingDelegation ""))
  | some ubd => do
    let veUbd ← shadowOf state.entries.veUnbondingDelegations (delAddr, valAddr) ubd
      "inconsistent ve unbonding delegation"
    let (state, outcome) ← completeEntries ctx delAddr state (ubd.zip veUbd)
    match outcome with
    | .error fault => pure (state, .error fault)
    | .ok (kept, balances) =>
      let entries := { state.entries with
        unbondingDelegations :=
          storeEntries state.entries.unbondingDelegations (delAddr, valAddr) (kept.map Prod.fst)
        veUnbondingDelegations :=
          storeEntries state.entries.veUnbondingDelegations (delAddr, valAddr) (kept.map Prod.snd) }
      pure ({ state with entries := entries }, .ok balances)

/-- `CompleteRedelegation`, with the amount that has been redelegated. -/
def completeRedelegation (ctx : Ctx) (state : State) (delAddr valSrcAddr valDstAddr : Address) :
    Except Fault (State × ℤ) :=
  let triplet := (delAddr, valSrcAddr, valDstAddr)
  match state.entries.redelegations.lookup triplet with
  | none => .error (.err errNoRedelegation "")
  | some red => do
    let veRed ← shadowOf state.entries.veRedelegations triplet red "inconsistent ve redelegation"
    let balances ← (red.filter fun entry => entry.isMature ctx).mapM fun entry =>
      newCoin ctx.bondDenom entry.initialBalance
    let kept := (red.zip veRed).filter fun pair => ¬ pair.1.isMature ctx
    let entries := { state.entries with
      redelegations := storeEntries state.entries.redelegations triplet (kept.map Prod.fst)
      veRedelegations := storeEntries state.entries.veRedelegations triplet (kept.map Prod.snd) }
    pure ({ state with entries := entries }, (balances.map (·.amount)).sum)

/-- The part of `BlockValidatorUpdates` that completes what has matured. A returned error is passed over; what the call
has written by then stays. -/
def completeMature (ctx : Ctx) (state : State) (matureUnbonds : List DvPair) (matureRedelegations : List DvvTriplet) :
    Except Fault State := do
  let state ← matureUnbonds.foldlM (fun state dvPair => do
    let (state, _) ← completeUnbonding ctx state dvPair.1 dvPair.2
    pure state) state
  matureRedelegations.foldlM (fun state triplet =>
    match completeRedelegation ctx state triplet.1 triplet.2.1 triplet.2.2 with
    | .ok (state, _) => .ok state
    | .error (.panic reason) => .error (.panic reason)
    | .error _ => .ok state) state

end Rotofury.Model.Staking
