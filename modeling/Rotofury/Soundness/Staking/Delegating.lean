import Rotofury.Soundness.Staking.Effects

/-! # What a delegation writes

`VeDelegate` opens the ve delegation it adds to, delegates the coins and then the part of each ve. Every part of a ve adds
its tokens to what the ve has delegated and to the ve delegation, and its shares to the ve delegation and to the new
shares.
-/

namespace Rotofury.Soundness.Staking

open Model.Sdk Model.App Model.Staking Except

theorem addTokensFromDel_ok {validator next : Validator} {amount shares : ℕ}
    (ok : validator.addTokensFromDel amount = .ok (next, shares)) :
    validator.issuedShares amount = .ok shares ∧ next.operatorAddress = validator.operatorAddress := by
  unfold Validator.addTokensFromDel at ok
  split at ok
  · cases ok
  · next issued =>
    cases ok
    exact ⟨issued, rfl⟩

/-- The delegations with the validators and the delegations of coins set apart. -/
structure SameVes (holdings next : Holdings) : Prop where
  veValidators : next.veValidators = holdings.veValidators
  veDelegations : next.veDelegations = holdings.veDelegations
  veDelegatedAmount : next.veDelegatedAmount = holdings.veDelegatedAmount

theorem SameVes.refl (holdings : Holdings) : SameVes holdings holdings := ⟨rfl, rfl, rfl⟩

theorem SameVes.trans {holdings middle next : Holdings} (first : SameVes holdings middle) (second : SameVes middle next) :
    SameVes holdings next :=
  ⟨second.veValidators.trans first.veValidators, second.veDelegations.trans first.veDelegations,
    second.veDelegatedAmount.trans first.veDelegatedAmount⟩

theorem addValidatorTokensAndShares_ok {holdings next : Holdings} {validator : Validator} {amount shares : ℕ}
    (ok : holdings.addValidatorTokensAndShares validator amount = .ok (next, shares)) :
    validator.issuedShares amount = .ok shares ∧ SameVes holdings next := by
  simp only [Holdings.addValidatorTokensAndShares, ok_iffs, Prod.mk.injEq] at ok
  obtain ⟨⟨validator', issued⟩, added, rfl, rfl⟩ := ok
  exact ⟨(addTokensFromDel_ok added).1, rfl, rfl, rfl⟩

/-- What the coins of a delegation write. -/
structure CoinsDelegated (holdings : Holdings) (unconstrainedAmt : ℤ) (validator : Validator) (veDelegation : VeDelegation)
    (delegating : Delegating) : Prop where
  ves : SameVes holdings delegating.holdings
  veDelegation : delegating.veDelegation = veDelegation
  issued : 0 < unconstrainedAmt → validator.issuedShares unconstrainedAmt.toNat = .ok delegating.totalNewShares
  none : ¬ 0 < unconstrainedAmt → delegating.totalNewShares = 0

theorem delegateUnconstrained_ok {ctx : Ctx} {state : State} {delAddr : Address} {unconstrainedAmt : ℤ}
    {tokenSrc : BondStatus} {validator : Validator} {subtractAccount : Bool} {veDelegation : VeDelegation} {shares : Dec}
    {bank : Bank} {delegating : Delegating}
    (ok : delegateUnconstrained ctx state delAddr unconstrainedAmt tokenSrc validator subtractAccount veDelegation
      shares = .ok (bank, delegating)) :
    CoinsDelegated state.holdings unconstrainedAmt validator veDelegation delegating := by
  unfold delegateUnconstrained at ok
  split at ok
  · next positive =>
    simp only [ok_iffs, Prod.mk.injEq] at ok
    obtain ⟨_, _, ⟨holdings, newShares⟩, added, _, rfl⟩ := ok
    obtain ⟨issued, ves⟩ := addValidatorTokensAndShares_ok added
    exact ⟨⟨ves.veValidators, ves.veDelegations, ves.veDelegatedAmount⟩, rfl, fun _ => issued,
      fun none => absurd positive none⟩
  · next none =>
    cases ok
    exact ⟨.refl _, rfl, fun positive => absurd positive none, fun _ => rfl⟩

/-- What one part of a ve writes. -/
structure PartDelegated (ctx : Ctx) (locks : ℕ → Model.Ve.LockedBalance) (validator : Validator) (before : Delegating)
    (veTokens : VeTokens) (after : Delegating) (newShares : ℕ) (valAddr : Address) : Prop where
  named : veTokens.veId ≠ Model.Ve.emptyVeId
  running : ctx.ve.blockTime < (locks veTokens.veId).endTime
  enough : before.holdings.veDelegatedAmount veTokens.veId + veTokens.tokens ≤ (locks veTokens.veId).amount
  issued : validator.issuedShares veTokens.tokens = .ok newShares
  amounts : ∀ veId, after.holdings.veDelegatedAmount veId =
    before.holdings.veDelegatedAmount veId + onVe veTokens.veId veTokens.tokens veId
  veValidators : after.holdings.veValidators = before.holdings.veValidators
  veDelegation : after.veDelegation = before.veDelegation.setSharesByVeId
    ((before.veDelegation.getSharesByVeId veTokens.veId).addTokensAndShares veTokens.tokens newShares)
  address : ctx.world.valAddressFromBech32 before.veDelegation.validatorAddress = some valAddr
  veDelegations : after.holdings.veDelegations =
    before.holdings.veDelegations.insert (before.veDelegation.delegatorAddress, valAddr) after.veDelegation
  total : after.totalNewShares = before.totalNewShares + newShares

theorem delegateVe_ok {ctx : Ctx} {locks : ℕ → Model.Ve.LockedBalance} {delAddr : Address} {validator : Validator}
    {before after : Delegating} {veTokens : VeTokens}
    (ok : delegateVe ctx locks delAddr validator before veTokens = .ok after) :
    ∃ newShares valAddr, PartDelegated ctx locks validator before veTokens after newShares valAddr := by
  simp only [delegateVe, Holdings.setVeDelegation, ok_iffs, mustValAddress_ok_iff] at ok
  obtain ⟨_, named, _, running, _, enough, ⟨holdings, newShares⟩, added, written, ⟨valAddr, address, rfl⟩, rfl⟩ := ok
  obtain ⟨issued, ves⟩ := addValidatorTokensAndShares_ok added
  refine ⟨newShares, valAddr, named, running, enough, issued, fun veId => ?_, ves.veValidators, rfl, address, ?_, rfl⟩
  · change holdings.veDelegatedAmount veId = _
    rw [ves.veDelegatedAmount]
    simp only [Holdings.setVeDelegatedAmount, Function.update_apply, onVe]
    split
    · next same => rw [same]
    · rw [add_zero]
  · change holdings.veDelegations.insert _ _ = _
    rw [ves.veDelegations]
    rfl

theorem getSharesByVeId_veId (delegation : VeDelegation) (veId : ℕ) : (delegation.getSharesByVeId veId).veId = veId := by
  rcases found : delegation.veShares.find? fun shares => shares.veId = veId with _ | shares
  · simp [VeDelegation.getSharesByVeId, found]
  · have same : shares.veId = veId := by simpa using List.find?_some found
    simp [VeDelegation.getSharesByVeId, found, same]

namespace PartDelegated

variable {ctx : Ctx} {locks : ℕ → Model.Ve.LockedBalance} {validator : Validator} {before after : Delegating}
  {veTokens : VeTokens} {newShares : ℕ} {valAddr : Address}
  (part : PartDelegated ctx locks validator before veTokens after newShares valAddr)

include part

theorem names : after.veDelegation.delegatorAddress = before.veDelegation.delegatorAddress ∧
    after.veDelegation.validatorAddress = before.veDelegation.validatorAddress := by
  rw [part.veDelegation]
  exact ⟨rfl, rfl⟩

theorem tokens (veId : ℕ) :
    tokensOf veId after.veDelegation = tokensOf veId before.veDelegation + onVe veTokens.veId veTokens.tokens veId := by
  rw [part.veDelegation, tokensOf_setSharesByVeId]
  simp only [VeShares.addTokensAndShares, getSharesByVeId_veId, onVe_add]
  ring

theorem shares : after.veDelegation.shares = before.veDelegation.shares + newShares := by
  have sum := shares_setSharesByVeId before.veDelegation
    ((before.veDelegation.getSharesByVeId veTokens.veId).addTokensAndShares veTokens.tokens newShares)
  rw [← part.veDelegation] at sum
  simp only [VeShares.addTokensAndShares, getSharesByVeId_veId, Nat.cast_add] at sum
  omega

end PartDelegated

/-- What the parts of ves write together. -/
structure PartsDelegated (ctx : Ctx) (before : Delegating) (veTokens : List VeTokens) (after : Delegating) : Prop where
  amounts : ∀ veId, after.holdings.veDelegatedAmount veId =
    before.holdings.veDelegatedAmount veId + tokensIn veId veTokens
  veValidators : after.holdings.veValidators = before.holdings.veValidators
  delegatorAddress : after.veDelegation.delegatorAddress = before.veDelegation.delegatorAddress
  validatorAddress : after.veDelegation.validatorAddress = before.veDelegation.validatorAddress
  tokens : ∀ veId, tokensOf veId after.veDelegation = tokensOf veId before.veDelegation + tokensIn veId veTokens
  shares : after.veDelegation.shares + before.totalNewShares = before.veDelegation.shares + after.totalNewShares
  written : veTokens ≠ [] → ∃ valAddr, ctx.world.valAddressFromBech32 before.veDelegation.validatorAddress = some valAddr ∧
    after.holdings.veDelegations =
      before.holdings.veDelegations.insert (before.veDelegation.delegatorAddress, valAddr) after.veDelegation
  idle : veTokens = [] → after = before

theorem delegateVes_ok {ctx : Ctx} {locks : ℕ → Model.Ve.LockedBalance} {delAddr : Address} {validator : Validator}
    {before after : Delegating} {veTokens : List VeTokens}
    (ok : veTokens.foldlM (delegateVe ctx locks delAddr validator) before = .ok after) :
    PartsDelegated ctx before veTokens after := by
  induction veTokens generalizing before with
  | nil =>
    cases ok
    exact ⟨by simp, rfl, rfl, rfl, by simp, rfl, fun none => absurd rfl none, fun _ => rfl⟩
  | cons head rest ih =>
    obtain ⟨middle, first, later⟩ := foldlM_cons_ok_iff.mp ok
    obtain ⟨newShares, valAddr, part⟩ := delegateVe_ok first
    obtain ⟨delegator, validatorText⟩ := part.names
    have rest' := ih later
    refine ⟨fun veId => ?_, rest'.veValidators.trans part.veValidators, rest'.delegatorAddress.trans delegator,
      rest'.validatorAddress.trans validatorText, fun veId => ?_, ?_, fun _ => ⟨valAddr, part.address, ?_⟩,
      fun none => absurd none (by simp)⟩
    · rw [rest'.amounts, part.amounts, tokensIn_cons]
      ring
    · rw [rest'.tokens, part.tokens, tokensIn_cons]
      ring
    · have sum := rest'.shares
      rw [part.shares, part.total] at sum
      omega
    · by_cases last : rest = []
      · rw [rest'.idle last, part.veDelegations]
      · -- the record is written again under the same key
        obtain ⟨again, address, written⟩ := rest'.written last
        rw [validatorText, part.address] at address
        obtain rfl := Option.some.inj address
        rw [written, part.veDelegations, delegator, AList.insert_insert]

/-- The parts of a successful `VeDelegate`. -/
structure VeDelegateParts (ctx : Ctx) (state : State) (delAddr : Address) (bondAmt : ℤ) (veTokens : List VeTokens)
    (tokenSrc : BondStatus) (validator : Validator) (subtractAccount : Bool) (next : State) (newShares : ℕ)
    (opened : State) (veDelegation : VeDelegation) (bank : Bank) (delegating delegated : Delegating) : Prop where
  rate : ¬ validator.invalidExRate
  opening : openVeDelegation ctx state delAddr validator = .ok (opened, veDelegation)
  coins : CoinsDelegated opened.holdings (bondAmt - totalTokens veTokens) validator veDelegation delegating
  loop : veTokens.foldlM (delegateVe ctx opened.ve.store.lockedAmountByUser delAddr validator) delegating = .ok delegated
  next : next = (opened.setHoldings
    (addVeDelegatorShares delegated.holdings validator.operatorAddress delegated.totalNewShares)).setBank bank
  newShares : newShares = delegated.totalNewShares

theorem veDelegate_ok {ctx : Ctx} {state next : State} {delAddr : Address} {bondAmt : ℤ} {veTokens : List VeTokens}
    {tokenSrc : BondStatus} {validator : Validator} {subtractAccount : Bool} {newShares : ℕ}
    (ok : veDelegate ctx state delAddr bondAmt veTokens tokenSrc validator subtractAccount = .ok (next, newShares)) :
    ∃ opened veDelegation bank delegating delegated, VeDelegateParts ctx state delAddr bondAmt veTokens tokenSrc validator
      subtractAccount next newShares opened veDelegation bank delegating delegated := by
  simp only [veDelegate, ok_iffs, Prod.mk.injEq] at ok
  obtain ⟨_, rate, ⟨opened, veDelegation⟩, opening, ⟨bank, delegating⟩, coins, delegated, loop, rfl, rfl⟩ := ok
  exact ⟨opened, veDelegation, bank, delegating, delegated, rate, opening, delegateUnconstrained_ok coins, loop, rfl, rfl⟩

theorem addVeDelegatorShares_eq (holdings : Holdings) (valAddr : Address) (newShares : ℕ) :
    (addVeDelegatorShares holdings valAddr newShares).veDelegatedAmount = holdings.veDelegatedAmount ∧
      (addVeDelegatorShares holdings valAddr newShares).veDelegations = holdings.veDelegations ∧
      ∀ query, (((addVeDelegatorShares holdings valAddr newShares).veValidators query).getD .zero).raw =
        ((holdings.veValidators query).getD .zero).raw + if query = valAddr then (newShares : ℤ) else 0 := by
  unfold addVeDelegatorShares
  split
  · next positive =>
    refine ⟨rfl, rfl, fun query => ?_⟩
    simp only [Holdings.setVeValidator, Function.update_apply]
    split
    · next same =>
      rw [same]
      rfl
    · rw [add_zero]
  · next none =>
    have zero : newShares = 0 := by omega
    exact ⟨rfl, rfl, fun query => by simp [zero]⟩

end Rotofury.Soundness.Staking
