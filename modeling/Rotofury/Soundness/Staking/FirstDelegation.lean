import Rotofury.Soundness.Staking.ShareTotals

/-! # The first delegation of ves to a validator

A delegator without a ve delegation to a validator gets a new one, which names the validator by the text of the whole
record in the place of its operator address. It can be stored only where that text reads as the operator address; apart
from that the delegation succeeds, and its record holds for each ve the tokens and the shares issued for them.
-/

namespace Rotofury.Soundness.Staking

open Model.Sdk Model.App Model.Staking Except

/-- Tokens of a ve that can be delegated. -/
structure Delegatable (ctx : Ctx) (locks : ℕ → Model.Ve.LockedBalance) (holdings : Holdings) (veTokens : VeTokens) : Prop where
  named : veTokens.veId ≠ Model.Ve.emptyVeId
  positive : 0 < veTokens.tokens
  running : ctx.ve.blockTime < (locks veTokens.veId).endTime
  enough : holdings.veDelegatedAmount veTokens.veId + veTokens.tokens ≤ (locks veTokens.veId).amount

/-- The shares of a ve are those issued for its tokens. -/
structure IssuedFor (validator : Validator) (veTokens : VeTokens) (shares : VeShares) : Prop where
  veId : shares.veId = veTokens.veId
  tokens : shares.tokensMayUnsettled = veTokens.tokens
  shares : validator.issuedShares veTokens.tokens = .ok shares.shares

/-- Shares are issued where there are no shares yet or some tokens. -/
theorem issuedShares_isOk_iff (validator : Validator) (amount : ℕ) :
    (∃ shares, validator.issuedShares amount = .ok shares) ↔
      validator.delegatorShares.isZero ∨ validator.tokens ≠ 0 := by
  unfold Validator.issuedShares
  split
  · next zero => exact iff_of_true ⟨_, rfl⟩ (.inl zero)
  · next nonzero =>
    by_cases none : validator.tokens = 0
    · simp [Validator.sharesFromTokens, require, none, nonzero]
    · simp [Validator.sharesFromTokens, require, none, pure, Except.pure]

section Parts

variable {ctx : Ctx} {locks : ℕ → Model.Ve.LockedBalance} {delAddr : Address} {validator : Validator}
  {delegating : Delegating} {valAddr : Address}

theorem addValidatorTokensAndShares_of_issued {amount shares : ℕ} (issued : validator.issuedShares amount = .ok shares)
    (holdings : Holdings) : ∃ next, holdings.addValidatorTokensAndShares validator amount = .ok (next, shares) := by
  have added : ∃ next, validator.addTokensFromDel amount = .ok (next, shares) := by
    unfold Validator.addTokensFromDel
    split
    · next failed => exact absurd (failed.symm.trans issued) (by simp)
    · next ok =>
      obtain rfl := Except.ok.inj (ok.symm.trans issued)
      exact ⟨_, rfl⟩
  obtain ⟨next, added⟩ := added
  exact ⟨holdings.setValidator next, by rw [Holdings.addValidatorTokensAndShares, added]; rfl⟩

theorem delegateVe_succeeds (delAddr : Address) {veTokens : VeTokens} (delegatable : Delegatable ctx locks delegating.holdings veTokens)
    {shares : ℕ} (issued : validator.issuedShares veTokens.tokens = .ok shares)
    (parsed : ctx.world.valAddressFromBech32 delegating.veDelegation.validatorAddress = some valAddr) :
    ∃ after, delegateVe ctx locks delAddr validator delegating veTokens = .ok after := by
  obtain ⟨holdings, added⟩ := addValidatorTokensAndShares_of_issued issued
    (delegating.holdings.setVeDelegatedAmount veTokens.veId
      (delegating.holdings.veDelegatedAmount veTokens.veId + veTokens.tokens))
  simp only [delegateVe, Holdings.setVeDelegation, ok_iffs, mustValAddress_ok_iff]
  exact ⟨_, (), delegatable.named, (), delegatable.running, (), delegatable.enough, _, added, _, ⟨valAddr, parsed, rfl⟩, rfl⟩

/-- A ve that has no shares gets its own at the end of the record. -/
theorem setSharesByVeId_fresh {delegation : VeDelegation} {veId : ℕ} (fresh : veId ∉ delegation.veShares.map (·.veId))
    (tokens shares : ℕ) :
    (delegation.setSharesByVeId ((delegation.getSharesByVeId veId).addTokensAndShares tokens shares)).veShares =
      delegation.veShares ++ [⟨veId, tokens, shares⟩] := by
  have absent : delegation.veShares.find? (fun old => old.veId = veId) = none := by
    rw [List.find?_eq_none]
    intro old inside same
    exact fresh (List.mem_map.mpr ⟨old, inside, by simpa using same⟩)
  have blank : (delegation.getSharesByVeId veId).addTokensAndShares tokens shares = ⟨veId, tokens, shares⟩ := by
    simp [VeDelegation.getSharesByVeId, absent, VeShares.addTokensAndShares]
  rw [blank]
  exact if_neg fresh

/-- The loop over distinct ves without shares succeeds and appends what is issued for each. -/
theorem delegateVes_fresh (delAddr : Address) {veTokens : List VeTokens} (distinct : (veTokens.map (·.veId)).Nodup)
    (fresh : ∀ part ∈ veTokens, part.veId ∉ delegating.veDelegation.veShares.map (·.veId))
    (delegatable : ∀ part ∈ veTokens, Delegatable ctx locks delegating.holdings part)
    (issued : ∀ amount, ∃ shares, validator.issuedShares amount = .ok shares)
    (parsed : ctx.world.valAddressFromBech32 delegating.veDelegation.validatorAddress = some valAddr) :
    ∃ after added, veTokens.foldlM (delegateVe ctx locks delAddr validator) delegating = .ok after ∧
      after.veDelegation.veShares = delegating.veDelegation.veShares ++ added ∧
      List.Forall₂ (IssuedFor validator) veTokens added := by
  induction veTokens generalizing delegating with
  | nil => exact ⟨delegating, [], rfl, by simp, .nil⟩
  | cons part rest ih =>
    obtain ⟨here, later⟩ := List.forall_mem_cons.mp delegatable
    obtain ⟨other, distinct⟩ := List.nodup_cons.mp distinct
    obtain ⟨freshHere, freshLater⟩ := List.forall_mem_cons.mp fresh
    obtain ⟨shares, issuedHere⟩ := issued part.tokens
    obtain ⟨middle, turn⟩ := delegateVe_succeeds delAddr here issuedHere parsed
    obtain ⟨newShares, _, part'⟩ := delegateVe_ok turn
    obtain rfl := Except.ok.inj (issuedHere.symm.trans part'.issued)
    have record := setSharesByVeId_fresh freshHere part.tokens shares
    rw [← part'.veDelegation] at record
    have stillFresh : ∀ next ∈ rest, next.veId ∉ middle.veDelegation.veShares.map (·.veId) := by
      intro next inside
      rw [record, List.map_append, List.mem_append, not_or]
      refine ⟨freshLater next inside, fun same => other (List.mem_map.mpr ⟨next, inside, ?_⟩)⟩
      simpa using same
    have stillDelegatable : ∀ next ∈ rest, Delegatable ctx locks middle.holdings next := by
      intro next inside
      obtain ⟨named, positive, running, enough⟩ := later next inside
      refine ⟨named, positive, running, ?_⟩
      have different : next.veId ≠ part.veId := fun same => other (List.mem_map.mpr ⟨next, inside, same⟩)
      rw [part'.amounts, onVe, if_neg different, add_zero]
      exact enough
    have stillParsed : ctx.world.valAddressFromBech32 middle.veDelegation.validatorAddress = some valAddr := by
      rw [part'.veDelegation]
      exact parsed
    obtain ⟨after, added, loop, appended, each⟩ := ih distinct stillFresh stillDelegatable stillParsed
    refine ⟨after, ⟨part.veId, part.tokens, shares⟩ :: added, foldlM_cons_ok_iff.mpr ⟨middle, turn, loop⟩, ?_,
      .cons ⟨rfl, rfl, issuedHere⟩ each⟩
    rw [appended, record, List.append_assoc]
    rfl

end Parts

/-- Where all of a delegation is locked in ves, it is done once the loop over the ves is. -/
theorem veDelegate_of_loop {ctx : Ctx} {state opened : State} {delAddr : Address} {validator : Validator}
    {veTokens : List VeTokens} {veDelegation : VeDelegation} {delegated : Delegating} (tokenSrc : BondStatus)
    (subtractAccount : Bool) (rate : ¬ validator.invalidExRate)
    (opening : openVeDelegation ctx state delAddr validator = .ok (opened, veDelegation))
    (loop : veTokens.foldlM (delegateVe ctx opened.ve.store.lockedAmountByUser delAddr validator) ⟨opened.holdings,
      (state.holdings.delegations (delAddr, validator.operatorAddress)).getD .zero, veDelegation, 0⟩ = .ok delegated) :
    veDelegate ctx state delAddr (totalTokens veTokens) veTokens tokenSrc validator subtractAccount =
      .ok ((opened.setHoldings (addVeDelegatorShares delegated.holdings validator.operatorAddress
        delegated.totalNewShares)).setBank opened.ve.bank, delegated.totalNewShares) := by
  have coins : delegateUnconstrained ctx opened delAddr (totalTokens veTokens - totalTokens veTokens) tokenSrc validator
      subtractAccount veDelegation ((state.holdings.delegations (delAddr, validator.operatorAddress)).getD .zero) =
      .ok (opened.ve.bank, ⟨opened.holdings,
        (state.holdings.delegations (delAddr, validator.operatorAddress)).getD .zero, veDelegation, 0⟩) := by
    rw [delegateUnconstrained, if_neg (by simp)]
  simp only [veDelegate, ok_iffs]
  exact ⟨(), rate, _, opening, _, coins, _, loop, rfl⟩

/-- The ve delegation a delegator has with a validator holds exactly the shares issued for these tokens. -/
def HoldsIssued (holdings : Holdings) (delAddr : Address) (validator : Validator) (veTokens : List VeTokens) : Prop :=
  ∃ delegation, holdings.veDelegations.lookup (delAddr, validator.operatorAddress) = some delegation ∧
    List.Forall₂ (IssuedFor validator) veTokens delegation.veShares

/-- A first delegation of ves succeeds, and is found under the operator address, exactly when the text of the validator
reads as that address; a validator without tokens must have no shares either. -/
theorem first_veDelegate_iff {ctx : Ctx} {state : State} {delAddr : Address} {validator : Validator}
    {veTokens : List VeTokens} (tokenSrc : BondStatus) (subtractAccount : Bool) (rate : ¬ validator.invalidExRate)
    (first : state.holdings.veDelegations.lookup (delAddr, validator.operatorAddress) = none) (some : veTokens ≠ [])
    (distinct : (veTokens.map (·.veId)).Nodup)
    (delegatable : ∀ part ∈ veTokens, Delegatable ctx state.ve.store.lockedAmountByUser state.holdings part) :
    (∃ next newShares, veDelegate ctx state delAddr (totalTokens veTokens) veTokens tokenSrc validator subtractAccount =
        .ok (next, newShares) ∧ HoldsIssued next.holdings delAddr validator veTokens) ↔
      ctx.world.valAddressFromBech32 (ctx.world.validatorString validator) = .some validator.operatorAddress ∧
        (validator.delegatorShares.isZero ∨ validator.tokens ≠ 0) := by
  have opening : openVeDelegation ctx state delAddr validator =
      .ok (state, ⟨delAddr, ctx.world.validatorString validator, [], List.nodup_nil⟩) := by
    rw [openVeDelegation, first]
  constructor
  · rintro ⟨next, newShares, success, _⟩
    obtain ⟨opened, veDelegation, bank, delegating, delegated, parts⟩ := veDelegate_ok success
    obtain ⟨rfl, rfl⟩ := Prod.mk.inj (Except.ok.inj (opening.symm.trans parts.opening))
    -- the first part names the validator and gets shares
    obtain ⟨part, rest, rfl⟩ := List.exists_cons_of_ne_nil some
    obtain ⟨middle, turn, _⟩ := foldlM_cons_ok_iff.mp parts.loop
    obtain ⟨shares, valAddr, delegatedPart⟩ := delegateVe_ok turn
    have address := delegatedPart.address
    rw [parts.coins.veDelegation] at address
    refine ⟨?_, (issuedShares_isOk_iff validator part.tokens).mp ⟨shares, delegatedPart.issued⟩⟩
    rw [address, ctx.world.validatorString_own validator valAddr address]
  · rintro ⟨parsed, rated⟩
    -- the loop starts from the empty record
    obtain ⟨start, started⟩ : ∃ start : Delegating, start = ⟨state.holdings,
        (state.holdings.delegations (delAddr, validator.operatorAddress)).getD .zero,
        ⟨delAddr, ctx.world.validatorString validator, [], List.nodup_nil⟩, 0⟩ := ⟨_, rfl⟩
    have startParsed : ctx.world.valAddressFromBech32 start.veDelegation.validatorAddress =
        .some validator.operatorAddress := by
      rw [started]
      exact parsed
    have startDelegatable : ∀ part ∈ veTokens, Delegatable ctx state.ve.store.lockedAmountByUser start.holdings part := by
      rw [started]
      exact delegatable
    obtain ⟨delegated, added, loop, appended, each⟩ := delegateVes_fresh delAddr distinct (by simp [started])
      startDelegatable (fun amount => (issuedShares_isOk_iff validator amount).mpr rated) startParsed
    have ves := delegateVes_ok loop
    obtain ⟨valAddr, address, written⟩ := ves.written some
    obtain rfl := Option.some.inj (address.symm.trans startParsed)
    refine ⟨_, _, veDelegate_of_loop tokenSrc subtractAccount rate opening (started ▸ loop), delegated.veDelegation, ?_, ?_⟩
    · change (addVeDelegatorShares delegated.holdings _ _).veDelegations.lookup _ = _
      rw [(addVeDelegatorShares_eq _ _ _).2.1, written, started]
      exact AList.lookup_insert _
    · rw [appended, started]
      exact each

/-- A validator with tokens and no ve delegation yet, and a lock of four. -/
def sampleFirst : State :=
  sampleMixed.setHoldings { sampleMixed.holdings with veDelegations := ∅, veDelegatedAmount := fun _ => 0 }

theorem sampleFirst_delegatable (world : World) : ∀ part ∈ [VeTokens.mk 1 2],
    Delegatable { sampleCtx with world := world } sampleFirst.ve.store.lockedAmountByUser sampleFirst.holdings part := by
  intro part inside
  obtain rfl := List.mem_singleton.mp inside
  change Delegatable { sampleCtx with world := world } _ _ _
  exact ⟨by decide, by decide, (by decide : sampleCtx.ve.blockTime < _), by decide⟩

/-- The text of the validator is its operator address. -/
def bareWorld : World where
  valAddressFromBech32 text := if text = "valoper" then some 9 else none
  validatorString validator := if validator.operatorAddress = 9 then "valoper" else ""
  validatorString_own := by
    intro validator valAddr parsed
    split at parsed
    · next own => exact (Option.some.inj parsed).symm.trans own.symm
    · cases parsed

theorem first_veDelegate_sample :
    ∃ next newShares, veDelegate { sampleCtx with world := bareWorld } sampleFirst 1 (totalTokens [⟨1, 2⟩]) [⟨1, 2⟩] .unbonded
      sampleValidator true = .ok (next, newShares) ∧ HoldsIssued next.holdings 1 sampleValidator [⟨1, 2⟩] :=
  (first_veDelegate_iff .unbonded true (by decide) rfl (by simp) (by simp) (sampleFirst_delegatable bareWorld)).mpr
    ⟨by decide, .inr (by decide)⟩

/-- The text of the validator is no operator address, and storing the record panics. -/
theorem first_veDelegate_panics_sample :
    ¬ sampleValidator.invalidExRate ∧
      sampleFirst.holdings.veDelegations.lookup (1, sampleValidator.operatorAddress) = none ∧
      (∀ part ∈ [VeTokens.mk 1 2],
        Delegatable sampleCtx sampleFirst.ve.store.lockedAmountByUser sampleFirst.holdings part) ∧
      veDelegate sampleCtx sampleFirst 1 (totalTokens [⟨1, 2⟩]) [⟨1, 2⟩] .unbonded sampleValidator true =
        .error (.panic "decoding bech32 failed") := by
  refine ⟨by decide, rfl, sampleFirst_delegatable sampleWorld, ?_⟩
  have fails : (fun result : State × ℕ => result.2) <$> veDelegate sampleCtx sampleFirst 1 (totalTokens [⟨1, 2⟩]) [⟨1, 2⟩]
      .unbonded sampleValidator true = .error (.panic "decoding bech32 failed") := by decide +kernel
  revert fails
  rcases veDelegate sampleCtx sampleFirst 1 _ _ _ _ _ with fault | result
  · rintro ⟨⟩
    rfl
  · rintro ⟨⟩

end Rotofury.Soundness.Staking
