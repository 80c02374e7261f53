import Rotofury.Soundness.Staking.FirstDelegation

/-! # Who disposes of a ve

The messages of the ve module succeed for the owner of every ve they name, and for nobody else. The staking message has
its check the other way round: it turns the owner away, and lets anybody else delegate what the ve has locked.
-/

namespace Rotofury.Soundness.Staking

open Model.Sdk Model.App Model.Staking Except

/-- The signer owns all the ves a message names. -/
def SignedByOwner (state : State) (msg : DisposalMsg) : Prop :=
  ∀ veId ∈ msg.veIds, state.ve.store.getOwner veId = some msg.signer

/-- A message succeeds for the owner only, and a delegation of the owner is not refused for want of ownership. -/
structure OwnerGuarded (ctx : Ctx) (state : State) (msg : DisposalMsg) : Prop where
  only : ∀ next, msg.run ctx state = .ok next → SignedByOwner state msg
  admits : ∀ delegate, msg = .veDelegate delegate → SignedByOwner state msg →
    msg.run ctx state ≠ .error (notOwned delegate.veId)

theorem requireOwner_ok_iff {store : Model.Ve.Store} {sender : Address} {veId : ℕ} {detail : String} {result : Unit} :
    store.requireOwner sender veId detail = .ok result ↔ store.nftOwner veId = some sender := by
  simp [Model.Ve.Store.requireOwner]

/-- The owner under a text, where there is one, is the owner of the number in it. -/
theorem getOwner_eq_nftOwner {store : Model.Ve.Store} {veId : String} (minted : (store.getOwner veId).isSome = true) :
    store.getOwner veId = store.nftOwner (Model.Ve.uint64FromVeId veId) := by
  unfold Model.Ve.Store.getOwner at minted ⊢
  split
  · rfl
  · next other => simp [other] at minted

theorem ownerMsg_signedByOwner {ctx : Ctx} {state next : State} {msg : Model.Ve.OwnerMsg}
    (ok : (DisposalMsg.ve msg).run ctx state = .ok next) : SignedByOwner state (.ve msg) := by
  simp only [DisposalMsg.run, bind_ok_iff] at ok
  obtain ⟨_, _, ve, served, _⟩ := ok
  intro veId inside
  cases msg with
  | extendTime sender veId lockDuration =>
    obtain rfl := List.mem_singleton.mp inside
    simp only [Model.Ve.OwnerMsg.serve, Model.Ve.extendTime, ok_iffs] at served
    obtain ⟨_, minted, _, _, _, owner, _⟩ := served
    rw [getOwner_eq_nftOwner minted]
    exact requireOwner_ok_iff.mp owner
  | merge sender fromVeId toVeId =>
    simp only [Model.Ve.OwnerMsg.serve, ok_iffs] at served
    obtain ⟨_, fromOwner, _, toOwner, _⟩ := served
    rcases List.mem_pair.mp inside with rfl | rfl
    · exact fromOwner
    · exact toOwner
  | withdraw sender veId =>
    obtain rfl := List.mem_singleton.mp inside
    simp only [Model.Ve.OwnerMsg.serve, ok_iffs] at served
    exact served.choose_spec.1

section Delegate

variable {ctx : Ctx} {state : State} {msg : MsgVeDelegate} {validator : Validator}

/-- A request that is in order, for this validator. -/
structure WellFormed (ctx : Ctx) (state : State) (msg : MsgVeDelegate) (validator : Validator) : Prop where
  addressed : msg.validatorAddress ≠ ""
  named : Model.Ve.uint64FromVeId msg.veId ≠ Model.Ve.emptyVeId
  positive : 0 < msg.amount.amount
  known : ∃ valAddr, ctx.world.valAddressFromBech32 msg.validatorAddress = some valAddr ∧
    state.holdings.validators valAddr = some validator
  denom : msg.amount.denom = ctx.bondDenom

/-- The ve and the validator allow the delegation, whoever asks for it: the lock is still running and has enough left, and
the validator can issue shares. -/
structure Allowed (ctx : Ctx) (state : State) (msg : MsgVeDelegate) (validator : Validator) : Prop where
  rate : ¬ validator.invalidExRate
  rated : validator.delegatorShares.isZero ∨ validator.tokens ≠ 0
  delegatable : Delegatable ctx state.ve.store.lockedAmountByUser state.holdings
    ⟨Model.Ve.uint64FromVeId msg.veId, msg.amount.amount.toNat⟩

/-- Settling a record takes the same from the lock and from what is delegated, and the lock ends when it did. -/
theorem delegatable_of_openVeDelegation {opened : State} {delAddr : Address} {record : VeDelegation} {veTokens : VeTokens}
    (ok : openVeDelegation ctx state delAddr validator = .ok (opened, record))
    (after : Delegatable ctx opened.ve.store.lockedAmountByUser opened.holdings veTokens) :
    Delegatable ctx state.ve.store.lockedAmountByUser state.holdings veTokens := by
  unfold openVeDelegation at ok
  split at ok
  · cases ok
    exact after
  · obtain ⟨_, valAddr, burnt, settled⟩ := settleVeDelegation_settled ok
    obtain ⟨named, positive, running, enough⟩ := after
    rw [settled.written] at running enough
    rw [State.setHoldings, settled.burned.endTime] at running
    have amount := settled.burned.amount veTokens.veId
    have locked := settled.burned.locked veTokens.veId
    refine ⟨named, positive, running, ?_⟩
    simp only [State.setHoldings] at enough
    omega

theorem findValidator_ok_iff {text : String} : findValidator ctx state.holdings text = .ok validator ↔
    ∃ valAddr, ctx.world.valAddressFromBech32 text = some valAddr ∧ state.holdings.validators valAddr = some validator := by
  unfold findValidator
  rcases ctx.world.valAddressFromBech32 text with _ | valAddr
  · simp
  · rcases found : state.holdings.validators valAddr with _ | stored
    · simp [found]
    · simp [found]

/-- A delegation that succeeds was allowed. -/
theorem veDelegate_allowed {result : State × ℕ} (positive : 0 < msg.amount.amount)
    (ok : veDelegate ctx state msg.delegatorAddress msg.amount.amount
      [⟨Model.Ve.uint64FromVeId msg.veId, msg.amount.amount.toNat⟩] .unbonded validator true = .ok result) :
    Allowed ctx state msg validator := by
  obtain ⟨opened, record, bank, delegating, delegated, parts⟩ := veDelegate_ok ok
  obtain ⟨middle, turn, _⟩ := foldlM_cons_ok_iff.mp parts.loop
  obtain ⟨shares, valAddr, part⟩ := delegateVe_ok turn
  refine ⟨parts.rate, (issuedShares_isOk_iff validator _).mp ⟨shares, part.issued⟩,
    delegatable_of_openVeDelegation parts.opening ⟨part.named, by simpa using positive, part.running, ?_⟩⟩
  rw [← parts.coins.ves.veDelegatedAmount]
  exact part.enough

/-- What comes of a request: it is refused as such, as that of the owner, or it is up to the ve and the validator. -/
theorem run_veDelegate_of_wellFormed (wellFormed : WellFormed ctx state msg validator) :
    (DisposalMsg.veDelegate msg).run ctx state =
      if state.ve.store.getOwner msg.veId = some msg.delegatorAddress then .error (notOwned msg.veId)
      else Prod.fst <$> veDelegate ctx state msg.delegatorAddress msg.amount.amount
        [⟨Model.Ve.uint64FromVeId msg.veId, msg.amount.amount.toNat⟩] .unbonded validator true := by
  have found := findValidator_ok_iff.mpr wellFormed.known
  have basic : msg.validateBasic = .ok () := by
    simp [MsgVeDelegate.validateBasic, require, wellFormed.addressed, wellFormed.named, wellFormed.positive]
  simp only [DisposalMsg.run, basic, MsgVeDelegate.serve, found, require, wellFormed.denom]
  by_cases owner : state.ve.store.getOwner msg.veId = some msg.delegatorAddress
  · rw [if_pos owner, if_neg (not_not.mpr owner)]
    rfl
  · rw [if_neg owner, if_pos owner]
    rfl

/-- A refusal of another kind than that of the owner. -/
theorem ne_notOwned {detail veId : String} (first : detail.toList.head? = some 'i') :
    Fault.err Model.Ve.errInvalidRequest detail ≠ notOwned veId := by
  intro same
  have heads : some 'i' = some 'v' := by
    rw [notOwned, Fault.err.injEq] at same
    rw [← first, same.2]
    simp only [String.toList_append, List.head?_append]
    rfl
  exact absurd heads (by decide)

/-- A request that is not in order is refused before the owner is looked up. -/
theorem run_veDelegate_of_malformed (malformed : ∀ validator, ¬ WellFormed ctx state msg validator) :
    ∃ fault, (DisposalMsg.veDelegate msg).run ctx state = .error fault ∧ fault ≠ notOwned msg.veId := by
  simp only [DisposalMsg.run, MsgVeDelegate.validateBasic, MsgVeDelegate.serve, require]
  by_cases addressed : msg.validatorAddress ≠ ""
  case neg => exact ⟨_, by rw [if_neg addressed]; rfl, by simp [notOwned, errEmptyValidatorAddr, Model.Ve.errInvalidRequest]⟩
  by_cases named : Model.Ve.uint64FromVeId msg.veId ≠ Model.Ve.emptyVeId
  case neg => exact ⟨_, by rw [if_pos addressed, if_neg named]; rfl, ne_notOwned rfl⟩
  by_cases positive : 0 < msg.amount.amount
  case neg => exact ⟨_, by rw [if_pos addressed, if_pos named, if_neg positive]; rfl, ne_notOwned rfl⟩
  rw [if_pos addressed, if_pos named, if_pos positive]
  cases found : findValidator ctx state.holdings msg.validatorAddress with
  | error fault =>
    refine ⟨fault, rfl, ?_⟩
    unfold findValidator at found
    split at found
    · cases found
      simp [notOwned, errInternal, Model.Ve.errInvalidRequest]
    · split at found
      · cases found
        simp [notOwned, errNoValidatorFound, Model.Ve.errInvalidRequest]
      · cases found
  | ok validator =>
    by_cases denom : msg.amount.denom = ctx.bondDenom
    · exact absurd ⟨addressed, named, positive, findValidator_ok_iff.mp found, denom⟩ (malformed validator)
    · refine ⟨_, by rw [if_neg denom]; rfl, ne_notOwned ?_⟩
      simp only [String.toList_append, List.head?_append]
      rfl

end Delegate

/-- A message of the ve module, or a delegation that ownership does not matter for: it is not in order, or it is not of
the owner and the ve or the validator does not allow it. -/
def OwnershipIdle (ctx : Ctx) (state : State) : DisposalMsg → Prop
  | .ve _ => True
  | .veDelegate msg => ∀ validator, WellFormed ctx state msg validator →
      state.ve.store.getOwner msg.veId ≠ some msg.delegatorAddress ∧ ¬ Allowed ctx state msg validator

/-- Only the owner disposes of a ve, and may do so, where no delegation gets as far as the question. -/
theorem owner_guarded (ctx : Ctx) (state : State) {msg : DisposalMsg} (idle : OwnershipIdle ctx state msg) :
    OwnerGuarded ctx state msg := by
  cases msg with
  | ve msg => exact ⟨fun next => ownerMsg_signedByOwner, by rintro _ ⟨⟩⟩
  | veDelegate msg =>
    by_cases formed : ∃ validator, WellFormed ctx state msg validator
    · obtain ⟨validator, wellFormed⟩ := formed
      obtain ⟨other, forbidden⟩ := idle validator wellFormed
      refine ⟨fun next success => absurd ?_ forbidden, fun _ _ owner => absurd (owner msg.veId ?_) other⟩
      · rw [run_veDelegate_of_wellFormed wellFormed, if_neg other] at success
        obtain ⟨result, delegated, _⟩ := map_ok_iff.mp success
        exact veDelegate_allowed wellFormed.positive delegated
      · exact List.mem_singleton_self _
    · obtain ⟨fault, refused, kind⟩ := run_veDelegate_of_malformed (not_exists.mp formed)
      refine ⟨fun next success => absurd (refused.symm.trans success) (by simp), ?_⟩
      rintro _ ⟨⟩ _ asOwner
      exact kind (Except.error.inj (refused.symm.trans asOwner))

/-- The validator and the record of `sampleMixed`, with the ve in the hands of an account. -/
def sampleOwned (owner : Address) : State :=
  { sampleMixed with ve.store.nftOwner := fun veId => if veId = 1 then some owner else none }

def sampleDelegation : DisposalMsg := .veDelegate ⟨1, "valoper", "ve-1", ⟨"airon", 2⟩⟩

/-- Of a lock of four, two of them delegated, nobody but the owner gets three. -/
theorem owner_guarded_sample :
    OwnerGuarded sampleCtx (sampleOwned 2) (.veDelegate ⟨1, "valoper", "ve-1", ⟨"airon", 3⟩⟩) := by
  apply owner_guarded
  intro validator formed
  have other : (sampleOwned 2).ve.store.getOwner "ve-1" = some 2 := by decide +kernel
  refine ⟨?_, fun allowed => ?_⟩
  · rw [other]
    decide
  · exact absurd allowed.delegatable.enough (by decide +kernel)

/-- The owner is refused, and anybody else is served. -/
theorem owner_refused_sample :
    (SignedByOwner (sampleOwned 1) sampleDelegation ∧
      sampleDelegation.run sampleCtx (sampleOwned 1) = .error (notOwned "ve-1")) ∧
    ∃ next, sampleDelegation.run sampleCtx (sampleOwned 2) = .ok next ∧ ¬ SignedByOwner (sampleOwned 2) sampleDelegation := by
  have formed : WellFormed sampleCtx (sampleOwned 1) ⟨1, "valoper", "ve-1", ⟨"airon", 2⟩⟩ sampleValidator :=
    ⟨by decide, by decide, by decide, ⟨9, by decide, rfl⟩, rfl⟩
  have owned : (sampleOwned 1).ve.store.getOwner "ve-1" = some 1 := by decide +kernel
  have other : (sampleOwned 2).ve.store.getOwner "ve-1" = some 2 := by decide +kernel
  refine ⟨⟨?_, ?_⟩, ?_⟩
  · intro veId inside
    obtain rfl := List.mem_singleton.mp inside
    exact owned
  · rw [sampleDelegation, run_veDelegate_of_wellFormed formed]
    exact if_pos owned
  · have run : (fun next : State => next.holdings.veDelegatedAmount 1) <$> sampleDelegation.run sampleCtx (sampleOwned 2) =
        .ok 4 := by decide +kernel
    obtain ⟨next, success, _⟩ := map_ok_iff.mp run
    refine ⟨next, success, fun signed => ?_⟩
    have here := other.symm.trans (signed "ve-1" (List.mem_singleton_self _))
    exact absurd here (by decide)

end Rotofury.Soundness.Staking
