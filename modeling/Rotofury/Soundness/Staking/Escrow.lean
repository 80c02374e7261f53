import Rotofury.Model.Staking.Keeper
import Rotofury.Soundness.Staking.Completion
import Rotofury.Soundness.Staking.Delegating
import Rotofury.Soundness.Ve.Locks

/-! # Delegated locks and the escrow

A ve may be withdrawn, or merged into another, only while nothing of it is delegated. The check asks the staking module
through a function that is set on a copy of the ve keeper and lost with it, so it is never made: the ve module serves every
message as if nothing were delegated. All other calls keep what ves have delegated within what they have locked.
-/

namespace Rotofury.Soundness.Staking

open Model.Sdk Model.App Model.Staking Except Function

variable {state next : State} {msg : Model.Ve.MsgWithdraw} {ctx : Ctx}

/-- No ve has more delegated than locked. -/
def LocksCover (state : State) : Prop :=
  ∀ veId, state.holdings.veDelegatedAmount veId ≤ (state.ve.store.lockedAmountByUser veId).amount

/-- Burning takes the same from both. -/
theorem Burned.locksCover {burned : ℕ → ℤ} (effect : Burned state next burned) (covers : LocksCover state) :
    LocksCover next := by
  intro veId
  rw [effect.amount, effect.locked]
  have here := covers veId
  omega

section VeDelegate

variable {ctx : Ctx} {state next : State} {delAddr : Address} {bondAmt : ℤ} {veTokens : List VeTokens}
  {tokenSrc : BondStatus} {validator : Validator} {subtractAccount : Bool} {newShares : ℕ}

theorem delegateVes_covered {locks : ℕ → Model.Ve.LockedBalance} {before after : Delegating}
    (covers : ∀ veId, before.holdings.veDelegatedAmount veId ≤ (locks veId).amount)
    (ok : veTokens.foldlM (delegateVe ctx locks delAddr validator) before = .ok after) :
    ∀ veId, after.holdings.veDelegatedAmount veId ≤ (locks veId).amount := by
  refine foldlM_invariant
    (fun delegating : Delegating => ∀ veId, delegating.holdings.veDelegatedAmount veId ≤ (locks veId).amount) covers
    (fun before part after _ covers turn veId => ?_) ok
  obtain ⟨_, _, delegated⟩ := delegateVe_ok turn
  rw [delegated.amounts, onVe]
  split
  · next same => exact same ▸ delegated.enough
  · rw [add_zero]
    exact covers veId

theorem veDelegate_locksCover
    (ok : veDelegate ctx state delAddr bondAmt veTokens tokenSrc validator subtractAccount = .ok (next, newShares))
    (covers : LocksCover state) : LocksCover next := by
  obtain ⟨opened, veDelegation, bank, delegating, delegated, parts⟩ := veDelegate_ok ok
  have atOpening : LocksCover opened := by
    have opening := parts.opening
    unfold openVeDelegation at opening
    split at opening
    · cases opening
      exact covers
    · obtain ⟨_, valAddr, burnt, settled⟩ := settleVeDelegation_settled opening
      rw [settled.written]
      exact settled.burned.locksCover covers
  have start : ∀ veId, delegating.holdings.veDelegatedAmount veId ≤ (opened.ve.store.lockedAmountByUser veId).amount := by
    rw [parts.coins.ves.veDelegatedAmount]
    exact atOpening
  have covered := delegateVes_covered start parts.loop
  rw [parts.next]
  intro veId
  change (addVeDelegatorShares delegated.holdings validator.operatorAddress delegated.totalNewShares).veDelegatedAmount veId ≤
    (opened.ve.store.lockedAmountByUser veId).amount
  rw [(addVeDelegatorShares_eq _ _ _).1]
  exact covered veId

end VeDelegate

section Messages

variable {ctx : Model.Ve.Ctx} {state next : Model.Ve.State}

theorem withdraw_lockedAmount (ok : Model.Ve.withdraw ctx state msg = .ok next) :
    next.store.lockedAmountByUser = update state.store.lockedAmountByUser msg.veId .empty := by
  simp only [Model.Ve.withdraw, Model.Ve.Store.burnNft, ok_iffs] at ok
  obtain ⟨_, _, _, _, _, _, _, _, _, _, history, _, _, ⟨_, _, rfl⟩, _, _, bank, _, rfl⟩ := ok
  rfl

theorem merge_lockedAmount {msg : Model.Ve.MsgMerge} (ok : Model.Ve.merge ctx state msg = .ok next) :
    ∃ endTime, next.store.lockedAmountByUser =
      update (update state.store.lockedAmountByUser msg.fromVeId .empty) msg.toVeId
        ⟨(state.store.lockedAmountByUser msg.toVeId).amount + (state.store.lockedAmountByUser msg.fromVeId).amount,
          endTime⟩ := by
  simp only [Model.Ve.merge, Model.Ve.Store.burnNft, ok_iffs] at ok
  obtain ⟨_, _, _, _, _, _, _, _, history, _, _, ⟨_, _, rfl⟩, deposited⟩ := ok
  obtain ⟨_, _, later, stored⟩ := Ve.depositFor_ok deposited rfl
  rw [stored]
  exact ⟨_, rfl⟩

end Messages

/-- The ves that a call takes out of the escrow. -/
def disposed : EscrowCall → List ℕ
  | .withdraw msg => [msg.veId]
  | .merge msg => [msg.fromVeId]
  | _ => []

/-- The call disposed of no ve that has something delegated, and left what ves have delegated within what they have
locked. -/
def EscrowKept (state : State) (call : EscrowCall) (next : State) : Prop :=
  (∀ veId ∈ disposed call, ¬ 0 < state.holdings.veDelegatedAmount veId) ∧ (LocksCover state → LocksCover next)

/-- The calls that do no harm to the escrow. -/
def Harmless (state : State) : EscrowCall → Prop
  | .veDelegate .. => True
  | .slashVeDelegatedAmount _ _ => True
  | .subVeDelegatedAmount veId subAmount => LocksCover state →
      state.holdings.veDelegatedAmount veId - subAmount ≤ (state.ve.store.lockedAmountByUser veId).amount
  | .withdraw msg => state.holdings.veDelegatedAmount msg.veId ≤ 0
  | .merge msg => state.holdings.veDelegatedAmount msg.fromVeId ≤ 0 ∧ (LocksCover state →
      state.holdings.veDelegatedAmount msg.toVeId ≤ (state.ve.store.lockedAmountByUser msg.toVeId).amount +
        (state.ve.store.lockedAmountByUser msg.fromVeId).amount)

theorem subVeDelegatedAmount_kept_iff {veId : ℕ} {subAmount : ℤ}
    (run : (EscrowCall.subVeDelegatedAmount veId subAmount).run ctx state = .ok next) :
    EscrowKept state (.subVeDelegatedAmount veId subAmount) next ↔
      Harmless state (.subVeDelegatedAmount veId subAmount) := by
  cases run
  have amounts : ∀ query, (state.holdings.subVeDelegatedAmount veId subAmount).veDelegatedAmount query =
      if query = veId then state.holdings.veDelegatedAmount veId - subAmount else state.holdings.veDelegatedAmount query :=
    fun query => update_apply ..
  constructor
  · intro kept covers
    have here := kept.2 covers veId
    change (state.holdings.subVeDelegatedAmount veId subAmount).veDelegatedAmount veId ≤ _ at here
    rwa [amounts, if_pos rfl] at here
  · intro within
    refine ⟨by simp [disposed], fun covers query => ?_⟩
    change (state.holdings.subVeDelegatedAmount veId subAmount).veDelegatedAmount query ≤ _
    rw [amounts]
    split
    · next same => exact same ▸ within covers
    · exact covers query

theorem withdraw_kept_iff (run : (EscrowCall.withdraw msg).run ctx state = .ok next) :
    EscrowKept state (.withdraw msg) next ↔ Harmless state (.withdraw msg) := by
  simp only [EscrowCall.run, ok_iffs] at run
  obtain ⟨_, _, ve, served, rfl⟩ := run
  constructor
  · intro kept
    exact not_lt.mp (kept.1 msg.veId (by simp [disposed]))
  · intro (undelegated : _ ≤ (0 : ℤ))
    refine ⟨by simpa [disposed] using undelegated, fun covers veId => ?_⟩
    change state.holdings.veDelegatedAmount veId ≤ (ve.store.lockedAmountByUser veId).amount
    rw [withdraw_lockedAmount served, update_apply]
    split
    · next same => exact same ▸ undelegated
    · exact covers veId

theorem merge_kept_iff {msg : Model.Ve.MsgMerge} (run : (EscrowCall.merge msg).run ctx state = .ok next) :
    EscrowKept state (.merge msg) next ↔ Harmless state (.merge msg) := by
  simp only [EscrowCall.run, ok_iffs] at run
  obtain ⟨_, _, ve, merged, rfl⟩ := run
  obtain ⟨endTime, locks⟩ := merge_lockedAmount merged
  constructor
  · intro kept
    refine ⟨not_lt.mp (kept.1 msg.fromVeId (by simp [disposed])), fun covers => ?_⟩
    have here := kept.2 covers msg.toVeId
    change _ ≤ (ve.store.lockedAmountByUser msg.toVeId).amount at here
    rwa [locks, update_self] at here
  · rintro ⟨undelegated, within⟩
    refine ⟨by simpa [disposed] using undelegated, fun covers veId => ?_⟩
    change state.holdings.veDelegatedAmount veId ≤ (ve.store.lockedAmountByUser veId).amount
    rw [locks, update_apply]
    split
    · next same => exact same ▸ within covers
    · rw [update_apply]
      split
      · next same => exact same ▸ undelegated
      · exact covers veId

/-- With the keepers wired as they are, a call that succeeds has kept the escrow exactly when it did no harm to it by
itself. -/
theorem escrow_kept_iff (ctx : Ctx) {call : EscrowCall} (run : call.run ctx state = .ok next) :
    EscrowKept state call next ↔ Harmless state call := by
  cases call with
  | veDelegate delAddr bondAmt veTokens tokenSrc validator subtractAccount =>
    refine iff_of_true ⟨by simp [disposed], fun covers => ?_⟩ trivial
    obtain ⟨⟨_, newShares⟩, delegated, rfl⟩ := map_ok_iff.mp run
    exact veDelegate_locksCover delegated covers
  | slashVeDelegatedAmount veId burnAmount =>
    refine iff_of_true ⟨by simp [disposed], fun covers => ?_⟩ trivial
    exact (slashVeDelegatedAmount_burned run).locksCover covers
  | subVeDelegatedAmount veId subAmount => exact subVeDelegatedAmount_kept_iff run
  | withdraw msg => exact withdraw_kept_iff run
  | merge msg => exact merge_kept_iff run

/-- A ve of an account with a lock of four that has ended, all of it delegated. -/
def sampleDelegated : State where
  holdings := delegatedBy fun veId => if veId = 1 then 4 else 0
  entries := Entries.empty
  ve := ⟨{ Model.Ve.Store.genesis.setLockedAmountByUser 1 ⟨4, 0⟩ with
      totalLockedAmount := 4, nftOwner := fun veId => if veId = 1 then some 1 else none },
    ⟨fun account denom => if account = ModuleAccount.ve.address ∧ denom = "airon" then 4 else 0, fun _ => 4⟩⟩

/-- Once nothing of it is delegated any more, the ve is withdrawn without harm. -/
theorem escrow_kept_sample :
    ∃ before next, (EscrowCall.subVeDelegatedAmount 1 4).run sampleCtx sampleDelegated = .ok before ∧
      EscrowKept sampleDelegated (.subVeDelegatedAmount 1 4) before ∧
      (EscrowCall.withdraw ⟨1, 1⟩).run sampleCtx before = .ok next ∧ EscrowKept before (.withdraw ⟨1, 1⟩) next := by
  have run : (fun _ => ()) <$> (EscrowCall.withdraw ⟨1, 1⟩).run sampleCtx
      (sampleDelegated.setHoldings (sampleDelegated.holdings.subVeDelegatedAmount 1 4)) = .ok () := by decide +kernel
  obtain ⟨next, success, -⟩ := map_ok_iff.mp run
  have undelegated : (sampleDelegated.holdings.subVeDelegatedAmount 1 4).veDelegatedAmount 1 ≤ 0 := by decide
  exact ⟨_, next, rfl, (escrow_kept_iff sampleCtx rfl).mpr fun _ => by decide, success,
    (escrow_kept_iff sampleCtx success).mpr undelegated⟩

/-- The ve is withdrawn although all of it is delegated. -/
theorem withdrawn_while_delegated_sample :
    ∃ next, LocksCover sampleDelegated ∧ 0 < sampleDelegated.holdings.veDelegatedAmount 1 ∧
      (EscrowCall.withdraw ⟨1, 1⟩).run sampleCtx sampleDelegated = .ok next ∧ ¬ LocksCover next := by
  have run : (fun next : State => (next.holdings.veDelegatedAmount 1, (next.ve.store.lockedAmountByUser 1).amount)) <$>
      (EscrowCall.withdraw ⟨1, 1⟩).run sampleCtx sampleDelegated = .ok (4, 0) := by decide +kernel
  obtain ⟨next, success, amounts⟩ := map_ok_iff.mp run
  obtain ⟨delegated, locked⟩ := Prod.mk.inj amounts
  refine ⟨next, fun veId => ?_, by decide, success, fun covers => ?_⟩
  · by_cases same : veId = 1
    · subst same
      decide
    · simp [sampleDelegated, delegatedBy, Model.Ve.Store.setLockedAmountByUser, Model.Ve.Store.genesis, same,
        Model.Ve.LockedBalance.empty]
  · have here := covers 1
    rw [delegated, locked] at here
    exact absurd here (by decide)

end Rotofury.Soundness.Staking
