import Rotofury.Soundness.Ve.Locks
import Rotofury.Soundness.Ve.Regulation

/-! # Locks can be redeemed

Without slashing a ve has a lock exactly while its NFT exists, and the module's account holds the coins of all
locks. The stored total may exceed their sum but never falls below it, so a withdrawal is always covered.
-/

namespace Rotofury.Soundness.Ve

open Model.Sdk Model.App Model.Ve Except Function

/-- What the module's account holds of a denomination. -/
def moduleBalance (bank : Bank) (denom : Denom) : ℤ := bank.balance ModuleAccount.ve.address denom

/-- What holds in every run without slashing. -/
structure Backed (denom : Denom) (state : State) : Prop where
  registered : Registered state.store
  owned_iff : ∀ veId, 0 < (state.store.lockedAmountByUser veId).amount ↔ (state.store.nftOwner veId).isSome = true
  regulated : ∀ veId, regulatedPeriod ∣ (state.store.lockedAmountByUser veId).endTime
  funded : lockedSum state.store ≤ moduleBalance state.bank denom
  counted : lockedSum state.store ≤ state.store.totalLockedAmount

theorem backed_genesis (denom : Denom) (bank : Bank) : Backed denom (genesis bank) := by
  have none : lockedSum (genesis bank).store = 0 := by
    have empty : veIds (genesis bank).store = ∅ := Finset.Ico_self _
    rw [lockedSum, empty]
    rfl
  refine ⟨registered_genesis, ?_, ?_, ?_, ?_⟩
  · intro veId
    simp [genesis, Store.genesis, LockedBalance.empty]
  · exact fun _ => dvd_zero _
  · rw [none]
    exact Int.natCast_nonneg _
  · exact none.le

theorem takeLocked_balance {ctx : Ctx} {bank next : Bank} {sender : Address} {amount : ℤ} (nonneg : 0 ≤ amount)
    (other : 0 < amount → sender ≠ ModuleAccount.ve.address) (ok : takeLocked ctx bank sender amount true = .ok next) :
    moduleBalance next ctx.lockDenom = moduleBalance bank ctx.lockDenom + amount := by
  unfold takeLocked at ok
  split at ok
  · next positive =>
    have balances := (execOp_ok ok).1 ModuleAccount.ve.address ctx.lockDenom
    have unpaid : some sender ≠ some ModuleAccount.ve.address := fun same =>
      other positive.1 (Option.some.inj same)
    simpa [moduleBalance, BankOp.netChange, BankOp.credited, BankOp.debited, BankOp.coins, unpaid,
      other positive.1] using balances
  · next nothing =>
    obtain rfl : amount = 0 := by
      simp only [and_true, not_lt] at nothing
      omega
    cases ok
    rw [add_zero]

/-- A withdrawal takes no more than the lock from the module's account. -/
theorem withdrawn_balance {bank next : Bank} {receiver : Address} {denom : Denom} {amount : ℤ} (nonneg : 0 ≤ amount)
    (ok : execOp bank (.sendCoinsFromModuleToAccount .ve receiver [⟨denom, amount⟩]) = .ok next) :
    moduleBalance bank denom - amount ≤ moduleBalance next denom := by
  have balances := (execOp_ok ok).1 ModuleAccount.ve.address denom
  simp only [BankOp.netChange, BankOp.credited, BankOp.debited, BankOp.coins, amountOf_cons, amountOf_nil,
    onDenom_self, add_zero, if_true] at balances
  simp only [moduleBalance]
  split at balances <;> omega

namespace LockStep

variable {state next : State} {event : Event} {denom : Denom}

/-- A ve is created with its lock and burned with it. -/
theorem owned_iff (changed : LockStep event state next) (backed : Backed denom state)
    (unslashed : ∀ veId amount, event.action ≠ .slash veId amount) (veId : ℕ) :
    0 < (next.store.lockedAmountByUser veId).amount ↔ (next.store.nftOwner veId).isSome = true := by
  have before := backed.owned_iff veId
  cases changed with
  | idle _ locks _ _ owners => rw [locks, owners, before]
  | created _ _ _ positive _ _ locks _ _ owners =>
    rw [locks, owners, update_apply, update_apply]
    split
    · simp [positive]
    · exact before
  | deposited _ owner nonneg _ _ _ locks _ _ owners =>
    rw [locks, owners, update_apply]
    split
    · next same =>
      subst same
      have running := before.mpr owner
      exact iff_of_true (add_pos_of_pos_of_nonneg running nonneg) owner
    · exact before
  | @merged msg _ different fromOwner toOwner _ locks _ _ owners =>
    have fromRunning := (backed.owned_iff msg.fromVeId).mpr fromOwner
    have toRunning := (backed.owned_iff msg.toVeId).mpr toOwner
    rw [locks, owners]
    rcases eq_or_ne veId msg.toVeId with rfl | notTo
    · rw [update_self, update_of_ne different.symm]
      exact iff_of_true (add_pos toRunning fromRunning) toOwner
    · rw [update_of_ne notTo, update_apply, update_apply]
      split
      · simp [LockedBalance.empty]
      · exact before
  | withdrawn _ _ _ locks _ _ owners =>
    rw [locks, owners, update_apply, update_apply]
    split
    · simp [LockedBalance.empty]
    · exact before
  | slashed action => exact absurd action (unslashed _ _)

/-- Every lock ends on a whole week. -/
theorem regulated (changed : LockStep event state next) (backed : Backed denom state)
    (unslashed : ∀ veId amount, event.action ≠ .slash veId amount) (veId : ℕ) :
    regulatedPeriod ∣ (next.store.lockedAmountByUser veId).endTime := by
  have before := backed.regulated veId
  cases changed with
  | idle _ locks => exact locks ▸ before
  | created _ _ _ _ week _ locks | deposited _ _ _ _ week _ locks =>
    rw [locks, update_apply]
    split
    · exact week
    · exact before
  | merged _ _ _ _ week locks =>
    rw [locks, update_apply, update_apply]
    split
    · exact week
    · split
      · exact dvd_zero _
      · exact before
  | withdrawn _ _ _ locks =>
    rw [locks, update_apply]
    split
    · exact dvd_zero _
    · exact before
  | slashed action => exact absurd action (unslashed _ _)

/-- The account of the module keeps up with the sum of the locks. -/
theorem funded (changed : LockStep event state next) (backed : Backed denom state)
    (unslashed : ∀ veId amount, event.action ≠ .slash veId amount) (constant : event.ctx.lockDenom = denom)
    (signed : Event.Signed event) : lockedSum next.store ≤ moduleBalance next.bank denom := by
  have funds := backed.funded
  have within : WithinLock state event := fun veId amount action => absurd action (unslashed veId amount)
  obtain ⟨_, gain, drift⟩ := changed.drift backed.registered within
  have unpaid : ∀ {sender}, payer event.action = some sender → sender ≠ ModuleAccount.ve.address := by
    rintro sender paid rfl
    exact signed paid
  subst constant
  cases changed with
  | idle unmerged _ total _ _ bank =>
    rw [bank]
    omega
  | created _ _ payer positive _ taken _ total =>
    rw [takeLocked_balance positive.le (fun _ => unpaid payer) taken]
    omega
  | deposited _ _ nonneg payer _ taken _ total =>
    rw [takeLocked_balance nonneg (fun positive => unpaid (payer positive)) taken]
    omega
  | @merged msg action _ _ _ _ _ total _ _ bank =>
    have moved : mergedAmount state event = (state.store.lockedAmountByUser msg.fromVeId).amount := by
      rw [mergedAmount, action]
    rw [bank]
    omega
  | @withdrawn veId _ _ _ paid _ total =>
    have left := withdrawn_balance (backed.registered.nonneg veId) paid
    omega
  | slashed action => exact absurd action (unslashed _ _)

theorem backed (changed : LockStep event state next) (backed : Backed denom state)
    (unslashed : ∀ veId amount, event.action ≠ .slash veId amount) (constant : event.ctx.lockDenom = denom)
    (signed : Event.Signed event) : Backed denom next := by
  have within : WithinLock state event := fun veId amount action => absurd action (unslashed veId amount)
  obtain ⟨registered, gain, drift⟩ := changed.drift backed.registered within
  have counted := backed.counted
  exact ⟨registered, changed.owned_iff backed unslashed, changed.regulated backed unslashed,
    changed.funded backed unslashed constant signed, by omega⟩

end LockStep

/-- The conditions on the events of a run without slashing. -/
structure Event.Unslashed (denom : Denom) (event : Event) : Prop where
  unslashed : ∀ veId amount, event.action ≠ .slash veId amount
  constant : event.ctx.lockDenom = denom
  signed : Event.Signed event

theorem run_backed (bank : Bank) {denom : Denom} {events : List Event}
    (admitted : ∀ event ∈ events, Event.Unslashed denom event) : Backed denom (run bank events) := by
  apply Machine.replay_invariant (Backed denom) (Event.Unslashed denom) _ (backed_genesis denom bank) admitted
  intro state event next backed admitted ok
  exact (step_locks ok).backed backed admitted.unslashed admitted.constant admitted.signed

namespace Backed

variable {denom : Denom} {state : State}

/-- No lock exceeds the sum of all. -/
theorem amount_le_sum (backed : Backed denom state) (veId : ℕ) :
    (state.store.lockedAmountByUser veId).amount ≤ lockedSum state.store := by
  by_cases member : veId ∈ veIds state.store
  · exact Finset.single_le_sum (fun i _ => backed.registered.nonneg i) member
  · rw [backed.registered.fresh veId member]
    exact Finset.sum_nonneg fun i _ => backed.registered.nonneg i

/-- The module can pay out every lock. -/
theorem withdraw_never_short (backed : Backed denom state) {ctx : Ctx} (constant : ctx.lockDenom = denom)
    (msg : MsgWithdraw) (account : Address) (short : Denom) :
    Avoids (.insufficientFunds account short) (withdraw ctx state msg) := by
  have nonneg := backed.registered.nonneg msg.veId
  refine withdraw_avoids (by simp) (by simp [carryFaults]) (by simp [broken]) (by simp) ?_ ?_
  · rw [newCoin, if_neg (not_lt.mpr nonneg)]
    exact avoids_ok _ _
  · intro coin coined failure
    obtain ⟨_, rfl⟩ := newCoin_ok_iff.mp coined
    obtain ⟨debited, _, uncovered⟩ := execOp_shortage failure
    obtain rfl : ModuleAccount.ve.address = account := Option.some.inj debited
    apply uncovered
    intro d
    have covered := (backed.amount_le_sum msg.veId).trans backed.funded
    simp only [BankOp.coins, amountOf_cons, amountOf_nil, onDenom, constant]
    simp only [moduleBalance] at covered
    split
    · next same => subst same; omega
    · omega

/-- The stored total covers every lock. -/
theorem withdraw_never_negative (backed : Backed denom state) (ctx : Ctx) (msg : MsgWithdraw) :
    Avoids (.panic "total locked negative") (withdraw ctx state msg) := by
  have nonneg := backed.registered.nonneg msg.veId
  refine withdraw_avoids (by simp) (by simp [carryFaults]) (by simp [broken]) ?_ ?_ ?_
  · exact fun _ => (backed.amount_le_sum msg.veId).trans backed.counted
  · rw [newCoin, if_neg (not_lt.mpr nonneg)]
    exact avoids_ok _ _
  · exact fun coin _ => payment_avoids (by simp) _ _ _ _

end Backed

/-- In a run without slashing every lock is backed by coins of the module and can be withdrawn. -/
theorem locks_redeemable (bank : Bank) {denom : Denom} {events : List Event}
    (admitted : ∀ event ∈ events, Event.Unslashed denom event) :
    (∀ veId, 0 < ((run bank events).store.lockedAmountByUser veId).amount ↔
        ((run bank events).store.nftOwner veId).isSome = true) ∧
      (∀ veId, regulatedPeriod ∣ ((run bank events).store.lockedAmountByUser veId).endTime) ∧
      lockedSum (run bank events).store ≤ moduleBalance (run bank events).bank denom ∧
      ∀ ctx msg, ctx.lockDenom = denom →
        (∀ account short, step (run bank events) ⟨ctx, .withdraw msg⟩ ≠ .error (.insufficientFunds account short)) ∧
          step (run bank events) ⟨ctx, .withdraw msg⟩ ≠ .error (.panic "total locked negative") := by
  have backed := run_backed bank admitted
  refine ⟨backed.owned_iff, backed.regulated, backed.funded, ?_⟩
  intro ctx msg constant
  have valid : ∀ fault, (∀ error detail, .err error detail ≠ fault) → Avoids fault msg.validateBasic := by
    intro fault unregistered
    rw [MsgWithdraw.validateBasic, requireVeId, avoids_require]
    exact fun same => absurd same (unregistered _ _)
  constructor
  · intro account short
    exact (valid (.insufficientFunds account short) (by simp)).bind fun _ _ => backed.withdraw_never_short constant msg account short
  · exact (valid (.panic "total locked negative") (by simp)).bind fun _ _ => backed.withdraw_never_negative ctx msg

theorem locks_redeemable_sample :
    ((run sampleBank (sampleLocks 1)).store.nftOwner 1).isSome = true ∧
      0 < ((run sampleBank (sampleLocks 1)).store.lockedAmountByUser 1).amount := by
  have owner : ((run sampleBank (sampleLocks 1)).store.nftOwner 1).isSome = true := by decide +kernel
  have admitted : ∀ event ∈ sampleLocks 1, Event.Unslashed "airon" event := by
    intro event member
    simp only [sampleLocks, List.mem_cons, List.not_mem_nil, or_false] at member
    rcases member with rfl | rfl
    · exact ⟨by simp, rfl, by unfold Event.Signed; decide⟩
    · exact ⟨by simp, rfl, by unfold Event.Signed; decide⟩
  exact ⟨owner, ((locks_redeemable sampleBank admitted).1 1).mpr owner⟩

end Rotofury.Soundness.Ve
