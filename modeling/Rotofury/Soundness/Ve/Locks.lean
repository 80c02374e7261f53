import Rotofury.Soundness.Ve.Reduction

/-! # Locks, their stored total and the coins behind them

`LockStep` says what a successful event did to the locks, to their stored total, to the NFTs and to the bank,
whatever the time of its block. The stored total is the sum of the locks until two ves are merged: `DepositFor`
adds the moved amount a second time.
-/

namespace Rotofury.Soundness.Ve

open Model.Sdk Model.App Model.Ve Except Function Machine

variable {ctx : Ctx} {veId unlockTime : ℕ} {state next : State} {sender : Address} {amount : ℤ}
  {locked : LockedBalance} {sendCoins : Bool} {store : Store} {event : Event}

/-- The sum of the locks of all ves. -/
def lockedSum (store : Store) : ℤ := ∑ veId ∈ veIds store, (store.lockedAmountByUser veId).amount

/-- The account that pays for a lock. -/
def payer : Action → Option Address
  | .create msg => some msg.sender
  | .deposit msg => some msg.sender
  | _ => none

/-- A module account has no key: the ve account signs no message. -/
def Event.Signed (event : Event) : Prop := payer event.action ≠ some ModuleAccount.ve.address

/-- What a successful event did to the locks, their stored total, the NFTs and the bank. -/
inductive LockStep (event : Event) (state next : State) : Prop
  | idle (unmerged : ∀ msg, event.action ≠ .merge msg)
      (locks : next.store.lockedAmountByUser = state.store.lockedAmountByUser)
      (total : next.store.totalLockedAmount = state.store.totalLockedAmount)
      (nextVeId : next.store.nextVeId = state.store.nextVeId)
      (owners : ∀ veId, (next.store.nftOwner veId).isSome = (state.store.nftOwner veId).isSome)
      (bank : next.bank = state.bank)
  | created (receiver : Address) {sender : Address} {amount : ℤ} {endTime : ℕ} (unmerged : ∀ msg, event.action ≠ .merge msg)
      (payer : payer event.action = some sender) (positive : 0 < amount) (regulated : regulatedPeriod ∣ endTime)
      (taken : takeLocked event.ctx state.bank sender amount true = .ok next.bank)
      (locks : next.store.lockedAmountByUser =
        update state.store.lockedAmountByUser state.store.nextVeId ⟨amount, endTime⟩)
      (total : next.store.totalLockedAmount = state.store.totalLockedAmount + amount)
      (nextVeId : next.store.nextVeId = state.store.nextVeId + 1)
      (owners : next.store.nftOwner = update state.store.nftOwner state.store.nextVeId (some receiver))
  | deposited {veId : ℕ} {sender : Address} {amount : ℤ} {endTime : ℕ} (unmerged : ∀ msg, event.action ≠ .merge msg)
      (owner : (state.store.nftOwner veId).isSome = true) (nonneg : 0 ≤ amount)
      (payer : 0 < amount → payer event.action = some sender) (regulated : regulatedPeriod ∣ endTime)
      (taken : takeLocked event.ctx state.bank sender amount true = .ok next.bank)
      (locks : next.store.lockedAmountByUser = update state.store.lockedAmountByUser veId
        ⟨(state.store.lockedAmountByUser veId).amount + amount, endTime⟩)
      (total : next.store.totalLockedAmount = state.store.totalLockedAmount + amount)
      (nextVeId : next.store.nextVeId = state.store.nextVeId) (owners : next.store.nftOwner = state.store.nftOwner)
  | merged {msg : MsgMerge} (action : event.action = .merge msg) (different : msg.fromVeId ≠ msg.toVeId)
      (fromOwner : (state.store.nftOwner msg.fromVeId).isSome = true)
      (toOwner : (state.store.nftOwner msg.toVeId).isSome = true)
      (regulated : regulatedPeriod ∣ (mergedLock state.store msg).endTime)
      (locks : next.store.lockedAmountByUser = update
        (update state.store.lockedAmountByUser msg.fromVeId .empty) msg.toVeId (mergedLock state.store msg))
      (total : next.store.totalLockedAmount =
        state.store.totalLockedAmount + max 0 (state.store.lockedAmountByUser msg.fromVeId).amount)
      (nextVeId : next.store.nextVeId = state.store.nextVeId)
      (owners : next.store.nftOwner = update state.store.nftOwner msg.fromVeId none)
      (bank : next.bank = state.bank)
  | withdrawn {veId : ℕ} {sender : Address} (unmerged : ∀ msg, event.action ≠ .merge msg)
      (owner : (state.store.nftOwner veId).isSome = true)
      (paid : execOp state.bank (.sendCoinsFromModuleToAccount .ve sender
        [⟨event.ctx.lockDenom, (state.store.lockedAmountByUser veId).amount⟩]) = .ok next.bank)
      (locks : next.store.lockedAmountByUser = update state.store.lockedAmountByUser veId .empty)
      (total : next.store.totalLockedAmount =
        state.store.totalLockedAmount - (state.store.lockedAmountByUser veId).amount)
      (nextVeId : next.store.nextVeId = state.store.nextVeId)
      (owners : next.store.nftOwner = update state.store.nftOwner veId none)
  | slashed {veId : ℕ} {amount : ℤ} (action : event.action = .slash veId amount) (nonneg : 0 ≤ amount)
      (locks : next.store.lockedAmountByUser =
        update state.store.lockedAmountByUser veId (slashedLock state.store veId amount))
      (total : next.store.totalLockedAmount = state.store.totalLockedAmount - amount)
      (nextVeId : next.store.nextVeId = state.store.nextVeId) (owners : next.store.nftOwner = state.store.nftOwner)

/-- A lock is only recorded with an end on a whole week. -/
theorem regulateUserCheckpoint_regulated {history next : History} {lockedOld lockedNew : LockedBalance}
    (ok : regulateUserCheckpoint ctx history veId lockedOld lockedNew = .ok next) :
    regulatedPeriod ∣ lockedNew.endTime := by
  simp only [regulateUserCheckpoint, checkRegulatedUnixTime, ok_iffs] at ok
  obtain ⟨_, _, _, regulated, _⟩ := ok
  exact regulatedUnixTime_eq_iff.mp regulated

/-- `DepositFor` adds to the lock, to the total and to the account of the module. -/
theorem depositFor_ok (ok : depositFor ctx state sender veId amount unlockTime locked sendCoins = .ok next)
    {endTime : ℕ} (endEq : (if 0 < unlockTime then unlockTime else locked.endTime) = endTime) :
    takeLocked ctx state.bank sender amount sendCoins = .ok next.bank ∧ regulatedPeriod ∣ endTime ∧
      ∃ history, next.store =
        { state.store.setLockedAmountByUser veId ⟨locked.amount + amount, endTime⟩ with
          totalLockedAmount := state.store.totalLockedAmount + max 0 amount, history := history } := by
  subst endEq
  simp only [depositFor, ok_iffs] at ok
  obtain ⟨bank, taken, history, regulated, rfl⟩ := ok
  have total : (if 0 < amount then state.store.totalLockedAmount + amount else state.store.totalLockedAmount) =
      state.store.totalLockedAmount + max 0 amount := by
    split <;> omega
  exact ⟨taken, regulateUserCheckpoint_regulated regulated, history, by rw [total]⟩

section Cases

variable {ctx : Ctx} {state next : State}

theorem create_locks {msg : MsgCreate} (ok : create ctx state msg = .ok next) (valid : msg.validateBasic = .ok ()) :
    LockStep ⟨ctx, .create msg⟩ state next := by
  simp only [MsgCreate.validateBasic, requirePositiveAmount, ok_iffs] at valid
  obtain ⟨_, positive, -⟩ := valid
  simp only [create, Store.mintNft, ok_iffs] at ok
  obtain ⟨_, _, _, _, _, _, _, _, _, ⟨_, _, rfl⟩, deposited⟩ := ok
  obtain ⟨taken, regulated, history, stored⟩ := depositFor_ok deposited rfl
  refine .created (msg.receiver.getD msg.sender) (by simp) rfl positive regulated taken ?_ ?_ ?_ ?_
  · simp [stored, Store.setLockedAmountByUser, LockedBalance.empty]
  · rw [stored]
    exact congrArg (state.store.totalLockedAmount + ·) (max_eq_right positive.le)
  · rw [stored]
    rfl
  · rw [stored]
    rfl

theorem runningLock_owner (ok : runningLock ctx store veId = .ok locked) :
    locked = store.lockedAmountByUser veId ∧ (store.nftOwner veId).isSome = true := by
  simp only [runningLock, ok_iffs] at ok
  obtain ⟨_, owner, _, _, _, _, rfl⟩ := ok
  exact ⟨rfl, owner⟩

/-- Adding to a lock, or extending it, in the terms of a lock step. -/
theorem depositFor_locks (unmerged : ∀ msg, event.action ≠ .merge msg)
    (owner : (state.store.nftOwner veId).isSome = true) (nonneg : 0 ≤ amount)
    (payer : 0 < amount → payer event.action = some sender) (sends : 0 < amount → sendCoins = true)
    (ok : depositFor event.ctx state sender veId amount unlockTime (state.store.lockedAmountByUser veId) sendCoins =
      .ok next) : LockStep event state next := by
  obtain ⟨taken, regulated, history, stored⟩ := depositFor_ok ok rfl
  have same : takeLocked event.ctx state.bank sender amount sendCoins = takeLocked event.ctx state.bank sender amount true := by
    unfold takeLocked
    by_cases positive : 0 < amount
    · rw [sends positive]
    · simp [positive]
  apply LockStep.deposited unmerged owner nonneg payer regulated (same ▸ taken)
  · rw [stored]
    rfl
  · rw [stored]
    exact congrArg (state.store.totalLockedAmount + ·) (max_eq_right nonneg)
  · rw [stored]
    rfl
  · rw [stored]
    rfl

theorem deposit_locks {msg : MsgDeposit} (ok : deposit ctx state msg = .ok next)
    (valid : msg.validateBasic = .ok ()) : LockStep ⟨ctx, .deposit msg⟩ state next := by
  simp only [MsgDeposit.validateBasic, requirePositiveAmount, ok_iffs] at valid
  obtain ⟨_, _, positive⟩ := valid
  simp only [deposit, bind_ok_iff] at ok
  obtain ⟨_, _, locked, running, deposited⟩ := ok
  obtain ⟨rfl, owner⟩ := runningLock_owner running
  exact depositFor_locks (by simp) owner positive.le (fun _ => rfl) (fun _ => rfl) deposited

theorem extendTime_locks {msg : MsgExtendTime} (ok : extendTime ctx state msg = .ok next) :
    LockStep ⟨ctx, .extendTime msg⟩ state next := by
  simp only [extendTime, bind_ok_iff] at ok
  obtain ⟨locked, running, _, _, _, _, _, _, deposited⟩ := ok
  obtain ⟨rfl, owner⟩ := runningLock_owner running
  exact depositFor_locks (by simp) owner le_rfl (fun moved => absurd moved (lt_irrefl 0))
    (fun moved => absurd moved (lt_irrefl 0)) deposited

/-- The end of the lock two ves are merged into. -/
theorem longest_end (fromEnd toEnd : ℕ) :
    (if 0 < (if fromEnd < toEnd then toEnd else fromEnd) then (if fromEnd < toEnd then toEnd else fromEnd)
      else toEnd) = max fromEnd toEnd := by
  rw [max_def]
  split_ifs <;> omega

theorem merge_locks {msg : MsgMerge} (ok : merge ctx state msg = .ok next) (valid : msg.validateBasic = .ok ()) :
    LockStep ⟨ctx, .merge msg⟩ state next := by
  simp only [MsgMerge.validateBasic, ok_iffs] at valid
  obtain ⟨_, _, _, _, different⟩ := valid
  simp only [merge, Store.requireOwner, Store.burnNft, ok_iffs] at ok
  obtain ⟨_, fromOwner, _, toOwner, _, _, _, _, history, _, _, ⟨_, _, rfl⟩, deposited⟩ := ok
  obtain ⟨taken, regulated, later, stored⟩ := depositFor_ok deposited (longest_end _ _)
  have unmoved : next.bank = state.bank := by simpa [takeLocked] using taken.symm
  apply LockStep.merged rfl different (by simp [fromOwner]) (by simp [toOwner]) regulated ?_ ?_ ?_ ?_ unmoved
  all_goals
    rw [stored]
    rfl

theorem withdraw_locks {msg : MsgWithdraw} (ok : withdraw ctx state msg = .ok next) :
    LockStep ⟨ctx, .withdraw msg⟩ state next := by
  simp only [withdraw, Store.requireOwner, Store.burnNft, newCoin_ok_iff, ok_iffs] at ok
  obtain ⟨_, owner, _, _, _, _, _, _, _, _, history, _, _, ⟨_, _, rfl⟩, _, ⟨_, rfl⟩, bank, paid, rfl⟩ := ok
  exact .withdrawn (by simp) (by simp [owner]) paid rfl rfl rfl rfl

theorem slash_locks (ok : slashLockedAmountByUser ctx state veId amount = .ok next) :
    LockStep ⟨ctx, .slash veId amount⟩ state next := by
  simp only [slashLockedAmountByUser, newCoin_ok_iff, ok_iffs] at ok
  obtain ⟨_, ⟨nonneg, rfl⟩, _, _, history, _, rfl⟩ := ok
  exact .slashed rfl nonneg rfl rfl rfl rfl

theorem send_locks {msg : MsgSend} (ok : send state.store msg = .ok store) :
    LockStep ⟨ctx, .send msg⟩ state { state with store := store } := by
  simp only [send, Store.transferNft, ok_iffs] at ok
  obtain ⟨_, _, _, _, _, owned, rfl⟩ := ok
  refine .idle (by simp) rfl rfl rfl (fun veId => ?_) rfl
  simp only [update_apply]
  split
  · next same => rw [same, owned, Option.isSome_some]
  · rfl

end Cases

theorem step_locks (ok : step state event = .ok next) :
    LockStep event state next := by
  obtain ⟨ctx, action⟩ := event
  cases action <;> simp only [step, ok_iffs] at ok
  case create => obtain ⟨_, valid, ok⟩ := ok; exact create_locks ok valid
  case deposit => obtain ⟨_, valid, ok⟩ := ok; exact deposit_locks ok valid
  case extendTime => obtain ⟨_, _, ok⟩ := ok; exact extendTime_locks ok
  case merge => obtain ⟨_, valid, ok⟩ := ok; exact merge_locks ok valid
  case withdraw => obtain ⟨_, _, ok⟩ := ok; exact withdraw_locks ok
  case send => obtain ⟨_, ok, rfl⟩ := ok; exact send_locks ok
  case slash => exact slash_locks ok
  case attach => cases ok; exact .idle (by simp) rfl rfl rfl (fun _ => rfl) rfl
  case endBlock => obtain ⟨_, _, rfl⟩ := ok; exact .idle (by simp) rfl rfl rfl (fun _ => rfl) rfl

/-- No id but those of the ves has a lock or an owner, and no lock is negative. -/
structure Registered (store : Store) : Prop where
  nextVeId_pos : firstVeId ≤ store.nextVeId
  owned : ∀ veId, (store.nftOwner veId).isSome = true → veId ∈ veIds store
  fresh : ∀ veId ∉ veIds store, (store.lockedAmountByUser veId).amount = 0
  nonneg : LocksNonneg store

theorem registered_genesis : Registered Store.genesis where
  nextVeId_pos := le_rfl
  owned := fun _ owner => by simp [Store.genesis] at owner
  fresh := fun _ _ => rfl
  nonneg := fun _ => le_rfl

section Sums

variable {store next : Store} {veId : ℕ} {locked : LockedBalance}

theorem veIds_eq_of_nextVeId (nextVeId : next.nextVeId = store.nextVeId) : veIds next = veIds store := by
  rw [veIds, veIds, nextVeId]

/-- Changing a lock changes the sum by the difference. -/
theorem lockedSum_update (tracked : veId ∈ veIds store ∨ locked.amount = (store.lockedAmountByUser veId).amount)
    (nextVeId : next.nextVeId = store.nextVeId)
    (locks : next.lockedAmountByUser = update store.lockedAmountByUser veId locked) :
    lockedSum next = lockedSum store + (locked.amount - (store.lockedAmountByUser veId).amount) := by
  have changed : (next.lockedAmountByUser veId).amount = locked.amount := by rw [locks, update_self]
  have others : ∀ i, i ≠ veId → (next.lockedAmountByUser i).amount = (store.lockedAmountByUser i).amount := by
    intro i different
    rw [locks, update_of_ne different]
  rw [lockedSum, lockedSum, veIds_eq_of_nextVeId nextVeId]
  rcases tracked with member | same
  · have split := Finset.add_sum_erase (veIds store) (fun i => (store.lockedAmountByUser i).amount) member
    have splitNext := Finset.add_sum_erase (veIds store) (fun i => (next.lockedAmountByUser i).amount) member
    have rest := Finset.sum_congr (M := ℤ) rfl fun i inside => others i (Finset.ne_of_mem_erase (s := veIds store) inside)
    omega
  · rw [same, sub_self, add_zero]
    apply Finset.sum_congr rfl
    intro i _
    by_cases here : i = veId
    · rw [here, changed, same]
    · exact others i here

/-- The lock of a new ve is added to the sum. -/
theorem lockedSum_create (registered : Registered store) (nextVeId : next.nextVeId = store.nextVeId + 1)
    (locks : next.lockedAmountByUser = update store.lockedAmountByUser store.nextVeId locked) :
    lockedSum next = lockedSum store + locked.amount := by
  have older : ∑ i ∈ veIds store, (next.lockedAmountByUser i).amount = lockedSum store := by
    apply Finset.sum_congr rfl
    intro i inside
    rw [locks, update_of_ne (Finset.mem_Ico.mp inside).2.ne]
  have newest : next.lockedAmountByUser store.nextVeId = locked := by rw [locks, update_self]
  rw [lockedSum, veIds, nextVeId, Finset.sum_Ico_succ_top registered.nextVeId_pos, newest]
  exact congrArg (· + locked.amount) older

/-- The registry survives the change of one lock; a total that changes with the lock keeps its distance from the
sum. -/
theorem Registered.relock (registered : Registered store)
    (tracked : veId ∈ veIds store ∨ locked.amount = (store.lockedAmountByUser veId).amount) (amount : 0 ≤ locked.amount)
    (nextVeId : next.nextVeId = store.nextVeId)
    (locks : next.lockedAmountByUser = update store.lockedAmountByUser veId locked)
    (owners : ∀ veId, (next.nftOwner veId).isSome = true → (store.nftOwner veId).isSome = true) (added : ℤ)
    (total : next.totalLockedAmount =
      store.totalLockedAmount + (locked.amount - (store.lockedAmountByUser veId).amount) + added) :
    Registered next ∧
      next.totalLockedAmount - lockedSum next = store.totalLockedAmount - lockedSum store + added := by
  have sameIds := veIds_eq_of_nextVeId nextVeId
  refine ⟨⟨nextVeId ▸ registered.nextVeId_pos, ?_, ?_, registered.nonneg.update locks amount⟩, ?_⟩
  · intro other owner
    rw [sameIds]
    exact registered.owned other (owners other owner)
  · intro other outside
    rw [sameIds] at outside
    have nothing := registered.fresh other outside
    rw [locks, update_apply]
    split
    · next here =>
      subst here
      exact (tracked.resolve_left outside).trans nothing
    · exact nothing
  · rw [total, lockedSum_update tracked nextVeId locks]
    ring

end Sums

/-- What a merge moves from one lock to another. -/
def mergedAmount (state : State) (event : Event) : ℤ :=
  match event.action with
  | .merge msg => (state.store.lockedAmountByUser msg.fromVeId).amount
  | _ => 0

theorem mergedAmount_of_unmerged (unmerged : ∀ msg, event.action ≠ .merge msg) :
    mergedAmount state event = 0 := by
  unfold mergedAmount
  split
  · next msg action => exact absurd action (unmerged msg)
  · rfl

theorem owned_of_burned {next : Store} {burned : ℕ} (owners : next.nftOwner = update store.nftOwner burned none)
    (veId : ℕ) (owner : (next.nftOwner veId).isSome = true) : (store.nftOwner veId).isSome = true := by
  rw [owners] at owner
  exact Option.isSome_iff_ne_none.mpr (owner_of_burned (Option.isSome_iff_ne_none.mp owner))

/-- The registry survives a step, and the stored total drifts from the sum by what a merge moves. -/
theorem LockStep.drift (changed : LockStep event state next) (registered : Registered state.store)
    (within : WithinLock state event) :
    Registered next.store ∧ 0 ≤ mergedAmount state event ∧
      next.store.totalLockedAmount - lockedSum next.store =
        state.store.totalLockedAmount - lockedSum state.store + mergedAmount state event := by
  cases changed with
  | idle unmerged locks total nextVeId owners =>
    have sameIds := veIds_eq_of_nextVeId nextVeId
    rw [mergedAmount_of_unmerged unmerged, total, lockedSum, lockedSum, sameIds, locks]
    refine ⟨⟨nextVeId ▸ registered.nextVeId_pos, ?_, ?_, ?_⟩, le_rfl, (add_zero _).symm⟩
    · intro veId owner
      rw [sameIds]
      exact registered.owned veId (owners veId ▸ owner)
    · rw [sameIds, locks]
      exact registered.fresh
    · exact fun veId => locks ▸ registered.nonneg veId
  | created _ unmerged _ positive _ _ locks total nextVeId owners =>
    have sum := lockedSum_create registered nextVeId locks
    have grown : veIds state.store ⊆ veIds next.store :=
      Finset.Ico_subset_Ico le_rfl (nextVeId ▸ Nat.le_succ _)
    have newest : state.store.nextVeId ∈ veIds next.store :=
      Finset.mem_Ico.mpr ⟨registered.nextVeId_pos, nextVeId ▸ Nat.lt_succ_self _⟩
    rw [mergedAmount_of_unmerged unmerged, total, sum]
    refine ⟨⟨registered.nextVeId_pos.trans (nextVeId ▸ Nat.le_succ _), ?_, ?_, ?_⟩, le_rfl, by ring⟩
    · intro veId owner
      rw [owners, update_apply] at owner
      split at owner
      · next same => exact same ▸ newest
      · exact grown (registered.owned veId owner)
    · intro veId outside
      have different : veId ≠ state.store.nextVeId := fun same => outside (same ▸ newest)
      rw [locks, update_of_ne different]
      exact registered.fresh veId fun inside => outside (grown inside)
    · exact registered.nonneg.update locks positive.le
  | @deposited veId _ amount endTime unmerged owner nonneg _ _ _ locks total nextVeId owners =>
    have member := registered.owned veId owner
    have grown : 0 ≤ (state.store.lockedAmountByUser veId).amount + amount := add_nonneg (registered.nonneg _) nonneg
    rw [mergedAmount_of_unmerged unmerged]
    obtain ⟨kept, drift⟩ := registered.relock (.inl member) grown nextVeId locks (fun _ => owners ▸ id) 0
      (by rw [total]; ring)
    exact ⟨kept, le_rfl, drift⟩
  | @merged msg action different fromOwner toOwner _ locks total nextVeId owners =>
    have moved : mergedAmount state event = (state.store.lockedAmountByUser msg.fromVeId).amount := by
      rw [mergedAmount, action]
    have nonneg := registered.nonneg msg.fromVeId
    -- first one lock is emptied without a change of the total, then the other one grows with it
    let middle := state.store.deleteLockedAmountByUser msg.fromVeId
    have kept : middle.lockedAmountByUser msg.toVeId = state.store.lockedAmountByUser msg.toVeId :=
      update_of_ne different.symm _ _
    have untouched : middle.totalLockedAmount = state.store.totalLockedAmount + (LockedBalance.empty.amount -
        (state.store.lockedAmountByUser msg.fromVeId).amount) + mergedAmount state event := by
      rw [moved]
      simp [middle, LockedBalance.empty, Store.deleteLockedAmountByUser, Store.setLockedAmountByUser]
    obtain ⟨emptied, drift⟩ := registered.relock (.inl (registered.owned _ fromOwner)) le_rfl
      (show middle.nextVeId = state.store.nextVeId from rfl) rfl (fun _ => id) _ untouched
    have grown : next.store.totalLockedAmount = middle.totalLockedAmount +
        ((mergedLock state.store msg).amount - (middle.lockedAmountByUser msg.toVeId).amount) + 0 := by
      rw [total, kept, max_eq_right nonneg]
      simp only [middle, mergedLock, Store.deleteLockedAmountByUser, Store.setLockedAmountByUser]
      ring
    obtain ⟨filled, same⟩ := emptied.relock (.inl (registered.owned _ toOwner))
      (add_nonneg (registered.nonneg _) nonneg) nextVeId locks (owned_of_burned owners) 0 grown
    exact ⟨filled, moved ▸ nonneg, by rw [same, drift, add_zero]⟩
  | withdrawn unmerged owner _ locks total nextVeId owners =>
    have member := registered.owned _ owner
    rw [mergedAmount_of_unmerged unmerged]
    obtain ⟨kept, drift⟩ := registered.relock (.inl member) le_rfl nextVeId locks (owned_of_burned owners) 0
      (by rw [total]; simp [LockedBalance.empty, sub_eq_add_neg])
    exact ⟨kept, le_rfl, drift⟩
  | @slashed veId amount action nonneg locks total nextVeId owners =>
    have enough := within veId amount action
    have unmerged : mergedAmount state event = 0 := by rw [mergedAmount, action]
    -- an id that is no ve has nothing to slash
    have tracked : veId ∈ veIds state.store ∨
        (slashedLock state.store veId amount).amount = (state.store.lockedAmountByUser veId).amount := by
      by_cases member : veId ∈ veIds state.store
      · exact .inl member
      · have nothing := registered.fresh veId member
        exact .inr (by simp only [slashedLock]; omega)
    rw [unmerged]
    obtain ⟨kept, drift⟩ := registered.relock tracked (sub_nonneg.mpr enough) nextVeId locks (fun _ => owners ▸ id)
      0 (by rw [total, slashedLock]; ring)
    exact ⟨kept, le_rfl, drift⟩

/-- The stored total is the sum of the locks exactly as long as no merge has moved anything. -/
theorem totalLockedAmount_eq_sum_iff (bank : Bank) {events : List Event}
    (succeeds : Throughout step (Succeeds step) (genesis bank) events)
    (within : Throughout step WithinLock (genesis bank) events) :
    (run bank events).store.totalLockedAmount = lockedSum (run bank events).store ↔
      Throughout step (fun state event => mergedAmount state event = 0) (genesis bank) events := by
  have initial : Registered (genesis bank).store := registered_genesis
  have zero : (genesis bank).store.totalLockedAmount - lockedSum (genesis bank).store = 0 := by
    have none : veIds (genesis bank).store = ∅ := Finset.Ico_self _
    rw [lockedSum, none]
    rfl
  rw [← sub_eq_zero]
  apply replay_eq_zero_iff (fun state : State => Registered state.store)
    (fun state event => Succeeds step state event ∧ WithinLock state event)
    (fun state => state.store.totalLockedAmount - lockedSum state.store) mergedAmount _ initial zero
  · intro before event after split
    exact ⟨succeeds before event after split, within before event after split⟩
  · rintro state event registered ⟨⟨next, success⟩, withinLock⟩
    rw [advance_of_ok success]
    exact (step_locks success).drift registered withinLock

/-- Two running locks, and the block in which they are merged. -/
def sampleMerge : List Event := sampleLocks 4 ++ [⟨sampleNow, .merge ⟨1, 1, 2⟩⟩]

theorem totalLockedAmount_eq_sum_iff_sample :
    (run sampleBank (sampleLocks 4)).store.totalLockedAmount = lockedSum (run sampleBank (sampleLocks 4)).store := by
  have succeeds : (fun final : State => final.store.nextVeId) <$> (sampleLocks 4).foldlM step (genesis sampleBank) =
      .ok 3 := by decide +kernel
  obtain ⟨final, success, _⟩ := map_ok_iff.mp succeeds
  apply (totalLockedAmount_eq_sum_iff sampleBank (throughout_succeeds success) (sampleLocks_within 4)).mpr
  exact throughout_cons rfl (throughout_cons rfl (throughout_nil step _ _))

/-- Merging locks of ten and five counts the ten twice. -/
theorem totalLockedAmount_sample :
    (sampleMerge.foldlM step (genesis sampleBank)).map (fun final =>
        (final.store.totalLockedAmount, lockedSum final.store)) =
      .ok (25 * maxLockTime, 15 * maxLockTime) := by
  decide +kernel

end Rotofury.Soundness.Ve
