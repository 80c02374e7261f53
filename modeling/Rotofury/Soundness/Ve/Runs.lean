import Rotofury.Soundness.Ve.Tracking

/-! # Steps and runs of the ve module

Every successful event leaves the locks and the history alone, regulates the system checkpoint, or changes one
lock after another. `Sound` is the invariant of all runs.
-/

namespace Rotofury.Soundness.Ve

open Model.Sdk Model.Ve Except Function Machine

variable {now veId : ℕ} {store base : Store} {lockedOld lockedNew locked : LockedBalance} {ctx : Ctx}
  {state next : State} {amount : ℤ} {event : Event} {msg : MsgMerge} {events : List Event}

/-- The ves created so far. -/
def veIds (store : Store) : Finset ℕ := Finset.Ico firstVeId store.nextVeId

/-- What holds of the store at a time in every run: its history tracks the locks of the ves created so far, and
no other id has a lock, a checkpoint or an owner. -/
structure Sound (now : ℕ) (store : Store) : Prop where
  tracks : Tracks (veIds store) store.lockedAmountByUser now store.history
  nextVeId_pos : firstVeId ≤ store.nextVeId
  fresh : ∀ veId ∉ veIds store, (store.lockedAmountByUser veId).line = ⟨0, 0⟩ ∧
    (store.history.lastUser veId).bias = 0 ∧ (store.history.lastUser veId).slope = 0
  owned : ∀ veId, store.nftOwner veId ≠ none → veId ∈ veIds store

theorem sound_genesis : Sound 0 Store.genesis where
  tracks := by
    have none : veIds Store.genesis = ∅ := by decide
    rw [none]
    exact Tracks.genesis 0 _
  nextVeId_pos := le_rfl
  fresh := fun _ _ => ⟨rfl, rfl, rfl⟩
  owned := fun _ owner => absurd rfl owner

theorem Sound.wait {later : ℕ} (sound : Sound now store) (ordered : now ≤ later) :
    Sound later store :=
  { sound with tracks := sound.tracks.wait ordered }

section Flat

variable {ids more : Finset ℕ} {locks : ℕ → LockedBalance} {now : ℕ} {history : History}

/-- Ids without a line do not count in a sum over lines. -/
theorem sum_flat (included : ids ⊆ more) (flat : ∀ i ∈ more, i ∉ ids → (locks i).line = ⟨0, 0⟩)
    (quantity : Math.Line → ℤ) (zero : quantity ⟨0, 0⟩ = 0) :
    ∑ i ∈ more, quantity (lines locks i) = ∑ i ∈ ids, quantity (lines locks i) := by
  refine (Finset.sum_subset included fun i inside outside => ?_).symm
  rw [lines, flat i inside outside, zero]

/-- Ids without a line can be added to those that are tracked. -/
theorem Tracks.grow (tracks : Tracks ids locks now history) (included : ids ⊆ more)
    (flat : ∀ i ∈ more, i ∉ ids → (locks i).line = ⟨0, 0⟩)
    (flatUser : ∀ i ∈ more, i ∉ ids → (history.lastUser i).bias = 0 ∧ (history.lastUser i).slope = 0) :
    Tracks more locks now history := by
  have ended : ∀ i ∈ more, i ∉ ids → (locks i).endTime = 0 := fun i inside outside =>
    congrArg Math.Line.stop (flat i inside outside)
  refine ⟨?_, ?_, tracks.past, tracks.userPast, ?_, ?_, ?_, tracks.bias, ?_⟩
  · intro i inside
    by_cases old : i ∈ ids
    · exact tracks.regulated i old
    · rw [ended i inside old]
      exact dvd_zero _
  · intro i inside
    by_cases old : i ∈ ids
    · exact tracks.bounded i old
    · rw [ended i inside old]
      exact Nat.zero_le _
  · intro i inside
    by_cases old : i ∈ ids
    · exact tracks.user i old
    · rw [flat i inside old, (flatUser i inside old).1, (flatUser i inside old).2]
      simp [Math.Line.value, Math.Line.live]
  · intro τ future
    rw [Math.stoppingSlope, sum_flat included flat (·.stopping τ) (ite_self _)]
    exact tracks.scheduled τ future
  · rw [Math.liveSlope, sum_flat included flat (·.live history.last.timestamp) (ite_self _)]
    exact tracks.slope
  · intro none
    refine ⟨(tracks.start none).1, fun i inside => ?_⟩
    by_cases old : i ∈ ids
    · exact (tracks.start none).2 i old
    · rw [flat i inside old]

/-- Ids without a line can be dropped. -/
theorem Tracks.shrink (tracks : Tracks more locks now history) (included : ids ⊆ more)
    (flat : ∀ i ∈ more, i ∉ ids → (locks i).line = ⟨0, 0⟩) : Tracks ids locks now history := by
  refine ⟨fun i inside => tracks.regulated i (included inside), fun i inside => tracks.bounded i (included inside),
    tracks.past, tracks.userPast, fun i inside => tracks.user i (included inside), ?_, ?_, tracks.bias,
    fun none => ⟨(tracks.start none).1, fun i inside => (tracks.start none).2 i (included inside)⟩⟩
  · intro τ future
    rw [Math.stoppingSlope, ← sum_flat included flat (·.stopping τ) (ite_self _)]
    exact tracks.scheduled τ future
  · rw [Math.liveSlope, ← sum_flat included flat (·.live history.last.timestamp) (ite_self _)]
    exact tracks.slope

end Flat

/-- One lock is changed and the history regulated for it. -/
structure RelockStep (ctx : Ctx) (store next : Store) (veId : ℕ) (lockedOld lockedNew : LockedBalance) : Prop where
  member : veId ∈ veIds store
  same : lockedOld.line = (store.lockedAmountByUser veId).line
  ordered : lockedNew.endTime ≤ ctx.blockTime ∨ lockedOld.endTime ≤ lockedNew.endTime
  bounded : lockedNew.endTime ≤ ctx.blockTime + maxLockTime
  regulated : regulateUserCheckpoint ctx store.history veId lockedOld lockedNew = .ok next.history
  locks : next.lockedAmountByUser = update store.lockedAmountByUser veId lockedNew
  nextVeId : next.nextVeId = store.nextVeId
  owners : ∀ veId, next.nftOwner veId ≠ none → store.nftOwner veId ≠ none

namespace RelockStep

variable {ctx : Ctx} {store next : Store} {veId : ℕ} {lockedOld lockedNew : LockedBalance}

variable (step : RelockStep ctx store next veId lockedOld lockedNew)
include step

theorem veIds_eq : veIds next = veIds store := by
  rw [veIds, veIds, step.nextVeId]

theorem relocked (sound : Sound ctx.blockTime store) :
    Relocked (veIds store) store.lockedAmountByUser ctx.blockTime veId lockedOld lockedNew store.history
      next.history :=
  regulateUserCheckpoint_ok sound.tracks step.member step.same step.ordered step.bounded step.regulated

theorem sound (sound : Sound ctx.blockTime store) : Sound ctx.blockTime next := by
  have relocked := step.relocked sound
  refine ⟨?_, step.nextVeId ▸ sound.nextVeId_pos, ?_, ?_⟩
  · rw [step.veIds_eq, step.locks]
    exact relocked.tracks
  · intro other outside
    rw [step.veIds_eq] at outside
    have different : other ≠ veId := fun equal => outside (equal ▸ step.member)
    obtain ⟨line, bias, slope⟩ := sound.fresh other outside
    rw [step.locks, update_of_ne different, relocked.others other different]
    exact ⟨line, bias, slope⟩
  · intro other owner
    rw [step.veIds_eq]
    exact sound.owned other (step.owners other owner)

theorem power_eq (t : ℕ) : power (veIds next) next.lockedAmountByUser t =
      power (veIds store) store.lockedAmountByUser t - lockedOld.line.value t + lockedNew.line.value t := by
  rw [step.veIds_eq, step.locks, power, lines_update, Math.total_update step.member, step.same]
  rfl

theorem excess_eq (sound : Sound ctx.blockTime store) : slopeExcess (veIds next) next.lockedAmountByUser next.history =
      slopeExcess (veIds store) store.lockedAmountByUser store.history +
        max 0 (lockedOld.line.live ctx.blockTime - lockedNew.line.live ctx.blockTime) := by
  rw [step.veIds_eq, step.locks]
  exact (step.relocked sound).excess

end RelockStep

/-- The store with the next ve minted to an account. -/
def createdStore (store : Store) (receiver : Address) : Store :=
  { store with
    nextVeId := store.nextVeId + 1
    nftOwner := update store.nftOwner store.nextVeId (some receiver) }

theorem Sound.created (sound : Sound now store) (receiver : Address) :
    Sound now (createdStore store receiver) := by
  have included : veIds store ⊆ veIds (createdStore store receiver) :=
    Finset.Ico_subset_Ico le_rfl (Nat.le_succ _)
  refine ⟨?_, sound.nextVeId_pos.trans (Nat.le_succ _), ?_, ?_⟩
  · exact sound.tracks.grow included (fun i _ outside => (sound.fresh i outside).1)
      (fun i _ outside => (sound.fresh i outside).2)
  · exact fun other outside => sound.fresh other fun inside => outside (included inside)
  · intro other owner
    simp only [createdStore, update_apply] at owner
    split at owner
    · next last => exact Finset.mem_Ico.mpr ⟨last ▸ sound.nextVeId_pos, last ▸ Nat.lt_succ_self _⟩
    · exact included (sound.owned other owner)

theorem line_slope_mono (amount : lockedOld.amount ≤ lockedNew.amount) :
    lockedOld.line.slope ≤ lockedNew.line.slope := by
  simp only [LockedBalance.line]
  split_ifs with old new
  · rw [Int.tdiv_eq_ediv_of_nonneg old.le, Int.tdiv_eq_ediv_of_nonneg new.le]
    exact Int.ediv_le_ediv (by decide) amount
  · omega
  · next new => exact Int.tdiv_nonneg new.le (Int.natCast_nonneg _)
  · exact le_rfl

/-- A larger amount locked for at least as long has the higher line. -/
theorem line_grows (amount : lockedOld.amount ≤ lockedNew.amount) (endTime : lockedOld.endTime ≤ lockedNew.endTime)
    (t : ℕ) :
    lockedOld.line.value t ≤ lockedNew.line.value t ∧ lockedOld.line.live t ≤ lockedNew.line.live t := by
  have slope := line_slope_mono amount
  have nonneg := lockedOld.line_slope_nonneg
  have later : ((lockedOld.line.stop - t : ℕ) : ℤ) ≤ (lockedNew.line.stop - t : ℕ) := by
    have : lockedOld.line.stop ≤ lockedNew.line.stop := endTime
    omega
  refine ⟨mul_le_mul slope later (Int.natCast_nonneg _) (nonneg.trans slope), ?_⟩
  have stops : lockedOld.line.stop ≤ lockedNew.line.stop := endTime
  simp only [Math.Line.live]
  split_ifs <;> omega

/-- `DepositFor` changes one lock. -/
theorem depositFor_relock {sender : Address} {unlockTime : ℕ} {sendCoins : Bool}
    (ok : depositFor ctx state sender veId amount unlockTime locked sendCoins = .ok next)
    (member : veId ∈ veIds state.store) (same : locked.line = (state.store.lockedAmountByUser veId).line)
    {endTime : ℕ} (endEq : (if 0 < unlockTime then unlockTime else locked.endTime) = endTime)
    (ordered : locked.endTime ≤ endTime) (bounded : endTime ≤ ctx.blockTime + maxLockTime) :
    RelockStep ctx state.store next.store veId locked ⟨locked.amount + amount, endTime⟩ := by
  subst endEq
  simp only [depositFor, ok_iffs] at ok
  obtain ⟨_, _, history, regulated, rfl⟩ := ok
  exact ⟨member, same, .inr ordered, bounded, regulated, rfl, rfl, fun _ => id⟩

/-- The lock two ves are merged into. -/
def mergedLock (store : Store) (msg : MsgMerge) : LockedBalance :=
  let lockedFrom := store.lockedAmountByUser msg.fromVeId
  let lockedTo := store.lockedAmountByUser msg.toVeId
  ⟨lockedTo.amount + lockedFrom.amount, max lockedFrom.endTime lockedTo.endTime⟩

/-- A merge empties one lock and then grows another one. -/
structure MergeStep (ctx : Ctx) (store middle next : Store) (msg : MsgMerge) : Prop where
  different : msg.fromVeId ≠ msg.toVeId
  burned : RelockStep ctx store middle msg.fromVeId (store.lockedAmountByUser msg.fromVeId) .empty
  deposited : RelockStep ctx middle next msg.toVeId (store.lockedAmountByUser msg.toVeId) (mergedLock store msg)

/-- The lock that a slash leaves. -/
def slashedLock (store : Store) (veId : ℕ) (amount : ℤ) : LockedBalance :=
  ⟨(store.lockedAmountByUser veId).amount - amount, (store.lockedAmountByUser veId).endTime⟩

/-- No lock has a negative amount. -/
def LocksNonneg (store : Store) : Prop := ∀ veId, 0 ≤ (store.lockedAmountByUser veId).amount

theorem LocksNonneg.update {next : Store} (nonneg : LocksNonneg store)
    (locks : next.lockedAmountByUser = update store.lockedAmountByUser veId locked)
    (amount : 0 ≤ locked.amount) : LocksNonneg next := by
  intro other
  rw [locks, update_apply]
  split
  · exact amount
  · exact nonneg other

/-- What a successful event did to the store. -/
inductive StoreStep (event : Event) (store next : Store) : Prop
  | quiet (history : next.history = store.history) (locks : next.lockedAmountByUser = store.lockedAmountByUser)
      (nextVeId : next.nextVeId = store.nextVeId)
      (owners : ∀ veId, next.nftOwner veId ≠ none → store.nftOwner veId ≠ none)
  | regulated (ok : regulateCheckpoint event.ctx store.history 0 0 = .ok next.history)
      (locks : next.lockedAmountByUser = store.lockedAmountByUser) (nextVeId : next.nextVeId = store.nextVeId)
      (owners : next.nftOwner = store.nftOwner)
  | grown {base : Store} (created : base = store ∨ ∃ receiver, base = createdStore store receiver) {veId : ℕ}
      {lockedOld lockedNew : LockedBalance} (step : RelockStep event.ctx base next veId lockedOld lockedNew)
      (value : lockedOld.line.value event.ctx.blockTime ≤ lockedNew.line.value event.ctx.blockTime)
      (live : lockedOld.line.live event.ctx.blockTime ≤ lockedNew.line.live event.ctx.blockTime)
      (amount : LocksNonneg store → 0 ≤ lockedNew.amount)
  | merged {msg : MsgMerge} (action : event.action = .merge msg) {middle : Store}
      (step : MergeStep event.ctx store middle next msg)
  | slashed {veId : ℕ} {amount : ℤ} (action : event.action = .slash veId amount)
      (step : RelockStep event.ctx store next veId (store.lockedAmountByUser veId)
        (slashedLock store veId amount))
  | slashedFresh {veId : ℕ} {amount : ℤ} (action : event.action = .slash veId amount)
      (outside : veId ∉ veIds store) (flat : (slashedLock store veId amount).line = ⟨0, 0⟩)
      (regulated : regulateUserCheckpoint event.ctx store.history veId (store.lockedAmountByUser veId)
        (slashedLock store veId amount) = .ok next.history)
      (locks : next.lockedAmountByUser =
        update store.lockedAmountByUser veId (slashedLock store veId amount))
      (nextVeId : next.nextVeId = store.nextVeId) (owners : next.nftOwner = store.nftOwner)

theorem StoreStep.grow {next : Store} (created : base = store ∨ ∃ receiver, base = createdStore store receiver)
    (step : RelockStep event.ctx base next veId lockedOld lockedNew) (amount : lockedOld.amount ≤ lockedNew.amount)
    (endTime : lockedOld.endTime ≤ lockedNew.endTime) (nonneg : LocksNonneg store → 0 ≤ lockedOld.amount) :
    StoreStep event store next :=
  have grows := line_grows amount endTime event.ctx.blockTime
  .grown created step grows.1 grows.2 fun locksNonneg => (nonneg locksNonneg).trans amount

section Cases

variable {ctx : Ctx} {state next : State}

theorem create_cases {msg : MsgCreate} (sound : Sound ctx.blockTime state.store)
    (ok : create ctx state msg = .ok next) (valid : msg.validateBasic = .ok ()) :
    StoreStep ⟨ctx, .create msg⟩ state.store next.store := by
  have timePos := ctx.time_pos
  simp only [MsgCreate.validateBasic, requirePositiveAmount, ok_iffs] at valid
  obtain ⟨_, positive, -⟩ := valid
  simp only [create, checkLockDenom, Store.mintNft, ok_iffs] at ok
  obtain ⟨_, _, _, future, _, bounded, _, _, _, ⟨_, _, rfl⟩, deposited⟩ := ok
  have fresh := sound.fresh state.store.nextVeId (by simp [veIds])
  have step := depositFor_relock deposited (Finset.mem_Ico.mpr ⟨sound.nextVeId_pos, Nat.lt_succ_self _⟩)
    fresh.1.symm (if_pos (by omega)) (Nat.zero_le _) bounded
  exact .grow (.inr ⟨_, rfl⟩) step (show 0 ≤ 0 + msg.amount.amount by omega) (Nat.zero_le _) fun _ => le_rfl

theorem runningLock_ok (sound : Sound ctx.blockTime store) (ok : runningLock ctx store veId = .ok locked) :
    locked = store.lockedAmountByUser veId ∧ veId ∈ veIds store ∧ ctx.blockTime < locked.endTime := by
  simp only [runningLock, ok_iffs] at ok
  obtain ⟨_, owner, _, _, _, running, rfl⟩ := ok
  exact ⟨rfl, sound.owned veId (Option.isSome_iff_ne_none.mp owner), running⟩

theorem deposit_cases {msg : MsgDeposit} (sound : Sound ctx.blockTime state.store)
    (ok : deposit ctx state msg = .ok next) (valid : msg.validateBasic = .ok ()) :
    StoreStep ⟨ctx, .deposit msg⟩ state.store next.store := by
  simp only [MsgDeposit.validateBasic, requirePositiveAmount, ok_iffs] at valid
  obtain ⟨_, _, positive⟩ := valid
  simp only [deposit, bind_ok_iff] at ok
  obtain ⟨_, _, locked, running, deposited⟩ := ok
  obtain ⟨rfl, member, _⟩ := runningLock_ok sound running
  have step := depositFor_relock deposited member rfl rfl le_rfl (sound.tracks.bounded _ member)
  exact .grow (.inl rfl) step (le_add_of_nonneg_right positive.le) le_rfl fun nonneg => nonneg _

theorem extendTime_cases {msg : MsgExtendTime} (sound : Sound ctx.blockTime state.store)
    (ok : extendTime ctx state msg = .ok next) : StoreStep ⟨ctx, .extendTime msg⟩ state.store next.store := by
  simp only [extendTime, ok_iffs] at ok
  obtain ⟨locked, running, _, _, _, longer, _, bounded, deposited⟩ := ok
  obtain ⟨rfl, member, _⟩ := runningLock_ok sound running
  have step := depositFor_relock deposited member rfl (if_pos (Nat.zero_lt_of_lt longer)) longer.le bounded
  exact .grow (.inl rfl) step (add_zero _).ge longer.le fun nonneg => nonneg _

theorem owner_of_burned {owners : ℕ → Option Address} {burned : ℕ}
    (owner : update owners burned none veId ≠ none) : owners veId ≠ none := by
  rw [update_apply] at owner
  split at owner
  · exact absurd rfl owner
  · exact owner

theorem merge_relocks (sound : Sound ctx.blockTime state.store) (ok : merge ctx state msg = .ok next)
    (valid : msg.validateBasic = .ok ()) :
    ∃ middle, MergeStep ctx state.store middle next.store msg := by
  simp only [MsgMerge.validateBasic, ok_iffs] at valid
  obtain ⟨_, _, _, _, different⟩ := valid
  simp only [merge, Store.requireOwner, Store.burnNft, ok_iffs] at ok
  obtain ⟨_, fromOwner, _, toOwner, _, _, _, _, history, regulated, _, ⟨_, _, rfl⟩, deposited⟩ := ok
  have fromMember := sound.owned msg.fromVeId (by simp [fromOwner])
  have toMember := sound.owned msg.toVeId (by simp [toOwner])
  have fromBounded := sound.tracks.bounded _ fromMember
  have toBounded := sound.tracks.bounded _ toMember
  have kept : (state.store.deleteLockedAmountByUser msg.fromVeId).lockedAmountByUser msg.toVeId =
      state.store.lockedAmountByUser msg.toVeId := update_of_ne different.symm _ _
  refine ⟨{ state.store.deleteLockedAmountByUser msg.fromVeId with
    history := history, nftOwner := update state.store.nftOwner msg.fromVeId none }, different,
    ⟨fromMember, rfl, .inl (Nat.zero_le _), Nat.zero_le _, regulated, rfl, rfl, ?_⟩, ?_⟩
  · exact fun veId owner => owner_of_burned owner
  · refine depositFor_relock deposited toMember (congrArg LockedBalance.line kept.symm) ?_ (le_max_right _ _)
      (max_le fromBounded toBounded)
    rw [max_def]
    split_ifs <;> omega

theorem withdraw_cases {msg : MsgWithdraw} (sound : Sound ctx.blockTime state.store)
    (ok : withdraw ctx state msg = .ok next) : StoreStep ⟨ctx, .withdraw msg⟩ state.store next.store := by
  simp only [withdraw, Store.requireOwner, Store.burnNft, ok_iffs] at ok
  obtain ⟨_, owner, _, _, _, expired, _, _, _, _, history, regulated, _, ⟨_, _, rfl⟩, _, _, _, _, rfl⟩ := ok
  have member := sound.owned msg.veId (by simp [owner])
  refine .grown (.inl rfl) ⟨member, rfl, .inl (Nat.zero_le _), Nat.zero_le _, regulated, rfl, rfl,
    fun veId owner => owner_of_burned owner⟩ ?_ ?_ fun _ => le_rfl
  · rw [Math.Line.value_of_stopped expired]
    exact Math.Line.value_nonneg (LockedBalance.line_slope_nonneg _) _
  · rw [Math.Line.live_of_stopped expired]
    exact Math.Line.live_nonneg (LockedBalance.line_slope_nonneg _) _

/-- A slash changes one lock, which keeps its end. -/
theorem slash_regulated (ok : slashLockedAmountByUser ctx state veId amount = .ok next) :
    0 ≤ amount ∧ regulateUserCheckpoint ctx state.store.history veId (state.store.lockedAmountByUser veId)
        (slashedLock state.store veId amount) = .ok next.store.history ∧
      next.store.lockedAmountByUser =
        update state.store.lockedAmountByUser veId (slashedLock state.store veId amount) ∧
      next.store.nextVeId = state.store.nextVeId ∧ next.store.nftOwner = state.store.nftOwner := by
  simp only [slashLockedAmountByUser, newCoin_ok_iff, ok_iffs] at ok
  obtain ⟨_, ⟨nonneg, rfl⟩, _, _, history, regulated, rfl⟩ := ok
  exact ⟨nonneg, regulated, rfl, rfl, rfl⟩

theorem slash_relock (sound : Sound ctx.blockTime state.store) (member : veId ∈ veIds state.store)
    (ok : slashLockedAmountByUser ctx state veId amount = .ok next) :
    RelockStep ctx state.store next.store veId (state.store.lockedAmountByUser veId)
      (slashedLock state.store veId amount) := by
  obtain ⟨_, regulated, locks, nextVeId, owners⟩ := slash_regulated ok
  exact ⟨member, rfl, .inr le_rfl, sound.tracks.bounded _ member, regulated, locks, nextVeId, fun _ => owners ▸ id⟩

theorem slash_cases (sound : Sound ctx.blockTime state.store)
    (ok : slashLockedAmountByUser ctx state veId amount = .ok next) :
    StoreStep ⟨ctx, .slash veId amount⟩ state.store next.store := by
  by_cases member : veId ∈ veIds state.store
  · exact .slashed rfl (slash_relock sound member ok)
  · obtain ⟨nonneg, regulated, locks, nextVeId, owners⟩ := slash_regulated ok
    have flat := (sound.fresh veId member).1
    refine .slashedFresh rfl member ?_ regulated locks nextVeId owners
    have shrinks : (slashedLock state.store veId amount).line.slope ≤ (state.store.lockedAmountByUser veId).line.slope :=
      line_slope_mono (Int.sub_le_self _ nonneg)
    rw [flat] at shrinks
    have noSlope := le_antisymm shrinks (LockedBalance.line_slope_nonneg _)
    have noEnd : (slashedLock state.store veId amount).line.stop = 0 := congrArg Math.Line.stop flat
    exact congrArg₂ Math.Line.mk noSlope noEnd

theorem send_cases {msg : MsgSend} (ok : send state.store msg = .ok store) :
    StoreStep ⟨ctx, .send msg⟩ state.store store := by
  simp only [send, Store.transferNft, ok_iffs] at ok
  obtain ⟨_, _, _, _, _, owned, rfl⟩ := ok
  refine .quiet rfl rfl rfl fun veId owner => ?_
  simp only [update_apply] at owner
  split at owner
  · next same => exact same ▸ Option.isSome_iff_ne_none.mp owned
  · exact owner

theorem endBlock_cases {history : History} (ok : endBlocker ctx state.store.history = .ok history) :
    StoreStep ⟨ctx, .endBlock⟩ state.store { state.store with history := history } := by
  unfold endBlocker at ok
  split at ok
  · exact .regulated ok rfl rfl rfl
  · cases ok
    exact .quiet rfl rfl rfl fun _ => id

end Cases

theorem step_cases (sound : Sound event.time state.store) (ok : step state event = .ok next) :
    StoreStep event state.store next.store := by
  obtain ⟨ctx, action⟩ := event
  cases action <;> simp only [step, ok_iffs] at ok
  case create => obtain ⟨_, valid, ok⟩ := ok; exact create_cases sound ok valid
  case deposit => obtain ⟨_, valid, ok⟩ := ok; exact deposit_cases sound ok valid
  case extendTime => obtain ⟨_, _, ok⟩ := ok; exact extendTime_cases sound ok
  case merge =>
    obtain ⟨_, valid, ok⟩ := ok
    obtain ⟨middle, step⟩ := merge_relocks sound ok valid
    exact .merged rfl step
  case withdraw => obtain ⟨_, _, ok⟩ := ok; exact withdraw_cases sound ok
  case send => obtain ⟨_, ok, rfl⟩ := ok; exact send_cases ok
  case slash => exact slash_cases sound ok
  case attach => cases ok; exact .quiet rfl rfl rfl fun _ => id
  case endBlock => obtain ⟨_, ok, rfl⟩ := ok; exact endBlock_cases ok

/-- An id that is no ve yet is slashed without effect on the others. -/
theorem Sound.slashedFresh {next : Store} (sound : Sound ctx.blockTime store) (outside : veId ∉ veIds store)
    (flat : lockedNew.line = ⟨0, 0⟩)
    (regulated : regulateUserCheckpoint ctx store.history veId (store.lockedAmountByUser veId) lockedNew =
      .ok next.history) (locks : next.lockedAmountByUser = update store.lockedAmountByUser veId lockedNew)
    (nextVeId : next.nextVeId = store.nextVeId) (owners : next.nftOwner = store.nftOwner) :
    Sound ctx.blockTime next := by
  have sameIds : veIds next = veIds store := by rw [veIds, veIds, nextVeId]
  -- the id is tracked for the length of the step
  have only : ∀ i ∈ insert veId (veIds store), i ∉ veIds store → i = veId := fun i inside out =>
    (Finset.mem_insert.mp inside).resolve_right out
  have tracks := sound.tracks.grow (Finset.subset_insert veId _) (fun i _ out => (sound.fresh i out).1)
    (fun i _ out => (sound.fresh i out).2)
  have ended : lockedNew.endTime = 0 := congrArg Math.Line.stop flat
  have relocked := regulateUserCheckpoint_ok tracks (Finset.mem_insert_self _ _) rfl (.inl (by omega)) (by omega)
    regulated
  refine ⟨?_, nextVeId ▸ sound.nextVeId_pos, ?_, fun other owner => ?_⟩
  · rw [sameIds, locks]
    refine relocked.tracks.shrink (Finset.subset_insert veId _) fun i inside out => ?_
    rw [only i inside out, update_self]
    exact flat
  · intro other out
    rw [sameIds] at out
    rw [locks]
    by_cases same : other = veId
    · obtain ⟨bias, slope⟩ := relocked.tracks.user other (Finset.mem_insert.mpr (.inl same))
      subst same
      rw [update_self, flat] at bias slope
      rw [update_self, bias, slope]
      simp [flat, Math.Line.value, Math.Line.live]
    · rw [update_of_ne same, relocked.others other same]
      exact sound.fresh other out
  · rw [sameIds]
    exact sound.owned other (owners ▸ owner)

theorem Sound.created_or (sound : Sound now store)
    (created : base = store ∨ ∃ receiver, base = createdStore store receiver) : Sound now base := by
  rcases created with rfl | ⟨receiver, rfl⟩
  · exact sound
  · exact sound.created receiver

theorem MergeStep.sound {middle next : Store} (step : MergeStep ctx store middle next msg)
    (sound : Sound ctx.blockTime store) : Sound ctx.blockTime next :=
  step.deposited.sound (step.burned.sound sound)

theorem Sound.step (sound : Sound event.time state.store) (ok : step state event = .ok next) :
    Sound event.time next.store := by
  cases step_cases sound ok with
  | quiet history locks nextVeId owners =>
    have sameIds : veIds next.store = veIds state.store := by rw [veIds, veIds, nextVeId]
    refine ⟨?_, nextVeId ▸ sound.nextVeId_pos, ?_, fun veId owner => ?_⟩
    · rw [sameIds, locks, history]
      exact sound.tracks
    · rw [sameIds, locks, history]
      exact sound.fresh
    · rw [sameIds]
      exact sound.owned veId (owners veId owner)
  | regulated ok locks nextVeId owners =>
    obtain ⟨tracks, _, _, _, users⟩ := sound.tracks.regulate ok
    have sameIds : veIds next.store = veIds state.store := by rw [veIds, veIds, nextVeId]
    refine ⟨?_, nextVeId ▸ sound.nextVeId_pos, fun veId outside => ?_, fun veId owner => ?_⟩
    · rw [sameIds, locks]
      exact tracks
    · rw [locks, users]
      exact sound.fresh veId (sameIds ▸ outside)
    · rw [sameIds]
      exact sound.owned veId (owners ▸ owner)
  | grown created step => exact step.sound (sound.created_or created)
  | merged _ step => exact step.sound sound
  | slashed _ step => exact step.sound sound
  | slashedFresh _ outside flat regulated locks nextVeId owners =>
    exact sound.slashedFresh outside flat regulated locks nextVeId owners

/-- Every run keeps the invariant. -/
theorem run_sound (bank : Bank) (chronological : Chronological Event.time events)
    (elapsed : ∀ event ∈ events, event.time ≤ now) : Sound now (run bank events).store :=
  replay_clocked Event.time (fun now state => Sound now state.store) (fun _ => True)
    (fun _ _ _ ordered sound => Sound.wait sound ordered) (fun _ _ _ sound _ ok => sound.step ok)
    sound_genesis chronological (fun _ _ => trivial) elapsed

/-- No slash exceeds the lock it cuts down. -/
def WithinLock (state : State) (event : Event) : Prop :=
  ∀ veId amount, event.action = .slash veId amount → amount ≤ (state.store.lockedAmountByUser veId).amount

theorem LocksNonneg.step (nonneg : LocksNonneg state.store) (sound : Sound event.time state.store)
    (within : WithinLock state event) (ok : step state event = .ok next) :
    LocksNonneg next.store := by
  cases step_cases sound ok with
  | quiet _ locks => exact fun veId => locks ▸ nonneg veId
  | regulated _ locks => exact fun veId => locks ▸ nonneg veId
  | grown created step _ _ amount =>
    rcases created with rfl | ⟨receiver, rfl⟩
    · exact nonneg.update step.locks (amount nonneg)
    · have created : LocksNonneg (createdStore state.store receiver) := nonneg
      exact created.update step.locks (amount nonneg)
  | merged _ step =>
    have emptied := nonneg.update step.burned.locks le_rfl
    exact emptied.update step.deposited.locks (add_nonneg (nonneg _) (nonneg _))
  | slashed action step => exact nonneg.update step.locks (Int.sub_nonneg.mpr (within _ _ action))
  | slashedFresh action _ _ _ locks => exact nonneg.update locks (Int.sub_nonneg.mpr (within _ _ action))

theorem run_locksNonneg (bank : Bank) (chronological : Chronological Event.time events)
    (within : Throughout step WithinLock (genesis bank) events) : LocksNonneg (run bank events).store := by
  have initial : LocksNonneg (genesis bank).store := fun _ => le_rfl
  refine replay_throughout (fun state => LocksNonneg state.store)
    (fun state event => WithinLock state event ∧ Sound event.time state.store) ?_ initial ?_
  · rintro state event next nonneg ⟨withinLock, sound⟩ ok
    exact nonneg.step sound withinLock ok
  · intro before event after split
    obtain ⟨ordered, sooner⟩ := chronological.before split
    exact ⟨within before event after split, run_sound bank ordered sooner⟩

end Rotofury.Soundness.Ve
