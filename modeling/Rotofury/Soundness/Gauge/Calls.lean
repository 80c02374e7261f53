import Rotofury.Soundness.Gauge.Isolation

/-! # What the calls of gauges and bribes do to deposits and tickets

A deposit or a withdrawal moves an amount of one ve in one pool, and tickets are derived anew for that ve only. Rewards
leave both as they are.
-/

namespace Rotofury.Soundness.Gauge

open Model.Sdk Model.App Model.Gauge Except

variable {first middle last before after store next : Store} {rewardDenom : Denom} {state : State} {derived : ℤ}

/-! ## Changes of the store -/

/-- Pools and deposits are as they were. -/
structure SameDeposits (before after : Store) : Prop where
  gauges : after.gauges = before.gauges
  totalDeposited : after.totalDepositedAmount = before.totalDepositedAmount
  deposited : after.depositedAmountByUser = before.depositedAmountByUser

theorem SameDeposits.trans (earlier : SameDeposits first middle) (later : SameDeposits middle last) :
    SameDeposits first last :=
  ⟨later.gauges.trans earlier.gauges, later.totalDeposited.trans earlier.totalDeposited,
    later.deposited.trans earlier.deposited⟩

/-- So are the tickets. -/
structure Keeps (before after : Store) : Prop extends SameDeposits before after where
  totalDerived : after.totalDerivedAmount = before.totalDerivedAmount
  derived : after.derivedAmountByUser = before.derivedAmountByUser

theorem Keeps.refl (store : Store) : Keeps store store := ⟨⟨rfl, rfl, rfl⟩, rfl, rfl⟩

theorem Keeps.trans (earlier : Keeps first middle) (later : Keeps middle last) :
    Keeps first last :=
  ⟨earlier.toSameDeposits.trans later.toSameDeposits, later.totalDerived.trans earlier.totalDerived,
    later.derived.trans earlier.derived⟩

theorem Touches.keeps {base : Base} (touches : Touches base rewardDenom before after) : Keeps before after := by
  refine ⟨⟨?_, ?_, ?_⟩, ?_, ?_⟩ <;> rw [← touches.rest]

/-- The records of rewards are as they were. -/
structure SameRewardRecords (before after : Store) : Prop where
  rewards : after.rewards = before.rewards
  rewardEpoch : after.rewardEpoch = before.rewardEpoch
  rewardCheckpoint : after.rewardCheckpoint = before.rewardCheckpoint

theorem SameRewardRecords.trans (earlier : SameRewardRecords first middle) (later : SameRewardRecords middle last) :
    SameRewardRecords first last :=
  ⟨later.rewards.trans earlier.rewards, later.rewardEpoch.trans earlier.rewardEpoch,
    later.rewardCheckpoint.trans earlier.rewardCheckpoint⟩

section Checkpoints

variable (store : Store) (base : Base) (now veId : ℕ) (amount : ℤ)

theorem keeps_checkpoints :
    Keeps store ((store.writeUserCheckpoint base now veId amount).writeCheckpoint base now) :=
  ⟨⟨rfl, rfl, rfl⟩, rfl, rfl⟩

theorem sameRewards_checkpoints :
    SameRewardRecords store ((store.writeUserCheckpoint base now veId amount).writeCheckpoint base now) :=
  ⟨rfl, rfl, rfl⟩

end Checkpoints

/-- The deposit of one ve in one pool has changed by an amount. -/
structure Moved (base : Base) (veId : ℕ) (amount : ℤ) (before after : Store) : Prop where
  gauges : after.gauges = before.gauges
  totalDeposited : ∀ pool, after.getTotalDepositedAmount pool =
    before.getTotalDepositedAmount pool + if pool = base then amount else 0
  deposited : ∀ pool ve, ve < 2 ^ 64 → after.getDepositedAmountByUser pool ve =
    before.getDepositedAmountByUser pool ve + if pool = base ∧ ve = veId then amount else 0

/-- The tickets of one ve in one gauge have been set. -/
structure Derives (base : Base) (veId : ℕ) (derived : ℤ) (before after : Store) : Prop where
  totalDerived : ∀ pool, after.getTotalDerivedAmount pool = before.getTotalDerivedAmount pool +
    if pool = base then derived - before.getDerivedAmountByUser base veId else 0
  derived : ∀ pool ve, ve < 2 ^ 64 → after.getDerivedAmountByUser pool ve =
    if pool = base ∧ ve = veId then derived else before.getDerivedAmountByUser pool ve

section Reading

variable {store next : Store} {base pool : Base} {veId ve : ℕ} {amount : ℤ}

/-- What was written under a key is read under that key alone. -/
theorem update_key {κ : Type} [DecidableEq κ] {left right : κ} {same : Prop} [Decidable same] (keys : right = left ↔ same)
    (values : κ → ℤ) (value : ℤ) :
    Function.update values left value right = if same then value else values right := by
  rw [Function.update_apply]
  exact if_congr keys rfl rfl

theorem totalKey_iff (kind : UInt8) : kind :: pool.prefixKey = kind :: base.prefixKey ↔ pool = base :=
  ⟨fun same => prefixKey_injective (List.cons.inj same).2, fun same => by rw [same]⟩

/-- The store after a change of a deposit. -/
def moveDeposit (store : Store) (base : Base) (veId : ℕ) (amount : ℤ) : Store :=
  (store.setTotalDepositedAmount base (store.getTotalDepositedAmount base + amount)).setDepositedAmountByUser base veId
    (store.getDepositedAmountByUser base veId + amount)

theorem moved_moveDeposit (store : Store) (base : Base) (fits : veId < 2 ^ 64) (amount : ℤ) :
    Moved base veId amount store (moveDeposit store base veId amount) where
  gauges := rfl
  totalDeposited pool := by
    refine (update_key (totalKey_iff _) _ _).trans ?_
    split
    · next same => rw [same]
    · exact (add_zero _).symm
  deposited pool ve veFits := by
    refine (update_key ⟨depositedAmountByUserKey_injective veFits fits, fun same => by rw [same.1, same.2]⟩ _ _).trans ?_
    split
    · next same => rw [same.1, same.2]
    · exact (add_zero _).symm

theorem Moved.trans_same (moved : Moved base veId amount store next) (kept : SameDeposits next last) :
    Moved base veId amount store last where
  gauges := kept.gauges.trans moved.gauges
  totalDeposited pool := by
    rw [← moved.totalDeposited, Store.getTotalDepositedAmount, kept.totalDeposited]
    rfl
  deposited pool ve veFits := by
    rw [← moved.deposited pool ve veFits, Store.getDepositedAmountByUser, kept.deposited]
    rfl

/-- The store after the tickets of a ve were set. -/
def setTickets (store : Store) (base : Base) (veId : ℕ) (derived : ℤ) : Store :=
  (store.setDerivedAmountByUser base veId derived).setTotalDerivedAmount base
    (store.getTotalDerivedAmount base - store.getDerivedAmountByUser base veId + derived)

theorem derives_setTickets (store : Store) (base : Base) (fits : veId < 2 ^ 64) (derived : ℤ) :
    Derives base veId derived store (setTickets store base veId derived) where
  totalDerived pool := by
    refine (update_key (totalKey_iff _) _ _).trans ?_
    split
    · next same =>
      rw [same]
      ring
    · exact (add_zero _).symm
  derived pool ve veFits :=
    update_key ⟨derivedAmountByUserKey_injective veFits fits, fun same => by rw [same.1, same.2]⟩ _ _

theorem Derives.trans_keeps (derives : Derives base veId amount store next) (kept : Keeps next last) :
    Derives base veId amount store last where
  totalDerived pool := by
    rw [← derives.totalDerived, Store.getTotalDerivedAmount, kept.totalDerived]
    rfl
  derived pool ve veFits := by
    rw [← derives.derived pool ve veFits, Store.getDerivedAmountByUser, kept.derived]
    rfl

end Reading

/-! ## Calls -/

section Calls

variable {moduleAddress : String → Address} {env : Env} {base : Base} {veId : ℕ} {amount : ℤ}

/-- Tickets are derived from deposits alone. -/
theorem derivedTickets_congr (same : SameDeposits before after) :
    derivedTickets env after base veId = derivedTickets env before base veId := by
  unfold derivedTickets Store.getTotalDepositedAmount Store.getDepositedAmountByUser
  rw [same.totalDeposited, same.deposited]

theorem deriveAmountForUser_ok (isGauge : base.isGauge = true) (fits : veId < 2 ^ 64)
    (ok : deriveAmountForUser env store base veId = .ok next) :
    SameDeposits store next ∧
      ∃ derived, derivedTickets env next base veId = .ok derived ∧ Derives base veId derived store next := by
  rw [deriveAmountForUser, if_neg (by simp [isGauge])] at ok
  simp only [ok_iffs] at ok
  obtain ⟨derived, tickets, rfl⟩ := ok
  have marked := keeps_checkpoints (setTickets store base veId derived) base env.ctx.blockTime veId derived
  have same := (show SameDeposits store (setTickets store base veId derived) from ⟨rfl, rfl, rfl⟩).trans
    marked.toSameDeposits
  exact ⟨same, derived, (derivedTickets_congr same).trans tickets,
    (derives_setTickets store base fits derived).trans_keeps marked⟩

theorem deriveAmountForUser_sameRewards (ok : deriveAmountForUser env store base veId = .ok next) :
    SameRewardRecords store next := by
  unfold deriveAmountForUser at ok
  split at ok
  · cases ok
    exact ⟨rfl, rfl, rfl⟩
  · simp only [ok_iffs] at ok
    obtain ⟨derived, _, rfl⟩ := ok
    exact ⟨rfl, rfl, rfl⟩

/-- A bribe has no derived tickets. -/
theorem deriveAmountForUser_bribe (isBribe : base.isGauge = false)
    (ok : deriveAmountForUser env store base veId = .ok next) : next = store := by
  rw [deriveAmountForUser, if_pos isBribe] at ok
  cases ok
  rfl

/-- The deposit of a ve in a gauge has changed by an amount that its owner paid, and its tickets are derived anew. -/
structure Shifted (moduleAddress : String → Address) (env : Env) (base : Base) (veId : ℕ) (amount : ℤ)
    (state next : State) : Prop where
  moved : Moved base veId amount state.store next.store
  tickets : ∃ derived, derivedTickets env next.store base veId = .ok derived ∧
    Derives base veId derived state.store next.store
  rewards : SameRewardRecords state.store next.store
  balance : ∀ account denom, (next.bank.balance account denom : ℤ) = state.bank.balance account denom +
    (Bank.onAccount (base.escrowPool moduleAddress) account (onDenom base.depositDenom amount denom) -
      Bank.onAccount (env.owner veId) account (onDenom base.depositDenom amount denom))

theorem attach_same (state : State) (base : Base) (owner : Address) (veId : ℕ) :
    Keeps state.store (state.attach base owner veId).store ∧
      SameRewardRecords state.store (state.attach base owner veId).store ∧
      (state.attach base owner veId).bank = state.bank := by
  unfold State.attach
  split
  · exact ⟨⟨⟨rfl, rfl, rfl⟩, rfl, rfl⟩, ⟨rfl, rfl, rfl⟩, rfl⟩
  · exact ⟨.refl _, ⟨rfl, rfl, rfl⟩, rfl⟩

/-- What is left of a deposit is written, or nothing if nothing is left. -/
theorem leave_same {left : State} {owner : Address} (enough : amount ≤ state.store.getDepositedAmountByUser base veId)
    (ok : State.leave { state with store :=
        state.store.setTotalDepositedAmount base (state.store.getTotalDepositedAmount base - amount) }
      base owner veId (state.store.getDepositedAmountByUser base veId - amount) = .ok left) :
    Keeps (moveDeposit state.store base veId (-amount)) left.store ∧
      SameRewardRecords (moveDeposit state.store base veId (-amount)) left.store ∧ left.bank = state.bank := by
  unfold State.leave at ok
  split at ok
  · cases ok
    exact ⟨.refl _, ⟨rfl, rfl, rfl⟩, rfl⟩
  · next spent =>
    have nothing : state.store.getDepositedAmountByUser base veId + -amount = 0 := by omega
    simp only [State.decVeAttached, ok_iffs] at ok
    obtain ⟨_, _, rfl⟩ := ok
    rw [moveDeposit, nothing]
    exact ⟨⟨⟨rfl, rfl, rfl⟩, rfl, rfl⟩, ⟨rfl, rfl, rfl⟩, rfl⟩

/-- What has been derived since, is derived from the tickets at the start. -/
theorem Derives.of_keeps (kept : Keeps first middle) (derives : Derives base veId derived middle last) :
    Derives base veId derived first last := by
  have sameTotal (pool : Base) : middle.getTotalDerivedAmount pool = first.getTotalDerivedAmount pool :=
    congrFun kept.totalDerived _
  have same (pool : Base) (ve : ℕ) : middle.getDerivedAmountByUser pool ve = first.getDerivedAmountByUser pool ve :=
    congrFun kept.derived _
  exact ⟨fun pool => by rw [derives.totalDerived, sameTotal, same],
    fun pool ve fits => by rw [derives.derived pool ve fits, same]⟩

/-- Moving a deposit leaves the tickets for later. -/
theorem Derives.of_moveDeposit (derives : Derives base veId derived (moveDeposit store base veId amount) next) :
    Derives base veId derived store next :=
  ⟨derives.totalDerived, derives.derived⟩

theorem sameRewards_moveDeposit (store : Store) (base : Base) (veId : ℕ) (amount : ℤ) :
    SameRewardRecords store (moveDeposit store base veId amount) := ⟨rfl, rfl, rfl⟩

theorem deposit_shifted {next : State} (isGauge : base.isGauge = true) (fits : veId < 2 ^ 64)
    (ok : deposit moduleAddress env base state veId amount = .ok next) :
    Shifted moduleAddress env base veId amount state next := by
  simp only [deposit, ok_iffs, newCoin_ok_iff] at ok
  obtain ⟨_, ⟨_, rfl⟩, coins, build, bank, send, store, derive, rfl⟩ := ok
  obtain ⟨_, amounts, _⟩ := newCoins_ok build
  obtain ⟨balances, _⟩ := Bank.sendCoins_ok send
  obtain ⟨sameDeposits, derived, tickets, derives⟩ := deriveAmountForUser_ok isGauge fits derive
  obtain ⟨kept, attachedRewards, sameBank⟩ := attach_same
    { state with store := moveDeposit state.store base veId amount, bank := bank } base (env.owner veId) veId
  refine ⟨?_, ⟨derived, tickets, ?_⟩, ?_, fun account denom => ?_⟩
  · exact ((moved_moveDeposit state.store base fits amount).trans_same kept.toSameDeposits).trans_same sameDeposits
  · exact (derives.of_keeps kept).of_moveDeposit
  · exact (sameRewards_moveDeposit ..).trans (attachedRewards.trans (deriveAmountForUser_sameRewards derive))
  · refine (congrArg (fun bank : Bank => (bank.balance account denom : ℤ)) sameBank).trans ?_
    rw [balances, amounts, amountOf_cons, amountOf_nil, add_zero]

theorem withdraw_shifted {next : State} (isGauge : base.isGauge = true) (fits : veId < 2 ^ 64)
    (ok : withdraw moduleAddress env base state veId amount = .ok next) :
    amount ≤ state.store.getDepositedAmountByUser base veId ∧
      Shifted moduleAddress env base veId (-amount) state next := by
  simp only [withdraw, ok_iffs, newCoin_ok_iff, not_lt] at ok
  obtain ⟨_, enough, left, leave, _, ⟨_, rfl⟩, coins, build, bank, send, store, derive, rfl⟩ := ok
  obtain ⟨_, amounts, _⟩ := newCoins_ok build
  obtain ⟨balances, _⟩ := Bank.sendCoins_ok send
  obtain ⟨sameDeposits, derived, tickets, derives⟩ := deriveAmountForUser_ok isGauge fits derive
  obtain ⟨kept, leftRewards, sameBank⟩ := leave_same enough leave
  refine ⟨enough, ?_, ⟨derived, tickets, ?_⟩, ?_, fun account denom => ?_⟩
  · exact ((moved_moveDeposit state.store base fits (-amount)).trans_same kept.toSameDeposits).trans_same sameDeposits
  · exact (derives.of_keeps kept).of_moveDeposit
  · exact (sameRewards_moveDeposit ..).trans (leftRewards.trans (deriveAmountForUser_sameRewards derive))
  · rw [balances, sameBank, amounts, amountOf_cons, amountOf_nil, add_zero, onDenom_neg, Bank.onAccount, Bank.onAccount,
      Bank.onAccount, Bank.onAccount]
    split_ifs <;> ring

end Calls

/-! ## Steps

A call is on a gauge that exists. -/

section Steps

variable {moduleAddress : String → Address} {env : Env} {state next : State} {denom : Denom} {base : Base} {veId : ℕ}
  {amount : ℤ}

theorem step_createGauge_iff : step moduleAddress state ⟨env, .createGauge denom⟩ = .ok next ↔
    ¬ state.store.hasGauge denom ∧ { state with store := state.store.setGauge denom } = next := by
  simp [step, createGauge]

theorem step_deposit_iff : step moduleAddress state ⟨env, .deposit denom veId amount⟩ = .ok next ↔
    state.store.hasGauge denom ∧ deposit moduleAddress env ⟨denom, true⟩ state veId amount = .ok next := by
  simp [step, Model.Gauge.gauge]

theorem step_withdraw_iff : step moduleAddress state ⟨env, .withdraw denom veId amount⟩ = .ok next ↔
    state.store.hasGauge denom ∧ withdraw moduleAddress env ⟨denom, true⟩ state veId amount = .ok next := by
  simp [step, Model.Gauge.gauge]

theorem step_bribeDeposit_iff : step moduleAddress state ⟨env, .bribeDeposit denom veId amount⟩ = .ok next ↔
    state.store.hasGauge denom ∧
      { state with store := bribeDeposit state.store ⟨denom, false⟩ env.ctx.blockTime veId amount } = next := by
  simp [step, bribe]

theorem step_bribeWithdraw_iff : step moduleAddress state ⟨env, .bribeWithdraw denom veId amount⟩ = .ok next ↔
    state.store.hasGauge denom ∧ ∃ store,
      bribeWithdraw state.store ⟨denom, false⟩ env.ctx.blockTime veId amount = .ok store ∧
        { state with store := store } = next := by
  simp [step, bribe]

theorem step_claimReward_iff : step moduleAddress state ⟨env, .claimReward base veId⟩ = .ok next ↔
    state.store.hasGauge base.depositDenom ∧ claimReward moduleAddress env base state veId = .ok next := by
  simp [step]

theorem step_depositReward_iff {sender : Address} :
    step moduleAddress state ⟨env, .depositReward base sender rewardDenom amount⟩ = .ok next ↔
      state.store.hasGauge base.depositDenom ∧
        depositReward moduleAddress env base state sender rewardDenom amount = .ok next := by
  simp [step]

end Steps

end Rotofury.Soundness.Gauge
