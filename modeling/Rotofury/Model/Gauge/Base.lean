import Rotofury.Model.Gauge.Store

/-! # What gauges and bribes share

A ve has tickets in a gauge or a bribe: in a bribe its deposit, in a gauge an amount derived from its deposit and its
voting power. Rewards are paid out at a rate per second over a week, to the tickets in proportion; the reward per ticket
is accumulated over the checkpoints of all tickets and read off at the checkpoints of the ve.
-/

namespace Rotofury.Model.Gauge

open Model.Sdk Model.App Except
open Model.Ve (subUint64 toInt64 quo getVotingPower getTotalVotingPower)

/-- What a call reads besides the gauges' state: the block, the history of voting power, and the owners of the ve NFTs. -/
structure Env where
  ctx : Ve.Ctx
  history : Ve.History
  owner : ℕ → Address

/-- The gauges' store with the parts of other modules that they change. -/
structure State where
  store : Store
  veAttached : ℕ → ℕ
  bank : Bank

def Base.poolName (base : Base) : String := (if base.isGauge then "gauge" else "bribe") ++ "_" ++ base.depositDenom

/-- `EscrowPool`; the address is the hash of the pool's name. -/
def Base.escrowPool (base : Base) (moduleAddress : String → Address) : Address := moduleAddress base.poolName

/-! ## Checkpoints -/

/-- The binary search of `findPriorEpoch`. -/
def searchPriorEpoch (point : ℕ → Checkpoint) (timestamp lower upper : ℕ) : ℕ :=
  if lower < upper then
    let mid := (lower + upper + 1) / 2
    if (point mid).timestamp = timestamp then mid
    else if (point mid).timestamp < timestamp then searchPriorEpoch point timestamp mid upper
    else searchPriorEpoch point timestamp lower (mid - 1)
  else lower
termination_by upper - lower

/-- `findPriorEpoch` over checkpoints up to an epoch. -/
def priorEpoch (epoch : ℕ) (point : ℕ → Checkpoint) (timestamp : ℕ) : ℕ :=
  if epoch = emptyEpoch then emptyEpoch
  -- check most recent
  else if (point epoch).timestamp ≤ timestamp then epoch
  -- check initial
  else if timestamp < (point firstEpoch).timestamp then emptyEpoch
  else searchPriorEpoch point timestamp 0 epoch

/-- The last checkpoint up to an epoch that is not after a time. Epoch zero stands for none. -/
def Prior (epoch : ℕ) (point : ℕ → Checkpoint) (timestamp found : ℕ) : Prop :=
  found ≤ epoch ∧ (0 < found → (point found).timestamp ≤ timestamp) ∧
    ∀ later, found < later → later ≤ epoch → timestamp < (point later).timestamp

section

variable {epoch timestamp lower upper : ℕ} {point : ℕ → Checkpoint}
  (ordered : ∀ earlier later, 0 < earlier → earlier < later → later ≤ epoch →
    (point earlier).timestamp < (point later).timestamp)
include ordered

/-- What is before the bounds is not after the time, and what is beyond them is. -/
theorem searchPriorEpoch_prior (bounds : lower ≤ upper) (inside : upper ≤ epoch)
    (reached : 0 < lower → (point lower).timestamp ≤ timestamp)
    (beyond : ∀ later, upper < later → later ≤ epoch → timestamp < (point later).timestamp) :
    Prior epoch point timestamp (searchPriorEpoch point timestamp lower upper) := by
  fun_induction searchPriorEpoch point timestamp lower upper with
  | case1 lower upper smaller mid same =>
    exact ⟨by omega, fun _ => same.le, fun later after => same ▸ ordered mid later (by omega) after⟩
  | case2 lower upper smaller mid _ before ih => exact ih (by omega) inside (fun _ => before.le) beyond
  | case3 lower upper smaller mid different notBefore ih =>
    refine ih (by omega) (by omega) reached fun later after within => ?_
    have here : timestamp < (point mid).timestamp := by omega
    rcases Nat.lt_or_ge mid later with further | last
    · exact here.trans (ordered mid later (by omega) further within)
    · rwa [show later = mid by omega]
  | case4 lower upper done =>
    obtain rfl : lower = upper := by omega
    exact ⟨inside, reached, beyond⟩

/-- Over checkpoints at increasing times the search finds the last one that is not after the time. -/
theorem priorEpoch_prior (timestamp : ℕ) : Prior epoch point timestamp (priorEpoch epoch point timestamp) := by
  unfold priorEpoch emptyEpoch
  split
  · next none => exact ⟨none.ge, by simp, by omega⟩
  · split
    · next last => exact ⟨le_rfl, fun _ => last, by omega⟩
    · split
      · next early =>
        refine ⟨Nat.zero_le _, by simp, fun later after inside => ?_⟩
        rcases Nat.lt_or_ge firstEpoch later with further | first
        · exact early.trans (ordered _ later (by decide) further inside)
        · exact (Nat.le_antisymm first after) ▸ early
      · exact searchPriorEpoch_prior ordered (Nat.zero_le _) le_rfl (by simp) (by omega)

end

theorem priorEpoch_sample : Prior 3 (⟨10 * ·, none⟩) 25 (priorEpoch 3 (⟨10 * ·, none⟩) 25) :=
  priorEpoch_prior (fun _ _ _ before _ => Nat.mul_lt_mul_of_pos_left before (by decide)) 25

/-- The epoch and the checkpoint that follow from an amount at a time: those of the same time are overwritten. -/
def nextPoint (epoch : ℕ) (point : Checkpoint) (amount : ℤ) (timestamp : ℕ) : ℕ × Checkpoint :=
  if 0 < epoch ∧ point.timestamp = timestamp then (epoch, { point with amount := some amount })
  else (epoch + 1, ⟨timestamp, some amount⟩)

namespace Store

variable (store : Store) (base : Base)

def getRewardDenoms : List Denom := (store.iterateRewards base).map (·.denom)

/-- `findPriorEpoch`: of a ve, of a reward, or of the pool where neither is given. No call gives both. -/
def findPriorEpoch (veId : ℕ) (rewardDenom : Denom) (timestamp : ℕ) : ℕ :=
  if veId ≠ Ve.emptyVeId then priorEpoch (store.getUserEpoch base veId) (store.getUserCheckpoint base veId) timestamp
  else if rewardDenom ≠ "" then
    priorEpoch (store.getRewardEpoch base rewardDenom) (store.getRewardCheckpoint base rewardDenom) timestamp
  else priorEpoch (store.getEpoch base) (store.getCheckpoint base) timestamp

def findPriorRewardPerTicket (rewardDenom : Denom) (timestamp : ℕ) : Option ℤ :=
  let epoch := store.findPriorEpoch base Ve.emptyVeId rewardDenom timestamp
  (store.getRewardCheckpoint base rewardDenom epoch).amount

def writeUserCheckpoint (now veId : ℕ) (amount : ℤ) : Store :=
  let epoch := store.getUserEpoch base veId
  let (epoch, point) := nextPoint epoch (store.getUserCheckpoint base veId epoch) amount now
  (store.setUserEpoch base veId epoch).setUserCheckpoint base veId epoch point

def writeRewardPerTicketCheckpoint (rewardDenom : Denom) (reward : ℤ) (timestamp : ℕ) : Store :=
  let epoch := store.getRewardEpoch base rewardDenom
  let (epoch, point) := nextPoint epoch (store.getRewardCheckpoint base rewardDenom epoch) reward timestamp
  (store.setRewardEpoch base rewardDenom epoch).setRewardCheckpoint base rewardDenom epoch point

/-- What all tickets are measured by. -/
def totalTickets : ℤ := if base.isGauge then store.getTotalDerivedAmount base else store.getTotalDepositedAmount base

def writeCheckpoint (now : ℕ) : Store :=
  let epoch := store.getEpoch base
  let (epoch, point) := nextPoint epoch (store.getCheckpoint base epoch) (store.totalTickets base) now
  (store.setEpoch base epoch).setCheckpoint base epoch point

/-! ## Rewards -/

def lastTimeRewardAvailable (now : ℕ) (rewardDenom : Denom) : ℕ := min now (store.getReward base rewardDenom).finishTime

def rewardPerTicket (now : ℕ) (rewardDenom : Denom) : Except Fault ℤ :=
  let totalAmount := store.totalTickets base
  let reward := store.getReward base rewardDenom
  if totalAmount = 0 then pure reward.cumulativePerTicket
  else do
    let timeFromLast :=
      subUint64 (store.lastTimeRewardAvailable base now rewardDenom) (min reward.lastUpdateTime reward.finishTime)
    let rewardFromLast ← quo (reward.rate * toInt64 timeFromLast) totalAmount
    pure (reward.cumulativePerTicket + rewardFromLast)

def calculateRewardPerTicket (rewardDenom : Denom) (timestamp0 timestamp1 startTimestamp : ℕ) (totalAmount : ℤ) :
    Except Fault (ℤ × ℕ) := do
  let reward := store.getReward base rewardDenom
  let endTimestamp := max timestamp1 startTimestamp
  let duration := subUint64 (min endTimestamp reward.finishTime) (min (max timestamp0 startTimestamp) reward.finishTime)
  let rewardPerTicket ← quo (reward.rate * toInt64 duration) totalAmount
  pure (rewardPerTicket, endTimestamp)

end Store

/-- What the loop of `updateRewardPerTicket` carries from checkpoint to checkpoint. -/
structure Accrual where
  store : Store
  cumulativePerTicket : ℤ
  startTimestamp : ℕ

/-- The reward per ticket from one checkpoint of the pool to the next, if there are tickets. -/
def Accrual.turn (base : Base) (rewardDenom : Denom) (accrual : Accrual) (epoch : ℕ) : Except Fault Accrual := do
  let point := accrual.store.getCheckpoint base epoch
  let amount ← deref point.amount
  if ¬ 0 < amount then pure accrual
  else
    let nextPoint := accrual.store.getCheckpoint base (epoch + 1)
    let (rewardPerTicket, endTimestamp) ← accrual.store.calculateRewardPerTicket base rewardDenom point.timestamp
      nextPoint.timestamp accrual.startTimestamp amount
    let cumulative := accrual.cumulativePerTicket + rewardPerTicket
    pure ⟨accrual.store.writeRewardPerTicketCheckpoint base rewardDenom cumulative endTimestamp, cumulative, endTimestamp⟩

/-- The reward per ticket from the last checkpoint until now. -/
def Accrual.finish (base : Base) (now : ℕ) (rewardDenom : Denom) (epoch : ℕ) (accrual : Accrual) :
    Except Fault Accrual := do
  let point := accrual.store.getCheckpoint base epoch
  let amount ← deref point.amount
  if ¬ 0 < amount then pure accrual
  else
    let (rewardPerTicket, _) ← accrual.store.calculateRewardPerTicket base rewardDenom
      (max point.timestamp accrual.startTimestamp) (accrual.store.lastTimeRewardAvailable base now rewardDenom)
      accrual.startTimestamp amount
    let cumulative := accrual.cumulativePerTicket + rewardPerTicket
    pure ⟨accrual.store.writeRewardPerTicketCheckpoint base rewardDenom cumulative now, cumulative, now⟩

/-- The epochs from one up to the last but one. The interval that ends at the last epoch is not among them. -/
def closedEpochs (startEpoch epoch : ℕ) : List ℕ := List.range' startEpoch (epoch - 1 - startEpoch)

namespace Store

variable (store : Store) (base : Base)

def updateRewardPerTicket (now : ℕ) (rewardDenom : Denom) : Except Fault Store := do
  let epoch := store.getEpoch base
  let reward := store.getReward base rewardDenom
  if epoch = emptyEpoch then pure store
  else if reward.rate = 0 then pure (store.setReward base rewardDenom { reward with lastUpdateTime := now })
  else
    let startEpoch := store.findPriorEpoch base Ve.emptyVeId "" reward.lastUpdateTime
    let accrual ← (closedEpochs startEpoch epoch).foldlM (Accrual.turn base rewardDenom)
      ⟨store, reward.cumulativePerTicket, reward.lastUpdateTime⟩
    let accrual ← accrual.finish base now rewardDenom epoch
    pure (accrual.store.setReward base rewardDenom
      { reward with cumulativePerTicket := accrual.cumulativePerTicket, lastUpdateTime := accrual.startTimestamp })

/-- What the tickets of a ve earn between two of its checkpoints. -/
def rewardBetween (rewardDenom : Denom) (veId epoch : ℕ) : Except Fault ℤ := do
  let point := store.getUserCheckpoint base veId epoch
  let nextPoint := store.getUserCheckpoint base veId (epoch + 1)
  let rewardPerTicket ← deref (store.findPriorRewardPerTicket base rewardDenom point.timestamp)
  let nextRewardPerTicket ← deref (store.findPriorRewardPerTicket base rewardDenom nextPoint.timestamp)
  pure ((← deref point.amount) * (nextRewardPerTicket - rewardPerTicket))

def userReward (now : ℕ) (rewardDenom : Denom) (veId : ℕ) : Except Fault ℤ := do
  let epoch := store.getUserEpoch base veId
  if epoch = emptyEpoch then pure 0
  else
    let userReward := store.getUserReward base rewardDenom veId
    let startTimestamp := max userReward.lastClaimTime (store.getRewardCheckpoint base rewardDenom firstEpoch).timestamp
    let startEpoch := store.findPriorEpoch base veId "" startTimestamp
    let reward ← (closedEpochs startEpoch epoch).foldlM
      (fun reward epoch => do pure (reward + (← store.rewardBetween base rewardDenom veId epoch))) 0
    let point := store.getUserCheckpoint base veId epoch
    let rewardPerTicket ← deref (store.findPriorRewardPerTicket base rewardDenom point.timestamp)
    let latest ← store.rewardPerTicket base now rewardDenom
    pure (reward + (← deref point.amount) * (latest - max rewardPerTicket userReward.cumulativePerTicket))

end Store

/-! ## Tickets -/

/-- The tickets for voting power: the share of all deposits that is the ve's share of all power, of which six tenths
count. -/
def adjustedTickets (env : Env) (totalDeposited : ℤ) (veId : ℕ) (totalPower : ℤ) : Except Fault ℤ :=
  if 0 < totalPower then do
    let power ← getVotingPower env.ctx env.history veId env.ctx.blockTime 0
    let portion ← quo (totalDeposited * power) totalPower
    pure ((portion * 60).tdiv 100)
  else pure 0

def derivedTickets (env : Env) (store : Store) (base : Base) (veId : ℕ) : Except Fault ℤ :=
  if base.isGauge = false then pure 0
  else do
    let totalDeposited := store.getTotalDepositedAmount base
    let deposited := store.getDepositedAmountByUser base veId
    let derived := (deposited * 40).tdiv 100
    let totalPower ← getTotalVotingPower env.ctx env.history env.ctx.blockTime 0
    let adjusted ← adjustedTickets env totalDeposited veId totalPower
    pure (min (derived + adjusted) deposited)

def deriveAmountForUser (env : Env) (store : Store) (base : Base) (veId : ℕ) : Except Fault Store :=
  if base.isGauge = false then pure store
  else do
    let totalDerived := store.getTotalDerivedAmount base - store.getDerivedAmountByUser base veId
    let derived ← derivedTickets env store base veId
    let store := store.setDerivedAmountByUser base veId derived
    let store := store.setTotalDerivedAmount base (totalDerived + derived)
    let store := store.writeUserCheckpoint base env.ctx.blockTime veId derived
    pure (store.writeCheckpoint base env.ctx.blockTime)

/-! ## Claims and deposits of rewards -/

section

variable (moduleAddress : String → Address)

/-- One denomination of `claimReward`. The time of the claim and the reward per ticket that was claimed are noted in a
record of the ve, which is not stored. -/
def claimRewardDenom (env : Env) (base : Base) (veId : ℕ) (state : State) (rewardDenom : Denom) : Except Fault State := do
  let store ← state.store.updateRewardPerTicket base env.ctx.blockTime rewardDenom
  let rewardAmount ← store.userReward base env.ctx.blockTime rewardDenom veId
  if 0 < rewardAmount then do
    let coins ← newCoins [⟨rewardDenom, rewardAmount⟩]
    let bank ← state.bank.sendCoins (base.escrowPool moduleAddress) (env.owner veId) coins
    pure { state with store := store, bank := bank }
  else pure { state with store := store }

def claimReward (env : Env) (base : Base) (state : State) (veId : ℕ) : Except Fault State := do
  let state ← (state.store.getRewardDenoms base).foldlM (claimRewardDenom moduleAddress env base veId) state
  let store ← deriveAmountForUser env state.store base veId
  pure { state with store := store }

/-- An amount together with what remains of the reward. -/
def Reward.addRemaining (reward : Reward) (now : ℕ) (amount : ℤ) : Except Fault ℤ :=
  if now < reward.finishTime then do
    let remaining := reward.rate * toInt64 (subUint64 reward.finishTime now)
    require (¬ amount ≤ remaining) (.err errTooSmallRewardAmount "")
    pure (amount + remaining)
  else pure amount

/-- The rate and the finish time of a reward after an amount was added to it. -/
def Reward.refill (reward : Reward) (now : ℕ) (amount : ℤ) : Except Fault (Reward × ℤ) := do
  let rewardAmount ← reward.addRemaining now amount
  let rate := rewardAmount.tdiv Ve.regulatedPeriod
  require (0 < rate) (.err errTooSmallRewardAmount "")
  pure ({ reward with rate := rate, finishTime := now + Ve.regulatedPeriod }, rewardAmount)

def depositReward (env : Env) (base : Base) (state : State) (sender : Address) (rewardDenom : Denom) (amount : ℤ) :
    Except Fault State := do
  require (rewardDenom ≠ base.depositDenom) (.err errInvalidDepositDenom "")
  require (0 < amount) (.err errInvalidAmount "")
  let now := env.ctx.blockTime
  let store :=
    if (state.store.getReward base rewardDenom).rate = 0 then
      state.store.writeRewardPerTicketCheckpoint base rewardDenom 0 now
    else state.store
  let store ← store.updateRewardPerTicket base now rewardDenom
  let coins ← newCoins [⟨rewardDenom, amount⟩]
  let bank ← state.bank.sendCoins sender (base.escrowPool moduleAddress) coins
  let (reward, rewardAmount) ← (store.getReward base rewardDenom).refill now amount
  require (¬ (bank.balance (base.escrowPool moduleAddress) rewardDenom : ℤ) < rewardAmount)
    (.panic "pool has insufficient balance for reward")
  pure { state with store := store.setReward base rewardDenom reward, bank := bank }

end

end Rotofury.Model.Gauge
