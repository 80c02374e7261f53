import Rotofury.Machine.Replay
import Rotofury.Model.Ve.MsgServer

/-! # Rewards of the ves

The coins that arrive in the distribution pool are recorded week by week. A ve claims its share of every week since its
last claim: the amount recorded for the week times its power over the total power at the end of the week.
-/

namespace Rotofury.Model.Ve

open Model.Sdk Model.App

/-! ## Runs of the ve module

A run is a list of events, each in the context of its block: a message, the slashing of a ve, the attaching of
a ve by a gauge or a vote, or the end of the block. A failed event is rolled back.
-/

inductive Action where
  | create (msg : MsgCreate)
  | deposit (msg : MsgDeposit)
  | extendTime (msg : MsgExtendTime)
  | merge (msg : MsgMerge)
  | withdraw (msg : MsgWithdraw)
  | send (msg : MsgSend)
  | slash (veId : ℕ) (amount : ℤ)
  | attach (veId attached : ℕ) (voted : Bool)
  | endBlock
deriving DecidableEq, Repr

structure Event where
  ctx : Ctx
  action : Action

/-- One event; a message first passes its stateless check. -/
def step (state : State) (event : Event) : Except Fault State :=
  match event.action with
  | .create msg => do
    msg.validateBasic
    create event.ctx state msg
  | .deposit msg => do
    msg.validateBasic
    deposit event.ctx state msg
  | .extendTime msg => do
    msg.validateBasic
    extendTime event.ctx state msg
  | .merge msg => do
    msg.validateBasic
    merge event.ctx state msg
  | .withdraw msg => do
    msg.validateBasic
    withdraw event.ctx state msg
  | .send msg => do
    let store ← send state.store msg
    pure { state with store := store }
  | .slash veId amount => slashLockedAmountByUser event.ctx state veId amount
  | .attach veId attached voted => .ok { state with
      store.veAttached := Function.update state.store.veAttached veId attached
      store.veVoted := Function.update state.store.veVoted veId voted }
  | .endBlock => do
    let history ← endBlocker event.ctx state.store.history
    pure { state with store.history := history }

def genesis (bank : Bank) : State := ⟨.genesis, bank⟩

/-- The state after a run. -/
def run (bank : Bank) (events : List Event) : State := Machine.replay step (genesis bank) events

/-- The time of an event is that of its block. -/
def Event.time (event : Event) : ℕ := event.ctx.blockTime

/-- The part of the store that records rewards. Absent entries read as zero. -/
structure Distribution where
  totalAmount : ℤ
  accruedLastTimestamp : ℕ
  perPeriod : ℕ → ℤ
  claimLastTimestampByUser : ℕ → ℕ

def Distribution.genesis : Distribution := ⟨0, 0, fun _ => 0, fun _ => 0⟩

def Distribution.setClaimLastTimestampByUser (distribution : Distribution) (veId timestamp : ℕ) : Distribution :=
  let claimLast := Function.update distribution.claimLastTimestampByUser veId timestamp
  { distribution with claimLastTimestampByUser := claimLast }

def previousRegulatedUnixTime (timestamp : ℕ) : Except Fault ℕ := do
  checkRegulatedUnixTime timestamp
  Except.require (¬ timestamp < regulatedPeriod) (.panic "too small unix time")
  pure (timestamp - regulatedPeriod)

/-- A product or a sum of more than 256 bits is a panic. -/
def checkInt (value : ℤ) : Except Fault ℤ := do
  Except.require (value.natAbs < 2 ^ 256) (.panic "Int overflow")
  pure value

/-- `Int.Quo`, rounded towards zero. -/
def quo (left right : ℤ) : Except Fault ℤ :=
  if right = 0 then .error (.panic "division by zero") else .ok (left.tdiv right)

/-- The loop of `DistributePerPeriod`. What a week gets is counted from the last call, not from the week's start. -/
def accrue (now timeLast duration : ℕ) (amount : ℤ) (perPeriod : ℕ → ℤ) (epochTime : ℕ) : Except Fault (ℕ → ℤ) := do
  let amountExisting := perPeriod epochTime
  if duration = 0 ∨ now ≤ epochTime then pure (Function.update perPeriod epochTime (amountExisting + amount))
  else
    let _ ← nextRegulatedUnixTime epochTime
    -- the time `NextRegulatedUnixTime` has just returned
    let nextEpochTime := epochTime + regulatedPeriod
    let endTime := min nextEpochTime now
    let amountAdd ← quo (amount * toInt64 (subUint64 endTime timeLast)) (toInt64 duration)
    let perPeriod := Function.update perPeriod epochTime (amountExisting + amountAdd)
    if now ≤ nextEpochTime then pure perPeriod
    else accrue now timeLast duration amount perPeriod nextEpochTime
termination_by now - epochTime
decreasing_by
  have period : 0 < regulatedPeriod := by decide
  omega

/-- The balance of the distribution pool. -/
def poolBalance (ctx : Ctx) (bank : Bank) : ℤ := bank.balance ModuleAccount.distributionPool.address ctx.lockDenom

def distributePerPeriod (ctx : Ctx) (bank : Bank) (distribution : Distribution) : Except Fault Distribution := do
  let totalAmount := poolBalance ctx bank
  let amount := totalAmount - distribution.totalAmount
  let timeLast := distribution.accruedLastTimestamp
  let duration := subUint64 ctx.blockTime timeLast
  let perPeriod ← accrue ctx.blockTime timeLast duration amount distribution.perPeriod (regulatedUnixTime timeLast)
  pure { distribution with
    totalAmount := totalAmount, accruedLastTimestamp := ctx.blockTime, perPeriod := perPeriod }

/-- The loop of `Claim`: the weeks from the one after `epochTime` up to this one, each with the share of the ve. -/
def claimWeeks (ctx : Ctx) (history : History) (perPeriod : ℕ → ℤ) (veId epochTime : ℕ) : Except Fault (List (ℕ × ℤ)) := do
  let _ ← nextRegulatedUnixTime epochTime
  -- the time `NextRegulatedUnixTime` has just returned
  let next := epochTime + regulatedPeriod
  if regulatedUnixTime ctx.blockTime < next then pure []
  else
    let period ← previousRegulatedUnixTime next
    let votingPower ← getVotingPower ctx history veId next 0
    let totalVotingPower ← getTotalVotingPower ctx history next 0
    let share ← quo (← checkInt (perPeriod period * votingPower)) totalVotingPower
    let later ← claimWeeks ctx history perPeriod veId next
    pure ((period, share) :: later)
termination_by regulatedUnixTime ctx.blockTime - epochTime
decreasing_by
  have period : 0 < regulatedPeriod := by decide
  omega

/-- The state with the rewards, and a ledger of what was paid to each ve on account of each week. The ledger is not part
of the store: it only records the payments. -/
structure RewardState where
  ve : State
  distribution : Distribution
  paid : ℕ → ℕ → ℤ

def RewardState.setHistory (state : RewardState) (history : History) : RewardState :=
  { state with ve.store.history := history }

/-- Enter a payment for several weeks into the ledger. -/
def recordPaid (paid : ℕ → ℕ → ℤ) (veId : ℕ) (weeks : List (ℕ × ℤ)) : ℕ → ℕ → ℤ :=
  Function.update paid veId fun period =>
    paid veId period + ((weeks.filter (·.1 = period)).map Prod.snd).sum

/-- `Claim` for a ve that exists. -/
def claim (ctx : Ctx) (state : RewardState) (veId : ℕ) (owner : Address) : Except Fault RewardState := do
  -- `RegulateCheckpoint`
  let history ← endBlocker ctx state.ve.store.history
  let state := state.setHistory history
  let timeLast := state.distribution.claimLastTimestampByUser veId
  if subUint64 ctx.blockTime timeLast < regulatedPeriod then pure state
  else
    let weeks ← claimWeeks ctx state.ve.store.history state.distribution.perPeriod veId (regulatedUnixTime timeLast)
    let amount ← weeks.foldlM (fun amount week => checkInt (amount + week.2)) 0
    let state := { state with distribution := state.distribution.setClaimLastTimestampByUser veId ctx.blockTime }
    if ¬ 0 < amount then pure state
    else
      let coin ← newCoin ctx.lockDenom amount
      let bank ← execOp state.ve.bank (.sendCoinsFromModuleToAccount .distributionPool owner [coin])
      pure { state with ve.bank := bank, paid := recordPaid state.paid veId weeks }

inductive RewardAction where
  | ve (action : Action)
  /-- A deposit into the distribution pool. -/
  | fund (sender : Address) (coins : List Coin)
  | distribute
  | claim (veId : ℕ)
deriving DecidableEq, Repr

structure RewardEvent where
  ctx : Ctx
  action : RewardAction

/-- The time and the height of an event's block. -/
def RewardEvent.clock (event : RewardEvent) : ℕ × ℤ := (event.ctx.blockTime, event.ctx.blockHeight)

def rewardStep (state : RewardState) (event : RewardEvent) : Except Fault RewardState :=
  match event.action with
  | .ve action => do
    let ve ← step state.ve ⟨event.ctx, action⟩
    pure { state with ve := ve }
  | .fund sender coins => do
    let bank ← execOp state.ve.bank (.sendCoinsFromAccountToModule sender .distributionPool coins)
    pure { state with ve.bank := bank }
  | .distribute => do
    let distribution ← distributePerPeriod event.ctx state.ve.bank state.distribution
    pure { state with distribution := distribution }
  | .claim veId =>
    match state.ve.store.nftOwner veId with
    | some owner => claim event.ctx state veId owner
    -- an id without a ve is not claimed for
    | none => .ok state

def rewardGenesis (bank : Bank) : RewardState := ⟨genesis bank, .genesis, fun _ _ => 0⟩

end Rotofury.Model.Ve
