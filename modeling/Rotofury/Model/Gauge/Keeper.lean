import Rotofury.Model.Gauge.Base

/-! # Gauges and bribes

A deposit into a gauge is held by the gauge's pool account and attaches the ve; a deposit into a bribe only counts the
votes of the ve for the gauge.
-/

namespace Rotofury.Model.Gauge

open Model.Sdk Model.App Except

def createGauge (store : Store) (depositDenom : Denom) : Except Fault Store := do
  require (¬ store.hasGauge depositDenom) (.panic "gauge exists")
  pure (store.setGauge depositDenom)

/-- `Keeper.Gauge` -/
def gauge (store : Store) (depositDenom : Denom) : Except Fault Base := do
  require (store.hasGauge depositDenom) (.panic "gauge not found")
  pure ⟨depositDenom, true⟩

/-- `Keeper.Bribe` -/
def bribe (store : Store) (depositDenom : Denom) : Except Fault Base := do
  require (store.hasGauge depositDenom) (.panic "gauge not found")
  pure ⟨depositDenom, false⟩

/-! ## Deposits into a gauge -/

namespace State

variable (state : State)

def incVeAttached (veId : ℕ) : State :=
  { state with veAttached := Function.update state.veAttached veId (state.veAttached veId + 1) }

def decVeAttached (veId : ℕ) : Except Fault State := do
  require (state.veAttached veId ≠ 0) (.panic "invalid ve attached number")
  pure { state with veAttached := Function.update state.veAttached veId (state.veAttached veId - 1) }

/-- The ve is attached if its owner has not deposited into the gauge yet, with whatever ve. -/
def attach (base : Base) (owner : Address) (veId : ℕ) : State :=
  if state.store.getUserVeIdByAddress base owner = Ve.emptyVeId then
    { state with store := state.store.setUserVeIdByAddress base owner veId }.incVeAttached veId
  else state

/-- What is left of a deposit; a ve without any is detached. -/
def leave (base : Base) (owner : Address) (veId : ℕ) (deposited : ℤ) : Except Fault State :=
  if 0 < deposited then pure { state with store := state.store.setDepositedAmountByUser base veId deposited }
  else
    let store := state.store.deleteDepositedAmountByUser base veId
    { state with store := store.deleteUserVeIdByAddress base owner }.decVeAttached veId

end State

section

variable (moduleAddress : String → Address) (env : Env) (base : Base) (state : State)

/-- `Gauge.Deposit` -/
def deposit (veId : ℕ) (amount : ℤ) : Except Fault State := do
  let owner := env.owner veId
  let coin ← newCoin base.depositDenom amount
  let coins ← newCoins [coin]
  let bank ← state.bank.sendCoins owner (base.escrowPool moduleAddress) coins
  let totalDeposited := state.store.getTotalDepositedAmount base + amount
  let deposited := state.store.getDepositedAmountByUser base veId + amount
  let store := state.store.setTotalDepositedAmount base totalDeposited
  let store := store.setDepositedAmountByUser base veId deposited
  let state := { state with store := store, bank := bank }.attach base owner veId
  let store ← deriveAmountForUser env state.store base veId
  pure { state with store := store }

/-- `Gauge.Withdraw` -/
def withdraw (veId : ℕ) (amount : ℤ) : Except Fault State := do
  let owner := env.owner veId
  let deposited := state.store.getDepositedAmountByUser base veId
  require (¬ deposited < amount) (.err errTooLargeAmount "")
  let store := state.store.setTotalDepositedAmount base (state.store.getTotalDepositedAmount base - amount)
  let state ← { state with store := store }.leave base owner veId (deposited - amount)
  let coin ← newCoin base.depositDenom amount
  let coins ← newCoins [coin]
  let bank ← state.bank.sendCoins (base.escrowPool moduleAddress) owner coins
  let store ← deriveAmountForUser env state.store base veId
  pure { state with store := store, bank := bank }

end

/-! ## Deposits into a bribe -/

section

variable (store : Store) (base : Base) (now : ℕ)

/-- `Bribe.Deposit` -/
def bribeDeposit (veId : ℕ) (amount : ℤ) : Store :=
  let totalDeposited := store.getTotalDepositedAmount base + amount
  let deposited := store.getDepositedAmountByUser base veId + amount
  let store := store.setTotalDepositedAmount base totalDeposited
  let store := store.setDepositedAmountByUser base veId deposited
  (store.writeUserCheckpoint base now veId deposited).writeCheckpoint base now

/-- `Bribe.Withdraw` -/
def bribeWithdraw (veId : ℕ) (amount : ℤ) : Except Fault Store := do
  let deposited := store.getDepositedAmountByUser base veId
  require (¬ deposited < amount) (.err errTooLargeAmount "")
  let store := store.setTotalDepositedAmount base (store.getTotalDepositedAmount base - amount)
  let deposited := deposited - amount
  let store :=
    if 0 < deposited then store.setDepositedAmountByUser base veId deposited
    else store.deleteDepositedAmountByUser base veId
  pure ((store.writeUserCheckpoint base now veId deposited).writeCheckpoint base now)

end

/-! ## Runs -/

/-- The calls that other modules may make. -/
inductive Call where
  | createGauge (depositDenom : Denom)
  | deposit (depositDenom : Denom) (veId : ℕ) (amount : ℤ)
  | withdraw (depositDenom : Denom) (veId : ℕ) (amount : ℤ)
  | bribeDeposit (depositDenom : Denom) (veId : ℕ) (amount : ℤ)
  | bribeWithdraw (depositDenom : Denom) (veId : ℕ) (amount : ℤ)
  | claimReward (base : Base) (veId : ℕ)
  | depositReward (base : Base) (sender : Address) (rewardDenom : Denom) (amount : ℤ)
deriving DecidableEq, Repr

structure Event where
  env : Env
  call : Call

def step (moduleAddress : String → Address) (state : State) (event : Event) : Except Fault State :=
  let now := event.env.ctx.blockTime
  match event.call with
  | .createGauge depositDenom => do pure { state with store := ← createGauge state.store depositDenom }
  | .deposit depositDenom veId amount => do
    deposit moduleAddress event.env (← gauge state.store depositDenom) state veId amount
  | .withdraw depositDenom veId amount => do
    withdraw moduleAddress event.env (← gauge state.store depositDenom) state veId amount
  | .bribeDeposit depositDenom veId amount => do
    let base ← bribe state.store depositDenom
    pure { state with store := bribeDeposit state.store base now veId amount }
  | .bribeWithdraw depositDenom veId amount => do
    let base ← bribe state.store depositDenom
    pure { state with store := ← bribeWithdraw state.store base now veId amount }
  | .claimReward base veId => do
    require (state.store.hasGauge base.depositDenom) (.panic "gauge not found")
    claimReward moduleAddress event.env base state veId
  | .depositReward base sender rewardDenom amount => do
    require (state.store.hasGauge base.depositDenom) (.panic "gauge not found")
    depositReward moduleAddress event.env base state sender rewardDenom amount

/-- No gauge exists and no ve is attached. -/
def genesis (bank : Bank) : State := ⟨.empty, fun _ => 0, bank⟩

def run (moduleAddress : String → Address) (bank : Bank) (events : List Event) : State :=
  Machine.replay (step moduleAddress) (genesis bank) events

end Rotofury.Model.Gauge
