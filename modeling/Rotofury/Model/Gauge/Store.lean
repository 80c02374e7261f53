import Rotofury.Model.Sdk.StoreKey
import Rotofury.Model.Ve.Distribution

/-! # The store of gauges and bribes

Every pool denomination has a gauge and a bribe. Both keep deposits, rewards and checkpoints under keys that start with
the kind and the denomination of the pool. The first byte of a key tells the kind of record, so the store is kept here as
one map for each kind; within a map the keys are the store's.
-/

namespace Rotofury.Model.Gauge

open Model.Sdk Model.App

def emptyEpoch : ℕ := 0
def firstEpoch : ℕ := 1

def errInvalidDepositDenom : RegisteredError := ⟨"gauge", 2, "pool denom cannot be deposited as reward"⟩
def errInvalidAmount : RegisteredError := ⟨"gauge", 3, "invalid amount"⟩
def errTooSmallRewardAmount : RegisteredError := ⟨"gauge", 4, "too small reward amount"⟩
def errTooLargeAmount : RegisteredError := ⟨"gauge", 5, "too large amount"⟩

/-! ## Keys -/

def gaugeKey (denom : Denom) : Bytes := 1 :: denomBytes denom
def bribeKey (denom : Denom) : Bytes := 2 :: denomBytes denom
def totalDepositedAmountKey (gaugeOrBribe : Bytes) : Bytes := 3 :: gaugeOrBribe
def depositedAmountByUserKey (gaugeOrBribe : Bytes) (veId : ℕ) : Bytes := 4 :: gaugeOrBribe ++ uint64ToBigEndian veId
def totalDerivedAmountKey (gauge : Bytes) : Bytes := 5 :: gauge
def derivedAmountByUserKey (gauge : Bytes) (veId : ℕ) : Bytes := 6 :: gauge ++ uint64ToBigEndian veId
def rewardKeyPrefix (gaugeOrBribe : Bytes) : Bytes := 7 :: gaugeOrBribe
def rewardKey (gaugeOrBribe : Bytes) (rewardDenom : Denom) : Bytes := rewardKeyPrefix gaugeOrBribe ++ denomBytes rewardDenom

def userRewardKey (gaugeOrBribe : Bytes) (rewardDenom : Denom) (veId : ℕ) : Bytes :=
  8 :: gaugeOrBribe ++ denomBytes rewardDenom ++ uint64ToBigEndian veId

def userVeIdByAddressKey (gauge : Bytes) (account : Address) : Bytes := 9 :: gauge ++ addressBytes account
def epochKey (gaugeOrBribe : Bytes) : Bytes := 10 :: gaugeOrBribe
def pointKey (gaugeOrBribe : Bytes) (epoch : ℕ) : Bytes := 11 :: gaugeOrBribe ++ uint64ToBigEndian epoch
def userEpochKey (gaugeOrBribe : Bytes) (veId : ℕ) : Bytes := 12 :: gaugeOrBribe ++ uint64ToBigEndian veId

def userPointKey (gaugeOrBribe : Bytes) (veId epoch : ℕ) : Bytes :=
  13 :: gaugeOrBribe ++ uint64ToBigEndian veId ++ uint64ToBigEndian epoch

def rewardEpochKey (gaugeOrBribe : Bytes) (rewardDenom : Denom) : Bytes := 14 :: gaugeOrBribe ++ denomBytes rewardDenom

def rewardPointKey (gaugeOrBribe : Bytes) (rewardDenom : Denom) (epoch : ℕ) : Bytes :=
  15 :: gaugeOrBribe ++ denomBytes rewardDenom ++ uint64ToBigEndian epoch

/-! ## Records -/

/-- An amount at a time. The amount of a checkpoint that was never written is nil. -/
structure Checkpoint where
  timestamp : ℕ
  amount : Option ℤ
deriving DecidableEq, Repr

def Checkpoint.absent : Checkpoint := ⟨0, none⟩

structure Reward where
  denom : Denom
  rate : ℤ
  finishTime : ℕ
  lastUpdateTime : ℕ
  cumulativePerTicket : ℤ
  accruedAmount : ℤ
deriving DecidableEq, Repr

structure UserReward where
  denom : Denom
  veId : ℕ
  lastClaimTime : ℕ
  cumulativePerTicket : ℤ
deriving DecidableEq, Repr

/-- The records by their keys. Amounts, epochs and ids that are absent read as zero. -/
structure Store where
  gauges : AList fun _ : Bytes => Denom
  totalDepositedAmount : Bytes → ℤ
  depositedAmountByUser : Bytes → ℤ
  totalDerivedAmount : Bytes → ℤ
  derivedAmountByUser : Bytes → ℤ
  rewards : AList fun _ : Bytes => Reward
  userRewards : AList fun _ : Bytes => UserReward
  userVeIdByAddress : Bytes → ℕ
  epoch : Bytes → ℕ
  checkpoint : Bytes → Checkpoint
  userEpoch : Bytes → ℕ
  userCheckpoint : Bytes → Checkpoint
  rewardEpoch : Bytes → ℕ
  rewardCheckpoint : Bytes → Checkpoint

def Store.empty : Store :=
  ⟨∅, fun _ => 0, fun _ => 0, fun _ => 0, fun _ => 0, ∅, ∅, fun _ => 0, fun _ => 0, fun _ => .absent, fun _ => 0,
    fun _ => .absent, fun _ => 0, fun _ => .absent⟩

/-- A gauge or a bribe. -/
structure Base where
  depositDenom : Denom
  isGauge : Bool
deriving DecidableEq, Repr

def Base.prefixKey (base : Base) : Bytes := if base.isGauge then gaugeKey base.depositDenom else bribeKey base.depositDenom

/-! ## Access -/

namespace Store

variable (store : Store) (base : Base)

def hasGauge (denom : Denom) : Prop := (store.gauges.lookup (gaugeKey denom)).isSome

instance (denom : Denom) : Decidable (store.hasGauge denom) := inferInstanceAs (Decidable (_ = true))

def setGauge (denom : Denom) : Store := { store with gauges := store.gauges.insert (gaugeKey denom) denom }

def getTotalDepositedAmount : ℤ := store.totalDepositedAmount (totalDepositedAmountKey base.prefixKey)

def setTotalDepositedAmount (amount : ℤ) : Store :=
  { store with totalDepositedAmount :=
      Function.update store.totalDepositedAmount (totalDepositedAmountKey base.prefixKey) amount }

def getDepositedAmountByUser (veId : ℕ) : ℤ := store.depositedAmountByUser (depositedAmountByUserKey base.prefixKey veId)

def setDepositedAmountByUser (veId : ℕ) (amount : ℤ) : Store :=
  { store with depositedAmountByUser :=
      Function.update store.depositedAmountByUser (depositedAmountByUserKey base.prefixKey veId) amount }

def deleteDepositedAmountByUser (veId : ℕ) : Store := store.setDepositedAmountByUser base veId 0

def getTotalDerivedAmount : ℤ := store.totalDerivedAmount (totalDerivedAmountKey base.prefixKey)

def setTotalDerivedAmount (amount : ℤ) : Store :=
  { store with totalDerivedAmount :=
      Function.update store.totalDerivedAmount (totalDerivedAmountKey base.prefixKey) amount }

def getDerivedAmountByUser (veId : ℕ) : ℤ := store.derivedAmountByUser (derivedAmountByUserKey base.prefixKey veId)

def setDerivedAmountByUser (veId : ℕ) (amount : ℤ) : Store :=
  { store with derivedAmountByUser :=
      Function.update store.derivedAmountByUser (derivedAmountByUserKey base.prefixKey veId) amount }

def getReward (rewardDenom : Denom) : Reward :=
  (store.rewards.lookup (rewardKey base.prefixKey rewardDenom)).getD ⟨rewardDenom, 0, 0, 0, 0, 0⟩

def setReward (rewardDenom : Denom) (reward : Reward) : Store :=
  { store with rewards := store.rewards.insert (rewardKey base.prefixKey rewardDenom) reward }

/-- The records that `IterateRewards` visits, in the order of their keys. -/
def iterateRewards : List Reward :=
  ((store.rewards.entries.filter fun entry => (rewardKeyPrefix base.prefixKey).isPrefixOf entry.1).insertionSort
    fun left right => left.1 ≤ right.1).map (·.2)

def getUserReward (rewardDenom : Denom) (veId : ℕ) : UserReward :=
  (store.userRewards.lookup (userRewardKey base.prefixKey rewardDenom veId)).getD ⟨rewardDenom, veId, 0, 0⟩

def getUserVeIdByAddress (account : Address) : ℕ := store.userVeIdByAddress (userVeIdByAddressKey base.prefixKey account)

def setUserVeIdByAddress (account : Address) (veId : ℕ) : Store :=
  { store with userVeIdByAddress :=
      Function.update store.userVeIdByAddress (userVeIdByAddressKey base.prefixKey account) veId }

def deleteUserVeIdByAddress (account : Address) : Store := store.setUserVeIdByAddress base account Ve.emptyVeId

def getEpoch : ℕ := store.epoch (epochKey base.prefixKey)

def setEpoch (epoch : ℕ) : Store := { store with epoch := Function.update store.epoch (epochKey base.prefixKey) epoch }

def getCheckpoint (epoch : ℕ) : Checkpoint := store.checkpoint (pointKey base.prefixKey epoch)

def setCheckpoint (epoch : ℕ) (point : Checkpoint) : Store :=
  { store with checkpoint := Function.update store.checkpoint (pointKey base.prefixKey epoch) point }

def getUserEpoch (veId : ℕ) : ℕ := store.userEpoch (userEpochKey base.prefixKey veId)

def setUserEpoch (veId epoch : ℕ) : Store :=
  { store with userEpoch := Function.update store.userEpoch (userEpochKey base.prefixKey veId) epoch }

def getUserCheckpoint (veId epoch : ℕ) : Checkpoint := store.userCheckpoint (userPointKey base.prefixKey veId epoch)

def setUserCheckpoint (veId epoch : ℕ) (point : Checkpoint) : Store :=
  { store with userCheckpoint := Function.update store.userCheckpoint (userPointKey base.prefixKey veId epoch) point }

def getRewardEpoch (rewardDenom : Denom) : ℕ := store.rewardEpoch (rewardEpochKey base.prefixKey rewardDenom)

def setRewardEpoch (rewardDenom : Denom) (epoch : ℕ) : Store :=
  { store with rewardEpoch := Function.update store.rewardEpoch (rewardEpochKey base.prefixKey rewardDenom) epoch }

def getRewardCheckpoint (rewardDenom : Denom) (epoch : ℕ) : Checkpoint :=
  store.rewardCheckpoint (rewardPointKey base.prefixKey rewardDenom epoch)

def setRewardCheckpoint (rewardDenom : Denom) (epoch : ℕ) (point : Checkpoint) : Store :=
  { store with rewardCheckpoint :=
      Function.update store.rewardCheckpoint (rewardPointKey base.prefixKey rewardDenom epoch) point }

end Store

end Rotofury.Model.Gauge
