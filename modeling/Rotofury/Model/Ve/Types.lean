import Rotofury.Model.Sdk.BankOps

/-! # State of the ve module

A ve is an NFT with an amount of coins locked until a whole week. Its voting power is proportional to the
amount and to the time left. The module keeps, for each ve and for all of them together, a history of
checkpoints: the power at a time and the slope with which it falls from there; and, for every week, the
change of the total slope that is due when the locks ending in it run out.
-/

namespace Rotofury.Model.Ve

open Model.Sdk Model.App Except

def emptyVeId : ℕ := 0
def firstVeId : ℕ := 1
def maxVeId : ℕ := 2 ^ 64 - 2

def secondsPerWeek : ℕ := 7 * (24 * 60 * 60)
def daysPer4Years : ℕ := 365 * 4 + 1
def maxLockTimeWeeks : ℕ := daysPer4Years / 7 + 1
def maxLockTime : ℕ := maxLockTimeWeeks * secondsPerWeek
def maxUnixTime : ℕ := 2 ^ 63 - 1
def regulatedPeriod : ℕ := secondsPerWeek

def emptyEpoch : ℕ := 0

def errInvalidLockDenom : RegisteredError := ⟨"ve", 2, "invalid lock denom"⟩
def errInvalidVeId : RegisteredError := ⟨"ve", 3, "invalid ve id"⟩
def errPastLockTime : RegisteredError := ⟨"ve", 4, "cannot lock until time in the past"⟩
def errTooLongLockTime : RegisteredError := ⟨"ve", 5, "too long lock time"⟩
def errNotIncreasedLockTime : RegisteredError := ⟨"ve", 6, "lock time can only be increased"⟩
def errLockNotExpired : RegisteredError := ⟨"ve", 7, "lock didn't expire"⟩
def errLockExpired : RegisteredError := ⟨"ve", 8, "lock expired"⟩
def errAmountNotPositive : RegisteredError := ⟨"ve", 9, "amount must be positive"⟩
def errSameVeId : RegisteredError := ⟨"ve", 10, "from ve id and to ve id must be different"⟩
def errVeAttached : RegisteredError := ⟨"ve", 11, "ve owner deposited into gauge or ve voted"⟩

/-- Subtraction of unsigned 64-bit integers. -/
def subUint64 (left right : ℕ) : ℕ := (left + (2 ^ 64 - right % 2 ^ 64)) % 2 ^ 64

/-- Conversion of an unsigned to a signed 64-bit integer. -/
def toInt64 (value : ℕ) : ℤ := Int.bmod value (2 ^ 64)

theorem toInt64_of_lt {value : ℕ} (small : value < 2 ^ 63) : toInt64 value = value :=
  Int.bmod_eq_of_le (by omega) (by omega)

/-- The difference of two times as a signed integer, where it is the true one. -/
theorem toInt64_subUint64 {left right : ℕ} (ordered : right ≤ left) (bounded : left < 2 ^ 64)
    (small : left - right < 2 ^ 63) : toInt64 (subUint64 left right) = (left - right : ℕ) := by
  have exact : subUint64 left right = left - right := by
    unfold subUint64
    omega
  exact (congrArg toInt64 exact).trans (toInt64_of_lt small)

/-- What a call reads besides the state: the block's time and height, the lock denomination, and the amounts
delegated by each ve where the staking module has registered itself. Block times are after the Unix epoch
and fit a signed 64-bit integer. -/
structure Ctx where
  blockTime : ℕ
  blockHeight : ℤ
  lockDenom : Denom
  delegatedAmount : Option (ℕ → ℤ)
  time_pos : 0 < blockTime
  time_lt : blockTime < 2 ^ 63

structure LockedBalance where
  amount : ℤ
  endTime : ℕ
deriving DecidableEq, Repr

/-- `NewLockedBalance` -/
def LockedBalance.empty : LockedBalance := ⟨0, 0⟩

structure Checkpoint where
  bias : ℤ
  slope : ℤ
  timestamp : ℕ
  block : ℤ
deriving DecidableEq, Repr

/-- The checkpoint read where none was written. -/
def Checkpoint.zero : Checkpoint := ⟨0, 0, 0, 0⟩

/-- The part of the store that records voting power over time. Absent entries read as zero. -/
structure History where
  epoch : ℕ
  checkpoint : ℕ → Checkpoint
  userEpoch : ℕ → ℕ
  userCheckpoint : ℕ → ℕ → Checkpoint
  slopeChange : ℕ → ℤ

namespace History

/-- The history at genesis. -/
def empty : History := ⟨emptyEpoch, fun _ => .zero, fun _ => 0, fun _ _ => .zero, fun _ => 0⟩

def setCheckpoint (history : History) (epoch : ℕ) (point : Checkpoint) : History :=
  { history with checkpoint := Function.update history.checkpoint epoch point }

def setUserCheckpoint (history : History) (veId epoch : ℕ) (point : Checkpoint) : History :=
  { history with userCheckpoint :=
      Function.update history.userCheckpoint veId (Function.update (history.userCheckpoint veId) epoch point) }

/-- Start the next epoch of a ve with a new checkpoint. -/
def pushUserCheckpoint (history : History) (veId : ℕ) (point : Checkpoint) : History :=
  let userEpoch := history.userEpoch veId + 1
  { history with userEpoch := Function.update history.userEpoch veId userEpoch }.setUserCheckpoint veId userEpoch point

def setSlopeChange (history : History) (timestamp : ℕ) (slopeChange : ℤ) : History :=
  { history with slopeChange := Function.update history.slopeChange timestamp slopeChange }

/-- The latest system checkpoint. -/
def last (history : History) : Checkpoint := history.checkpoint history.epoch

/-- The latest checkpoint of a ve. -/
def lastUser (history : History) (veId : ℕ) : Checkpoint := history.userCheckpoint veId (history.userEpoch veId)

end History

/-- The module's store, with the owners of the ve NFTs. -/
structure Store where
  totalLockedAmount : ℤ
  lockedAmountByUser : ℕ → LockedBalance
  nextVeId : ℕ
  veAttached : ℕ → ℕ
  veVoted : ℕ → Bool
  nftOwner : ℕ → Option Address
  history : History

/-- The store at genesis. -/
def Store.genesis : Store :=
  ⟨0, fun _ => .empty, firstVeId, fun _ => 0, fun _ => false, fun _ => none, .empty⟩

structure State where
  store : Store
  bank : Bank

namespace Store

def setLockedAmountByUser (store : Store) (veId : ℕ) (locked : LockedBalance) : Store :=
  { store with lockedAmountByUser := Function.update store.lockedAmountByUser veId locked }

/-- A deleted lock reads as an empty one. -/
def deleteLockedAmountByUser (store : Store) (veId : ℕ) : Store := store.setLockedAmountByUser veId .empty

def checkVeAttached (store : Store) (veId : ℕ) : Except Fault Unit :=
  require (¬ (store.veAttached veId ≠ 0 ∨ store.veVoted veId = true)) (.err errVeAttached "")

end Store

/-- `RegulatedUnixTime`: the start of the week. -/
def regulatedUnixTime (timestamp : ℕ) : ℕ := timestamp / regulatedPeriod * regulatedPeriod

def checkRegulatedUnixTime (timestamp : ℕ) : Except Fault Unit :=
  require (regulatedUnixTime timestamp = timestamp) (.panic "invalid regulated unix time")

def nextRegulatedUnixTime (timestamp : ℕ) : Except Fault ℕ := do
  checkRegulatedUnixTime timestamp
  require (¬ maxUnixTime - regulatedPeriod < timestamp) (.panic "too large unix time")
  pure (timestamp + regulatedPeriod)

/-- `RegulatedUnixTimeFromNow`; a lock duration that passed its check does not overflow. -/
def regulatedUnixTimeFromNow (ctx : Ctx) (seconds : ℕ) : ℕ := regulatedUnixTime (ctx.blockTime + seconds)

theorem regulatedUnixTime_le (timestamp : ℕ) : regulatedUnixTime timestamp ≤ timestamp :=
  Nat.div_mul_le_self _ _

theorem lt_regulatedUnixTime_add (timestamp : ℕ) : timestamp < regulatedUnixTime timestamp + regulatedPeriod := by
  have := Nat.lt_div_mul_add (a := timestamp) (b := regulatedPeriod) (by decide)
  exact this

theorem regulatedUnixTime_eq_iff {timestamp : ℕ} :
    regulatedUnixTime timestamp = timestamp ↔ regulatedPeriod ∣ timestamp :=
  ⟨fun regulated => ⟨_, by rw [Nat.mul_comm]; exact regulated.symm⟩, fun divides => Nat.div_mul_cancel divides⟩

theorem nextRegulatedUnixTime_ok_iff {timestamp next : ℕ} :
    nextRegulatedUnixTime timestamp = .ok next ↔
      regulatedPeriod ∣ timestamp ∧ timestamp + regulatedPeriod ≤ maxUnixTime ∧
        next = timestamp + regulatedPeriod := by
  have period : regulatedPeriod ≤ maxUnixTime := by decide
  simp only [nextRegulatedUnixTime, checkRegulatedUnixTime, ok_iffs, exists_const, regulatedUnixTime_eq_iff]
  refine and_congr_right fun _ => and_congr ?_ eq_comm
  omega

/-! ## Checkpoints of voting power

`regulateCheckpoint` carries the system checkpoint forward to the block's time, week by week, and adds what a
user changed. `regulateUserCheckpoint` does so for a changed lock, moves the slope change that is due at its
end, and records the user's own checkpoint.
-/

/-- `NewDecFromInt(height - block).QuoInt64(now - timeLast)`: blocks per second since the last checkpoint. -/
def blockSlope (ctx : Ctx) (pointLast : Checkpoint) : Except Fault Dec :=
  if pointLast.timestamp < ctx.blockTime then
    (Dec.ofInt (ctx.blockHeight - pointLast.block)).quoInt (toInt64 (subUint64 ctx.blockTime pointLast.timestamp))
  else .ok Dec.zero

/-- The checkpoint carried to `ti`, where the slope changes. A bias or slope below zero is cut off. -/
def Checkpoint.carry (point : Checkpoint) (ti : ℕ) (slopeChange block : ℤ) : Checkpoint where
  bias := max 0 (point.bias - point.slope * toInt64 (subUint64 ti point.timestamp))
  slope := max 0 (point.slope + slopeChange)
  timestamp := ti
  block := block

/-- The rounds of the loop that are left before it panics; returns the history, the epoch and the checkpoint
at the block's time, which is not written yet. -/
def regulateRounds (ctx : Ctx) (initial : Checkpoint) (blockSlope : Dec) :
    ℕ → History → ℕ → ℕ → Checkpoint → Except Fault (History × ℕ × Checkpoint)
  | 0, _, _, _, _ => .error (.panic "broken checkpoint regulation")
  | rounds + 1, history, epoch, ti, pointLast => do
    let next ← nextRegulatedUnixTime ti
    -- a week that is not over yet has no slope change to apply
    let slopeChange := if ctx.blockTime < next then 0 else history.slopeChange next
    let ti := if ctx.blockTime < next then ctx.blockTime else next
    let elapsed ← (blockSlope.mulInt (toInt64 (subUint64 ti initial.timestamp))).truncateInt64
    let point := pointLast.carry ti slopeChange (initial.block + elapsed)
    if ti = ctx.blockTime then pure (history, epoch + 1, { point with block := ctx.blockHeight })
    else regulateRounds ctx initial blockSlope rounds (history.setCheckpoint (epoch + 1) point) (epoch + 1) ti point

/-- The checkpoint `regulateCheckpoint` starts from. -/
def History.regulationStart (ctx : Ctx) (history : History) : Checkpoint :=
  if 0 < history.epoch then history.last else ⟨0, 0, ctx.blockTime, ctx.blockHeight⟩

/-- Add what a user changed now; only an increase is added. -/
def Checkpoint.addUserChange (point : Checkpoint) (userSlopeChange userBiasChange : ℤ) : Checkpoint :=
  { point with
    bias := if 0 < userBiasChange then max 0 (point.bias + userBiasChange) else point.bias
    slope := if 0 < userSlopeChange then max 0 (point.slope + userSlopeChange) else point.slope }

def regulateCheckpoint (ctx : Ctx) (history : History) (userSlopeChange userBiasChange : ℤ) :
    Except Fault History := do
  let pointLast := history.regulationStart ctx
  let blockSlope ← blockSlope ctx pointLast
  let (history, epoch, point) ← regulateRounds ctx pointLast blockSlope 2 history history.epoch
    (regulatedUnixTime pointLast.timestamp) pointLast
  pure ({ history with epoch := epoch }.setCheckpoint epoch (point.addUserChange userSlopeChange userBiasChange))

/-- `RegulateCheckpoint`, called at the end of every block. -/
def endBlocker (ctx : Ctx) (history : History) : Except Fault History :=
  if regulatedPeriod ≤ subUint64 ctx.blockTime history.last.timestamp then regulateCheckpoint ctx history 0 0
  else .ok history

/-- Slope and bias of a lock from now on, zero once it has ended. -/
def userPoint (ctx : Ctx) (locked : LockedBalance) : Checkpoint :=
  if ctx.blockTime < locked.endTime ∧ 0 < locked.amount then
    let slope := locked.amount.tdiv maxLockTime
    ⟨slope * toInt64 (subUint64 locked.endTime ctx.blockTime), slope, ctx.blockTime, ctx.blockHeight⟩
  else ⟨0, 0, ctx.blockTime, ctx.blockHeight⟩

/-- Cancel the slope change due at the old end and schedule the one due at the new end. -/
def History.scheduleSlopeChanges (history : History) (ctx : Ctx) (lockedOld lockedNew : LockedBalance)
    (slopeOld slopeNew : ℤ) : History :=
  let slopeChangeOld := history.slopeChange lockedOld.endTime
  let slopeChangeNew := history.slopeChange lockedNew.endTime
  let history :=
    if ctx.blockTime < lockedOld.endTime then
      history.setSlopeChange lockedOld.endTime
        (if lockedNew.endTime = lockedOld.endTime then slopeChangeOld + slopeOld - slopeNew
        else slopeChangeOld + slopeOld)
    else history
  if ctx.blockTime < lockedNew.endTime ∧ lockedOld.endTime < lockedNew.endTime then
    history.setSlopeChange lockedNew.endTime (slopeChangeNew - slopeNew)
  else history

def regulateUserCheckpoint (ctx : Ctx) (history : History) (veId : ℕ) (lockedOld lockedNew : LockedBalance) :
    Except Fault History := do
  checkRegulatedUnixTime lockedOld.endTime
  checkRegulatedUnixTime lockedNew.endTime
  let userPointOld := userPoint ctx lockedOld
  let userPointNew := userPoint ctx lockedNew
  let history ← regulateCheckpoint ctx history (userPointNew.slope - userPointOld.slope)
    (userPointNew.bias - userPointOld.bias)
  let history := history.scheduleSlopeChanges ctx lockedOld lockedNew userPointOld.slope userPointNew.slope
  pure (history.pushUserCheckpoint veId userPointNew)

end Rotofury.Model.Ve
