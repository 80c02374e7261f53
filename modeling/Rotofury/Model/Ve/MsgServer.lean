import Rotofury.Model.Ve.Query

/-! # Messages of the ve module

Creating a ve, adding to it, extending it, merging two and withdrawing one; the slashing of a ve by the staking
module; and the transfer of its NFT. NFTs are known by the number in their id: no other text names one.
-/

namespace Rotofury.Model.Ve

open Model.Sdk Model.App Except

structure MsgCreate where
  sender : Address
  receiver : Option Address
  amount : Coin
  lockDuration : ℕ
deriving DecidableEq, Repr

structure MsgDeposit where
  sender : Address
  veId : ℕ
  amount : Coin
deriving DecidableEq, Repr

structure MsgExtendTime where
  sender : Address
  veId : ℕ
  lockDuration : ℕ
deriving DecidableEq, Repr

structure MsgMerge where
  sender : Address
  fromVeId : ℕ
  toVeId : ℕ
deriving DecidableEq, Repr

structure MsgWithdraw where
  sender : Address
  veId : ℕ
deriving DecidableEq, Repr

/-- `MsgSend` of the NFT module for a ve NFT. -/
structure MsgSend where
  sender : Address
  veId : ℕ
  receiver : Address
deriving DecidableEq, Repr

def requireVeId (veId : ℕ) : Except Fault Unit := require (veId ≠ emptyVeId) (.err errInvalidVeId "")

def requirePositiveAmount (amount : Coin) : Except Fault Unit :=
  require (0 < amount.amount) (.err errAmountNotPositive "")

def requireLockDuration (lockDuration : ℕ) : Except Fault Unit := do
  require (lockDuration ≠ 0) (.err errPastLockTime "")
  require (lockDuration ≤ maxLockTime) (.err errTooLongLockTime "")

def MsgCreate.validateBasic (msg : MsgCreate) : Except Fault Unit := do
  requirePositiveAmount msg.amount
  requireLockDuration msg.lockDuration

def MsgDeposit.validateBasic (msg : MsgDeposit) : Except Fault Unit := do
  requireVeId msg.veId
  requirePositiveAmount msg.amount

def MsgExtendTime.validateBasic (msg : MsgExtendTime) : Except Fault Unit := do
  requireVeId msg.veId
  requireLockDuration msg.lockDuration

def MsgMerge.validateBasic (msg : MsgMerge) : Except Fault Unit := do
  requireVeId msg.fromVeId
  requireVeId msg.toVeId
  require (msg.fromVeId ≠ msg.toVeId) (.err errSameVeId "")

def MsgWithdraw.validateBasic (msg : MsgWithdraw) : Except Fault Unit := requireVeId msg.veId

/-- `VeIDFromUint64` -/
def veIdText (veId : ℕ) : String := s!"ve-{veId}"

/-- The owner in an error text: accounts are printed in hexadecimal here, times in seconds. -/
def ownerText (owner : Option Address) : String :=
  match owner with
  | some account => toString account
  | none => ""

def errInvalidRequest : RegisteredError := ⟨"sdk", 18, "invalid request"⟩
def errNftExists : RegisteredError := ⟨"nft", 5, "nft already exist"⟩
def errNftNotExists : RegisteredError := ⟨"nft", 6, "nft does not exist"⟩

namespace Store

/-- The NFT module's `Mint`, `Burn` and `Transfer` for the ve class. -/
def mintNft (store : Store) (veId : ℕ) (receiver : Address) : Except Fault Store := do
  require ((store.nftOwner veId).isNone = true) (.err errNftExists (veIdText veId))
  pure { store with nftOwner := Function.update store.nftOwner veId (some receiver) }

def burnNft (store : Store) (veId : ℕ) : Except Fault Store := do
  require ((store.nftOwner veId).isSome = true) (.err errNftNotExists (veIdText veId))
  pure { store with nftOwner := Function.update store.nftOwner veId none }

def transferNft (store : Store) (veId : ℕ) (receiver : Address) : Except Fault Store := do
  require ((store.nftOwner veId).isSome = true) (.err errNftNotExists (veIdText veId))
  pure { store with nftOwner := Function.update store.nftOwner veId (some receiver) }

/-- Only the owner of the NFT may go on. -/
def requireOwner (store : Store) (sender : Address) (veId : ℕ) (detail : String) : Except Fault Unit :=
  require (store.nftOwner veId = some sender) (.err errUnauthorized detail)

end Store

def checkLockDenom (ctx : Ctx) (amount : Coin) : Except Fault Unit :=
  require (amount.denom = ctx.lockDenom)
    (.err errInvalidLockDenom s!"amount denom {amount.denom} but should be {ctx.lockDenom}")

/-- Take the coins to lock from the sender, unless they are locked already. -/
def takeLocked (ctx : Ctx) (bank : Bank) (sender : Address) (amount : ℤ) (sendCoins : Bool) : Except Fault Bank :=
  if 0 < amount ∧ sendCoins = true then
    execOp bank (.sendCoinsFromAccountToModule sender .ve [⟨ctx.lockDenom, amount⟩])
  else .ok bank

/-- `DepositFor`: add an amount to a lock, move its end, or both. -/
def depositFor (ctx : Ctx) (state : State) (sender : Address) (veId : ℕ) (amount : ℤ) (unlockTime : ℕ)
    (locked : LockedBalance) (sendCoins : Bool) : Except Fault State := do
  let bank ← takeLocked ctx state.bank sender amount sendCoins
  let totalLocked := if 0 < amount then state.store.totalLockedAmount + amount else state.store.totalLockedAmount
  let lockedNew : LockedBalance :=
    ⟨locked.amount + amount, if 0 < unlockTime then unlockTime else locked.endTime⟩
  let history ← regulateUserCheckpoint ctx state.store.history veId locked lockedNew
  let store := state.store.setLockedAmountByUser veId lockedNew
  pure ⟨{ store with totalLockedAmount := totalLocked, history := history }, bank⟩

def create (ctx : Ctx) (state : State) (msg : MsgCreate) : Except Fault State := do
  checkLockDenom ctx msg.amount
  let unlockTime := regulatedUnixTimeFromNow ctx msg.lockDuration
  require (ctx.blockTime < unlockTime) (.err errPastLockTime s!"past time: {unlockTime}")
  require (unlockTime ≤ ctx.blockTime + maxLockTime)
    (.err errTooLongLockTime s!"future time: {unlockTime}")
  let veId := state.store.nextVeId
  require (¬ (maxVeId < veId ∨ veId = emptyVeId)) (.err errInvalidVeId "no available ve id")
  let store ← { state.store with nextVeId := veId + 1 }.mintNft veId (msg.receiver.getD msg.sender)
  depositFor ctx { state with store := store } msg.sender veId msg.amount.amount unlockTime .empty true

/-- The lock of a ve that is still running. -/
def runningLock (ctx : Ctx) (store : Store) (veId : ℕ) : Except Fault LockedBalance := do
  require ((store.nftOwner veId).isSome = true) (.err errInvalidVeId s!"invalid ve id: {veIdText veId}")
  let locked := store.lockedAmountByUser veId
  require (0 < locked.amount) (.err errAmountNotPositive s!"nothing is locked for ve {veIdText veId}")
  require (ctx.blockTime < locked.endTime)
    (.err errLockExpired s!"unlocking time {locked.endTime} but now {ctx.blockTime}")
  pure locked

def deposit (ctx : Ctx) (state : State) (msg : MsgDeposit) : Except Fault State := do
  checkLockDenom ctx msg.amount
  let locked ← runningLock ctx state.store msg.veId
  depositFor ctx state msg.sender msg.veId msg.amount.amount 0 locked true

def extendTime (ctx : Ctx) (state : State) (msg : MsgExtendTime) : Except Fault State := do
  let locked ← runningLock ctx state.store msg.veId
  state.store.requireOwner msg.sender msg.veId
    s!"user {msg.sender} do not own ve {ownerText (state.store.nftOwner msg.veId)}, so cannot extend its locking duration"
  let unlockTime := regulatedUnixTimeFromNow ctx msg.lockDuration
  require (locked.endTime < unlockTime)
    (.err errNotIncreasedLockTime s!"unlocking time {unlockTime} but existing {locked.endTime}")
  require (unlockTime ≤ ctx.blockTime + maxLockTime)
    (.err errTooLongLockTime s!"future time: {unlockTime}")
  depositFor ctx state msg.sender msg.veId 0 unlockTime locked false

/-- Coins that are delegated for staking stay locked. -/
def requireUndelegated (ctx : Ctx) (veId : ℕ) (detail : String) : Except Fault Unit :=
  require (∀ delegated ∈ ctx.delegatedAmount, ¬ 0 < delegated veId) (.err errInvalidRequest detail)

def merge (ctx : Ctx) (state : State) (msg : MsgMerge) : Except Fault State := do
  let store := state.store
  store.requireOwner msg.sender msg.fromVeId s!"user {msg.sender} do not own ve {veIdText msg.fromVeId}"
  store.requireOwner msg.sender msg.toVeId s!"user {msg.sender} do not own ve {veIdText msg.toVeId}"
  store.checkVeAttached msg.fromVeId
  let lockedFrom := store.lockedAmountByUser msg.fromVeId
  let lockedTo := store.lockedAmountByUser msg.toVeId
  requireUndelegated ctx msg.fromVeId "locked amount of from ve is delegated for staking"
  -- whether the locks have expired is not checked; the longest end counts
  let endTime := if lockedFrom.endTime < lockedTo.endTime then lockedTo.endTime else lockedFrom.endTime
  let history ← regulateUserCheckpoint ctx store.history msg.fromVeId lockedFrom .empty
  let store ← { store.deleteLockedAmountByUser msg.fromVeId with history := history }.burnNft msg.fromVeId
  depositFor ctx { state with store := store } msg.sender msg.toVeId lockedFrom.amount endTime lockedTo false

def withdraw (ctx : Ctx) (state : State) (msg : MsgWithdraw) : Except Fault State := do
  let store := state.store
  -- the text names the owner in the place of the ve
  store.requireOwner msg.sender msg.veId s!"user {msg.sender} do not own ve {ownerText (store.nftOwner msg.veId)}"
  store.checkVeAttached msg.veId
  let locked := store.lockedAmountByUser msg.veId
  require (locked.endTime ≤ ctx.blockTime)
    (.err errLockNotExpired s!"unlocking time {locked.endTime} but now {ctx.blockTime}")
  requireUndelegated ctx msg.veId "locked amount is delegated for staking"
  let totalLocked := store.totalLockedAmount - locked.amount
  require (0 ≤ totalLocked) (.panic "total locked negative")
  let history ← regulateUserCheckpoint ctx store.history msg.veId locked .empty
  let store ← { store.deleteLockedAmountByUser msg.veId with
    totalLockedAmount := totalLocked, history := history }.burnNft msg.veId
  let coin ← newCoin ctx.lockDenom locked.amount
  let bank ← execOp state.bank (.sendCoinsFromModuleToAccount .ve msg.sender [coin])
  pure ⟨store, bank⟩

/-- `SlashLockedAmountByUser`, called by the staking module. The source panics with the error of a burn that fails; here
the error is returned as the bank gives it. -/
def slashLockedAmountByUser (ctx : Ctx) (state : State) (veId : ℕ) (amount : ℤ) : Except Fault State := do
  let coin ← newCoin ctx.lockDenom amount
  let bank ← execOp state.bank (.burnCoins .ve [coin])
  let lockedOld := state.store.lockedAmountByUser veId
  let lockedNew : LockedBalance := { lockedOld with amount := lockedOld.amount - amount }
  let history ← regulateUserCheckpoint ctx state.store.history veId lockedOld lockedNew
  let store := state.store.setLockedAmountByUser veId lockedNew
  pure ⟨{ store with totalLockedAmount := store.totalLockedAmount - amount, history := history }, bank⟩

/-- `Send` of the NFT module, which lets no attached ve go. -/
def send (store : Store) (msg : MsgSend) : Except Fault Store := do
  store.checkVeAttached msg.veId
  store.requireOwner msg.sender msg.veId s!"{msg.sender} is not the owner of nft {veIdText msg.veId}"
  store.transferNft msg.veId msg.receiver

end Rotofury.Model.Ve
