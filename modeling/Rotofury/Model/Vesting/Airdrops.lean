import Rotofury.Machine.Replay
import Rotofury.ToMathlib.AListSum
import Rotofury.Model.Sdk.BankOps

/-! # Airdrops

The team's account announces airdrops, which are kept by their target, and has them paid later, in batches and in the
order of the targets' addresses. A total over all announcements is held against a cap.
-/

namespace Rotofury.Model.Vesting

open Model.Sdk Model.App Except

def displayDenom : Denom := "iron"
def baseDenom : Denom := "airon"

def errInvalidAddress : RegisteredError := ⟨"sdk", 7, "invalid address"⟩
def errInvalidRequest : RegisteredError := ⟨"sdk", 18, "invalid request"⟩

/-- An error made with `fmt.Errorf`, reported outside every codespace. -/
def plainError (text : String) : Fault := .err ⟨"undefined", 1, text⟩ ""

/-- The units that `RegisterDenoms` makes known to the SDK; the base denomination is the smallest of them. -/
def denomUnit (denom : Denom) : Option Dec :=
  if denom = displayDenom then some Dec.one else if denom = baseDenom then some (Dec.withPrec 1 18) else none

/-- `NormalizeDecCoin`: a coin of a known unit is converted to the base unit, any other stays as it is. -/
def normalizeDecCoin (denom : Denom) (amount : Dec) : Except Fault (Denom × Dec) :=
  match denomUnit denom with
  | none => .ok (denom, amount)
  | some unit =>
    if unit = Dec.withPrec 1 18 then .ok (baseDenom, amount)
    else do pure (baseDenom, ← (amount.mul unit).quo (Dec.withPrec 1 18))

/-- `ParseCoinNormalized` of the text of a coin. -/
def parseCoinNormalized (coin : Coin) : Except Fault Coin := do
  require (0 ≤ coin.amount ∧ validateDenom coin.denom = true)
    (plainError s!"invalid decimal coin expression: {coin}")
  let (denom, amount) ← normalizeDecCoin coin.denom (Dec.ofInt coin.amount)
  pure ⟨denom, amount.truncateInt⟩

structure Airdrop where
  targetAddr : String
  amount : Coin
deriving DecidableEq, Repr

structure Store where
  teamVestingAddr : String
  airdropTotalAmount : ℤ
  airdrops : AList fun _ : Address => Airdrop
  airdropsCompleted : AList fun _ : Address => Airdrop

structure State where
  store : Store
  bank : Bank

/-- What a call reads besides the state: how addresses are written, and the cap on airdrops in the parameters. -/
structure Ctx where
  accAddressFromBech32 : String → Option Address
  airdropAmount : ℤ

structure MsgAddAirdrops where
  sender : String
  airdrops : List Airdrop
deriving DecidableEq, Repr

structure MsgExecuteAirdrops where
  sender : String
  maxCount : ℕ
deriving DecidableEq, Repr

/-- `AccAddressFromBech32`, with the error a caller makes of a failure. -/
def Ctx.parseAddress (ctx : Ctx) (text : String) (fault : Fault) : Except Fault Address :=
  match ctx.accAddressFromBech32 text with
  | some account => .ok account
  | none => .error fault

@[simp]
theorem Ctx.parseAddress_ok_iff {ctx : Ctx} {text : String} {fault : Fault} {account : Address} :
    ctx.parseAddress text fault = .ok account ↔ ctx.accAddressFromBech32 text = some account := by
  unfold parseAddress
  split <;> simp_all

def decodingFailed : Fault := plainError "decoding bech32 failed"

/-- `Coin.Validate` -/
def validateCoin (coin : Coin) : Except Fault Unit := do
  require (validateDenom coin.denom = true) (plainError s!"invalid denom: {coin.denom}")
  require (0 ≤ coin.amount) (plainError s!"negative coin amount: {coin.amount}")

def Airdrop.validateBasic (ctx : Ctx) (airdrop : Airdrop) : Except Fault Unit := do
  let _ ← ctx.parseAddress airdrop.targetAddr
    (.err errInvalidAddress "invalid airdrop target address (decoding bech32 failed)")
  validateCoin airdrop.amount
  -- any coin passes, although only the native one is meant to
  let _ ← parseCoinNormalized airdrop.amount

def MsgAddAirdrops.validateBasic (ctx : Ctx) (msg : MsgAddAirdrops) : Except Fault Unit := do
  let _ ← ctx.parseAddress msg.sender (.err errInvalidAddress "invalid sender address (decoding bech32 failed)")
  msg.airdrops.forM (·.validateBasic ctx)

def MsgExecuteAirdrops.validateBasic (ctx : Ctx) (msg : MsgExecuteAirdrops) : Except Fault Unit := do
  let _ ← ctx.parseAddress msg.sender (.err errInvalidAddress "invalid sender address (decoding bech32 failed)")
  require (msg.maxCount ≠ 0) (.err errInvalidRequest "max count must be > 0")

/-- `GetTeamVestingAddr`; there is none before one is set. -/
def getTeamVestingAddr (ctx : Ctx) (store : Store) : Except Fault (Option Address) :=
  if store.teamVestingAddr = "" then .ok none
  else some <$> ctx.parseAddress store.teamVestingAddr (.panic "decoding bech32 failed")

/-- Airdrops can only be added and executed by the team's address. -/
def requireTeam (ctx : Ctx) (store : Store) (sender : String) : Except Fault Unit := do
  let sender ← ctx.parseAddress sender decodingFailed
  let teamAddr ← getTeamVestingAddr ctx store
  require (teamAddr = some sender) (.err errUnauthorized "unauthorized sender")

/-- An entry of a message with its target and its amount read; it is what the store gets. -/
def Airdrop.read (ctx : Ctx) (airdrop : Airdrop) : Except Fault (Address × Airdrop) := do
  let targetAddr ← ctx.parseAddress airdrop.targetAddr decodingFailed
  let amount ← parseCoinNormalized airdrop.amount
  pure (targetAddr, { airdrop with amount := amount })

/-- `SetAirdrop`: an airdrop that is pending for the same target is overwritten. -/
def setAirdrop (airdrops : AList fun _ : Address => Airdrop) (entry : Address × Airdrop) :
    AList fun _ : Address => Airdrop :=
  airdrops.insert entry.1 entry.2

def addAirdrops (ctx : Ctx) (state : State) (msg : MsgAddAirdrops) : Except Fault State := do
  requireTeam ctx state.store msg.sender
  let (airdrops, total) ← msg.airdrops.foldlM (fun (airdrops, total) airdrop => do
    let entry ← airdrop.read ctx
    pure (setAirdrop airdrops entry, total + entry.2.amount.amount))
      (state.store.airdrops, state.store.airdropTotalAmount)
  require (¬ ctx.airdropAmount < total)
    (.err errInvalidRequest "total amount should not be greater than its cap")
  pure { state with store.airdrops := airdrops, store.airdropTotalAmount := total }

/-- The pending airdrops in the order of the store's keys. -/
def Store.pendingAirdrops (store : Store) : List Airdrop :=
  (store.airdrops.entries.insertionSort fun left right => left.1.toNat ≤ right.1.toNat).map (·.2)

/-- Mint an airdrop, send it to its target and move it to the completed ones. A pending airdrop has a target that was
read when it was added. -/
def payAirdrop (ctx : Ctx) (state : State) (airdrop : Airdrop) : Except Fault State := do
  let coins ← newCoins [airdrop.amount]
  let bank ← state.bank.mintCoins .vesting coins
  let targetAddr ← ctx.parseAddress airdrop.targetAddr (.panic "decoding bech32 failed")
  let bank ← bank.sendCoinsFromModuleToAccount .vesting targetAddr coins
  pure ⟨{ state.store with
    airdrops := state.store.airdrops.erase targetAddr
    airdropsCompleted := state.store.airdropsCompleted.insert targetAddr airdrop }, bank⟩

/-- The loop of `ExecuteAirdrops`; `count` airdrops have been paid so far. -/
def payAirdrops (ctx : Ctx) (maxCount : ℕ) : ℕ → List Airdrop → State → Except Fault State
  | _, [], state => .ok state
  | count, airdrop :: rest, state => do
    let state ← payAirdrop ctx state airdrop
    if maxCount ≤ count + 1 then pure state else payAirdrops ctx maxCount (count + 1) rest state

def executeAirdrops (ctx : Ctx) (state : State) (msg : MsgExecuteAirdrops) : Except Fault State := do
  requireTeam ctx state.store msg.sender
  payAirdrops ctx msg.maxCount 0 state.store.pendingAirdrops state

/-! ## Runs -/

inductive Msg where
  | addAirdrops (msg : MsgAddAirdrops)
  | executeAirdrops (msg : MsgExecuteAirdrops)
deriving DecidableEq, Repr

/-- A message passes its stateless check before it is handled. -/
def Msg.deliver (ctx : Ctx) (state : State) : Msg → Except Fault State
  | .addAirdrops msg => do
    msg.validateBasic ctx
    Vesting.addAirdrops ctx state msg
  | .executeAirdrops msg => do
    msg.validateBasic ctx
    Vesting.executeAirdrops ctx state msg

/-- The state with a book of the entries that were accepted and of the airdrops that were paid, each with its target.
The book is not part of the store. -/
structure Book where
  state : State
  accepted : List (Address × Coin)
  paid : List (Address × Coin)

/-- The target of an airdrop with the coin it is of, as it is entered in the book. -/
def Airdrop.paidEntry (ctx : Ctx) (airdrop : Airdrop) : Option (Address × Coin) :=
  (ctx.accAddressFromBech32 airdrop.targetAddr).map fun targetAddr => (targetAddr, airdrop.amount)

/-- The entry of a message as it is accepted, its coin normalized. -/
def Airdrop.accepted? (ctx : Ctx) (airdrop : Airdrop) : Option (Address × Coin) :=
  match airdrop.read ctx with
  | .ok (targetAddr, read) => some (targetAddr, read.amount)
  | .error _ => none

/-- A message and what it enters in the book. `ExecuteAirdrops` pays one airdrop at least, if there is one. -/
def step (ctx : Ctx) (book : Book) (msg : Msg) : Except Fault Book := do
  let state ← msg.deliver ctx book.state
  match msg with
  | .addAirdrops msg =>
    pure { book with state := state, accepted := book.accepted ++ msg.airdrops.filterMap (·.accepted? ctx) }
  | .executeAirdrops msg =>
    let paid := book.state.store.pendingAirdrops.take (max 1 msg.maxCount)
    pure { book with state := state, paid := book.paid ++ paid.filterMap (·.paidEntry ctx) }

/-- No airdrop has been added yet. -/
def fresh (teamVestingAddr : String) (bank : Bank) : Book := ⟨⟨⟨teamVestingAddr, 0, ∅, ∅⟩, bank⟩, [], []⟩

def run (ctx : Ctx) (teamVestingAddr : String) (bank : Bank) (msgs : List Msg) : Book :=
  Machine.replay (step ctx) (fresh teamVestingAddr bank) msgs

end Rotofury.Model.Vesting
