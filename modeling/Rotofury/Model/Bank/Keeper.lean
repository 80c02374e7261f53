import Rotofury.Model.Erc20.Keeper

/-! # The bank keeper of the application

The keeper wraps the bank of the SDK. Coins of the bank move in the bank and, through the ERC20 keeper, in the contract
that mirrors them; tokens move in their contract only. Events and the creation of accounts are left out.
-/

namespace Rotofury.Model.Bank

open Model.Sdk Model.App Model.Erc20 Except

def sendCoins (world : World) (state : State) (sender recipient : Address) (coins : List Coin) : Except Fault State := do
  let (nativeCoins, nativeErc20Tokens) := splitCoinsByErc20 coins
  let bank ← state.bank.subUnlockedCoins sender nativeCoins
  let bank ← bank.addCoins recipient nativeCoins
  Erc20.sendCoins world { state with bank := bank } (some sender) (some recipient) nativeCoins nativeErc20Tokens

def sendCoinsFromModuleToAccount (world : World) (state : State) (sender : ModuleAccount) (recipient : Address)
    (coins : List Coin) : Except Fault State := do
  require (¬ blockedAddr recipient) (.err errUnauthorized "is not allowed to receive funds")
  sendCoins world state sender.address recipient coins

def sendCoinsFromAccountToModule (world : World) (state : State) (sender : Address) (recipient : ModuleAccount)
    (coins : List Coin) : Except Fault State :=
  sendCoins world state sender recipient.address coins

/-- An input or an output of a transfer between many accounts. -/
structure Portion where
  address : Address
  coins : List Coin
deriving DecidableEq, Repr

/-- The account through which such transfers go in the contracts: the address of the module `bank`. -/
def moduleAddress : Address := 0x4381dc2ab14285160c808659aee005d51255add7#160

/-- `ValidateBasic` of an input or output. -/
def validatePortion (portion : Portion) : Except Fault Unit :=
  require (validCoins portion.coins ∧ portion.coins ≠ []) (.err errInvalidCoins "")

def totalCoins (portions : List Portion) : List Coin :=
  portions.foldl (fun total portion => insertCoins total portion.coins) []

def errInputOutputMismatch : RegisteredError := ⟨"bank", 4, "sum inputs != sum outputs"⟩

/-- `ValidateInputsOutputs` -/
def validateInputsOutputs (inputs outputs : List Portion) : Except Fault Unit := do
  inputs.forM validatePortion
  outputs.forM validatePortion
  require (totalCoins inputs = totalCoins outputs) (.err errInputOutputMismatch "")

def spendInput (world : World) (state : State) (input : Portion) : Except Fault State := do
  let (nativeCoins, nativeErc20Tokens) := splitCoinsByErc20 input.coins
  let bank ← state.bank.subUnlockedCoins input.address nativeCoins
  Erc20.sendCoins world { state with bank := bank } (some input.address) (some moduleAddress) nativeCoins nativeErc20Tokens

def payOutput (world : World) (state : State) (output : Portion) : Except Fault State := do
  let (nativeCoins, nativeErc20Tokens) := splitCoinsByErc20 output.coins
  let bank ← state.bank.addCoins output.address nativeCoins
  Erc20.sendCoins world { state with bank := bank } (some moduleAddress) (some output.address) nativeCoins nativeErc20Tokens

def inputOutputCoins (world : World) (state : State) (inputs outputs : List Portion) : Except Fault State := do
  validateInputsOutputs inputs outputs
  let state ← inputs.foldlM (spendInput world) state
  outputs.foldlM (payOutput world) state

/-- Tokens of contracts are refused by the calls that are for coins only. -/
def requireNative (coins : List Coin) (purpose : String) : Except Fault Unit :=
  require ((splitCoinsByErc20 coins).2 = []) (.err errInvalidCoins s!"erc20 native tokens unqualified for {purpose}")

/-- The delegation's own bookkeeping in the account is left out. -/
def delegateCoins (world : World) (state : State) (delegator moduleAccount : Address) (coins : List Coin) :
    Except Fault State := do
  requireNative coins "delegation"
  let bank ← state.bank.sendCoins delegator moduleAccount coins
  Erc20.sendCoins world { state with bank := bank } (some delegator) (some moduleAccount) (splitCoinsByErc20 coins).1 []

def undelegateCoins (world : World) (state : State) (moduleAccount delegator : Address) (coins : List Coin) :
    Except Fault State := do
  requireNative coins "delegation"
  let bank ← state.bank.sendCoins moduleAccount delegator coins
  Erc20.sendCoins world { state with bank := bank } (some moduleAccount) (some delegator) (splitCoinsByErc20 coins).1 []

/-- The first mint of a coin deploys its contract. -/
def registerMinted (world : World) (state : State) (coin : Coin) : Except Fault State :=
  if ¬ containsDisplayDenom coin.denom ∧ state.store.isDenomRegistered coin.denom = false then
    registerCoin world state coin.denom
  else pure state

def mintCoins (world : World) (state : State) (module : ModuleAccount) (coins : List Coin) : Except Fault State := do
  requireNative coins "mint"
  let bank ← state.bank.mintCoins module coins
  let state ← (splitCoinsByErc20 coins).1.foldlM (registerMinted world) { state with bank := bank }
  Erc20.sendCoins world state none (some module.address) (splitCoinsByErc20 coins).1 []

def burnCoins (world : World) (state : State) (module : ModuleAccount) (coins : List Coin) : Except Fault State := do
  requireNative coins "burn"
  let bank ← state.bank.burnCoins module coins
  Erc20.sendCoins world { state with bank := bank } (some module.address) none (splitCoinsByErc20 coins).1 []

/-- A call of the keeper. -/
inductive Call where
  | sendCoins (sender recipient : Address) (coins : List Coin)
  | inputOutputCoins (inputs outputs : List Portion)
  | mintCoins (module : ModuleAccount) (coins : List Coin)
  | burnCoins (module : ModuleAccount) (coins : List Coin)
  | delegateCoins (delegator moduleAccount : Address) (coins : List Coin)
  | undelegateCoins (moduleAccount delegator : Address) (coins : List Coin)
deriving DecidableEq, Repr

/-- All coins that a call is given. -/
def Call.coins : Call → List Coin
  | .sendCoins _ _ coins | .mintCoins _ coins | .burnCoins _ coins | .delegateCoins _ _ coins
  | .undelegateCoins _ _ coins => coins
  | .inputOutputCoins inputs outputs => (inputs ++ outputs).flatMap Portion.coins

def exec (world : World) (state : State) : Call → Except Fault State
  | .sendCoins sender recipient coins => sendCoins world state sender recipient coins
  | .inputOutputCoins inputs outputs => inputOutputCoins world state inputs outputs
  | .mintCoins module coins => mintCoins world state module coins
  | .burnCoins module coins => burnCoins world state module coins
  | .delegateCoins delegator moduleAccount coins => delegateCoins world state delegator moduleAccount coins
  | .undelegateCoins moduleAccount delegator coins => undelegateCoins world state moduleAccount delegator coins

end Rotofury.Model.Bank

/-! ## The hook after an EVM transaction

For every transfer event of the transaction's receipt on a contract that mirrors a coin, the hook repeats the transfer in
the bank. Its bank keeper is the application's, as the wiring of the keepers has it.
-/

namespace Rotofury.Model.Erc20

open Model.Sdk Model.App

/-- An entry of a receipt. -/
structure Log where
  address : Address
  topics : List (BitVec 256)
  data : List UInt8
deriving DecidableEq, Repr

/-- `common.BytesToAddress` of a topic. -/
def addressOfTopic (topic : BitVec 256) : Address := topic.setWidth 160

def erc20EventTransfer : String := "Transfer"

/-- The amount of a transfer event with a positive one. -/
def transferAmount (world : World) (eventID : BitVec 256) (data : List UInt8) : Option ℤ :=
  match world.eventByID eventID with
  | none => none
  | some name =>
    if name ≠ erc20EventTransfer then none
    else
      match world.unpack name data with
      | some (amount :: _) => if 0 < amount then some amount else none
      | _ => none

/-- The pair of a contract; an unknown contract is registered first, and skipped if that fails. -/
def pairOfContract (world : World) (state : State) (contract : Address) : Except Fault (Option (State × TokenPair)) :=
  match state.store.erc20Map.lookup contract with
  | none => pure (registerERC20 world state contract).toOption
  | some id =>
    match state.store.getTokenPair id with
    | none => .error (.panic s!"token pair not found: {errTokenPairNotFound.description}")
    | some pair => pure (some (state, pair))

/-- The transfer as the bank makes it. -/
def repeatTransfer (world : World) (state : State) (sender recipient : Address) (coins : List Coin) :
    Except Fault State :=
  if sender = 0 ∧ recipient ≠ 0 then do
    let state ← Bank.mintCoins world state .erc20 coins
    Bank.sendCoinsFromModuleToAccount world state .erc20 recipient coins
  else if sender ≠ 0 ∧ recipient = 0 then do
    let state ← Bank.sendCoinsFromAccountToModule world state sender .erc20 coins
    Bank.burnCoins world state .erc20 coins
  else if sender ≠ 0 ∧ recipient ≠ 0 then Bank.sendCoins world state sender recipient coins
  else pure state

def processLog (world : World) (state : State) (log : Log) : Except Fault State :=
  match log.topics with
  | eventID :: sender :: recipient :: _ =>
    match transferAmount world eventID log.data with
    | none => pure state
    | some amount => do
      match ← pairOfContract world state log.address with
      | none => pure state
      | some (state, pair) =>
        if pair.contractOwner ≠ .module then pure state
        else repeatTransfer world state (addressOfTopic sender) (addressOfTopic recipient) [⟨pair.denom, amount⟩]
  | _ => pure state

def postTxProcessing (world : World) (state : State) (logs : List Log) : Except Fault State :=
  logs.foldlM (processLog world) state

end Rotofury.Model.Erc20
