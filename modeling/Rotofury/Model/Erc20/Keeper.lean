import Rotofury.Model.Erc20.Types
import Rotofury.Machine.Replay

/-! # The ERC20 keeper

`SendCoins` repeats on the contracts what the bank does with coins; `RegisterCoin` deploys a contract for a coin of the
bank and `RegisterERC20` makes a contract known that was deployed by others.
-/

namespace Rotofury.Model.Erc20

open Model.Sdk Model.App Except

namespace Store

def getTokenPairID (store : Store) (token : Denom) : Option PairId :=
  if isHexAddress token.toList then store.erc20Map.lookup (hexToAddress token.toList) else store.denomMap.lookup token

def getTokenPair (store : Store) (id : PairId) : Option TokenPair := store.tokenPairs.lookup id

def isDenomRegistered (store : Store) (denom : Denom) : Bool := (store.denomMap.lookup denom).isSome

def isERC20Registered (store : Store) (contract : Address) : Bool := (store.erc20Map.lookup contract).isSome

/-- `SetTokenPair`, `SetDenomMap` and `SetERC20Map` of a new pair. -/
def addTokenPair (store : Store) (pair : TokenPair) : Store where
  tokenPairs := store.tokenPairs.insert pair.getID pair
  denomMap := store.denomMap.insert pair.denom pair.getID
  erc20Map := store.erc20Map.insert pair.erc20Address pair.getID

/-- The pair of a coin; an identifier without a pair is a panic. -/
def pairOfDenom (store : Store) (denom : Denom) : Except Fault TokenPair :=
  match store.getTokenPairID denom with
  | none => .error (.err errTokenPairNotFound s!"token pair with denom '{denom}' not found")
  | some id =>
    match store.getTokenPair id with
    | none => .error (.panic s!"token pair with denom '{denom}' not found: {errTokenPairNotFound.description}")
    | some pair => .ok pair

/-- The contracts and amounts for coins of the bank; the gas token is not touched. -/
def nativeTransfers (store : Store) (coins : List Coin) : Except Fault (List (Address × ℤ)) :=
  (coins.filter fun coin => ¬ containsDisplayDenom coin.denom).mapM fun coin => do
    let pair ← store.pairOfDenom coin.denom
    pure (pair.erc20Address, coin.amount)

end Store

/-- The contracts and amounts for tokens, by their denominations. -/
def tokenTransfers (coins : List Coin) : List (Address × ℤ) :=
  coins.map fun coin => (contractOfToken coin.denom, coin.amount)

/-- An argument of type `uint256`; a negative number becomes its complement. -/
def uint256 (amount : ℤ) : ℕ := if 0 ≤ amount then amount.toNat else (amount + 2 ^ 256).toNat

/-- A call without the hooks of a transaction. -/
def callEVM (world : World) (state : State) (caller contract : Address) (call : TokenCall) : Except Fault State := do
  let tokens ←
    if state.store.isERC20Registered contract then state.tokens.call contract caller call
    else world.foreign contract caller call state.tokens
  pure { state with tokens := tokens }

/-- One call of `SendCoins`: without a sender it mints, without a recipient it burns. -/
def moveTokens (world : World) (sender recipient : Option Address) (state : State) (transfer : Address × ℤ) :
    Except Fault State :=
  match sender, recipient with
  | none, _ => callEVM world state ModuleAccount.erc20.address transfer.1 (.mint (recipient.getD 0) (uint256 transfer.2))
  | some sender, none => callEVM world state sender transfer.1 (.burn (uint256 transfer.2))
  | some sender, some recipient => callEVM world state sender transfer.1 (.transfer recipient (uint256 transfer.2))

def sendCoins (world : World) (state : State) (sender recipient : Option Address)
    (nativeCoins nativeErc20Tokens : List Coin) : Except Fault State := do
  let native ← state.store.nativeTransfers nativeCoins
  (native ++ tokenTransfers nativeErc20Tokens).foldlM (moveTokens world sender recipient) state

/-- The bank's `HasSupply`: tokens have the supply of their contract. -/
def hasSupply (state : State) (denom : Denom) : Bool :=
  if isDenomForErc20 denom then state.tokens.totalSupply (contractOfToken denom) ≠ 0 else state.bank.supply denom ≠ 0

/-- The exponent of the first unit is read for the constructor. The EVM does not create a contract at the address of
another one. -/
def deployERC20Contract (world : World) (state : State) (coinMetadata : Metadata) : Except Fault (State × Address) := do
  require (coinMetadata.denomUnits ≠ []) (.panic "runtime error: index out of range [0] with length 0")
  let contract := world.deployed state.deployments
  require (state.store.isERC20Registered contract = false) (.err errVMExecution "contract address collision")
  pure ({ state with tokens := state.tokens.deploy contract, deployments := state.deployments + 1 }, contract)

def registerCoin (world : World) (state : State) (denom : Denom) : Except Fault State := do
  require (¬ containsDisplayDenom denom) (.err errEVMDenom s!"cannot register the EVM denomination {denom}")
  match state.denomMetadata.lookup denom with
  | none => .error (.err errEVMDenom s!"cannot get metadata of denom {denom}")
  | some coinMetadata => do
    require (state.store.isDenomRegistered coinMetadata.base = false)
      (.err errTokenPairAlreadyExists s!"coin denomination already registered: {coinMetadata.base}")
    require (hasSupply state coinMetadata.base = true)
      (.err errInvalidCoins s!"base denomination '{coinMetadata.base}' cannot have a supply of 0")
    let (state, contract) ← deployERC20Contract world state coinMetadata
    pure { state with store := state.store.addTokenPair ⟨contract, coinMetadata.base, .module⟩ }

/-- `CreateDenom` -/
def createDenom (address : String) : Denom := s!"{denomPrefix}/{address}"

/-- `CreateDenomDescription` -/
def createDenomDescription (address : String) : String := s!"Gridiron coin token representation of {address}"

/-- `strings.ReplaceAll`; the number counts the characters of a match that are still to be skipped. -/
def replaceAll (old new : List Char) : ℕ → List Char → List Char
  | _, [] => []
  | 0, char :: rest =>
    if old.isPrefixOf (char :: rest) then new ++ replaceAll old new (old.length - 1) rest
    else char :: replaceAll old new 0 rest
  | skip + 1, _ :: rest => replaceAll old new skip rest

/-- `SanitizeERC20Name` -/
def sanitizeERC20Name (name : String) : String :=
  let lower := name.toLower.toList
  let short := replaceAll " coin".toList [] 0 (replaceAll " token".toList [] 0 lower)
  let trimmed := ((short.dropWhile Char.isWhitespace).reverse.dropWhile Char.isWhitespace).reverse
  String.ofList (replaceAll [' '] ['_'] 0 trimmed)

/-- The metadata for a contract; a second unit only with decimals. -/
def coinMetadataOf (strContract : String) (erc20Data : ERC20Data) : Metadata :=
  let base := createDenom strContract
  let metadata : Metadata :=
    { description := createDenomDescription strContract
      base := base
      denomUnits := [⟨base, 0⟩]
      name := base
      symbol := erc20Data.symbol
      display := base }
  if 0 < erc20Data.decimals then
    { metadata with
      denomUnits := metadata.denomUnits ++ [⟨sanitizeERC20Name erc20Data.name, erc20Data.decimals⟩]
      display := sanitizeERC20Name erc20Data.name }
  else metadata

def createCoinMetadata (world : World) (state : State) (contract : Address) : Except Fault (State × Metadata) := do
  let strContract := world.hex contract
  let erc20Data ← world.erc20Data contract
  require (state.denomMetadata.lookup (createDenom strContract) = none)
    (.err errInternalTokenPair "denom metadata already registered")
  require (state.store.isDenomRegistered (createDenom strContract) = false)
    (.err errInternalTokenPair s!"coin denomination already registered: {erc20Data.name}")
  let metadata := coinMetadataOf strContract erc20Data
  world.validateMetadata metadata
  pure ({ state with denomMetadata := state.denomMetadata.insert metadata.base metadata }, metadata)

def registerERC20 (world : World) (state : State) (contract : Address) : Except Fault (State × TokenPair) := do
  require (state.store.isERC20Registered contract = false)
    (.err errTokenPairAlreadyExists s!"token ERC20 contract already registered: {world.hex contract}")
  let (state, metadata) ← createCoinMetadata world state contract
  let pair : TokenPair := ⟨contract, metadata.name, .external⟩
  pure ({ state with store := state.store.addTokenPair pair }, pair)

/-! ## Resolving denominations, and runs of the registry

What the module takes the contract of a denomination to be, and the calls that write the registry of token pairs. Between
such calls the bank and the contracts may change in any way.
-/

namespace Store

/-- The contract of a denomination: that in its text, or that of its pair. -/
def getContractByDenom (store : Store) (denom : Denom) : Except Fault (Option Address) :=
  if isDenomForErc20 denom then .ok (some (contractOfToken denom))
  else
    match store.getTokenPairID denom with
    | none => .ok none
    | some id =>
      match store.getTokenPair id with
      | none => .error (.panic s!"token pair with denom '{denom}' not found: {errTokenPairNotFound.description}")
      | some pair => .ok (some pair.erc20Address)

/-- The contracts that `SendCoins` calls, with the amounts. -/
def transfers (store : Store) (nativeCoins nativeErc20Tokens : List Coin) : Except Fault (List (Address × ℤ)) := do
  let native ← store.nativeTransfers nativeCoins
  pure (native ++ tokenTransfers nativeErc20Tokens)

def deleteTokenPair (store : Store) (pair : TokenPair) : Store where
  tokenPairs := store.tokenPairs.erase pair.getID
  denomMap := store.denomMap.erase pair.denom
  erc20Map := store.erc20Map.erase pair.erc20Address

end Store

/-- `GetSupply`; without a contract it is the coin without a denomination. -/
def getSupply (state : State) (denom : Denom) : Except Fault (Option Coin) := do
  let contract ← state.store.getContractByDenom denom
  pure (contract.map fun contract => ⟨denom, state.tokens.totalSupply contract⟩)

/-- `GetBalance`; without a contract it is the coin without a denomination. -/
def getBalance (state : State) (account : Address) (denom : Denom) : Except Fault (Option Coin) := do
  let contract ← state.store.getContractByDenom denom
  pure (contract.map fun contract => ⟨denom, state.tokens.balanceOf contract account⟩)

/-- What can happen to the registry and to what it is made from. -/
inductive RegistryEvent where
  | registerCoin (denom : Denom)
  | registerERC20 (contract : Address)
  /-- `DeleteTokenPair` of the pair that is stored under an identifier -/
  | deleteTokenPair (id : PairId)
  /-- `SetDenomMetaData` of the bank -/
  | setDenomMetaData (metadata : Metadata)
  /-- anything else that moves coins and tokens -/
  | move (bank : Bank) (tokens : Tokens)

def RegistryEvent.step (world : World) (state : State) : RegistryEvent → Except Fault State
  | .registerCoin denom => Erc20.registerCoin world state denom
  | .registerERC20 contract => Prod.fst <$> Erc20.registerERC20 world state contract
  | .deleteTokenPair id =>
    match state.store.getTokenPair id with
    | some pair => .ok { state with store := state.store.deleteTokenPair pair }
    | none => .ok state
  | .setDenomMetaData metadata => .ok { state with denomMetadata := state.denomMetadata.insert metadata.base metadata }
  | .move bank tokens => .ok { state with bank := bank, tokens := tokens }

end Rotofury.Model.Erc20
