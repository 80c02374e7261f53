import Rotofury.Model.Bank.Keeper
import Rotofury.ToMathlib.AListIndex

/-! # Export and import of coins, contracts and token pairs

A chain that is started from an export initialises its modules one after the other: the accounts with their nonces, the
bank, later the EVM with the storage of all contracts, and later the ERC20 module with the token pairs. The bank registers
every coin that somebody holds as it goes, before the pairs of the export are there. Parameters are left out, as is the
check of the exported supply against the balances.
-/

namespace Rotofury.Model.Bank

open Model.Sdk Model.App Model.Erc20

/-- What the modules export of tokens. -/
structure Genesis where
  /-- the sequence of the ERC20 module's account, in the genesis of `auth` -/
  nonce : ℕ
  balances : List Portion
  denomMetadata : List Metadata
  /-- the contracts and their storage, in the genesis of `evm` -/
  contracts : List Address
  tokens : Tokens
  tokenPairs : List TokenPair

/-- The export of a state whose balances are listed by `balances`, and in which there are these contracts. -/
def exportGenesis (state : State) (balances : List Portion) (contracts : List Address) : Genesis where
  nonce := state.deployments
  balances := balances
  denomMetadata := state.denomMetadata.entries.map (·.2)
  contracts := contracts
  tokens := state.tokens
  tokenPairs := state.store.tokenPairs.entries.map (·.2)

def stableCoinMetadata : Metadata where
  description := "The native stable token of the Gridiron."
  base := "uusm"
  denomUnits := [⟨"uusm", 0⟩, ⟨"musm", 3⟩, ⟨"usm", 6⟩]
  name := "USM"
  symbol := "USM"
  display := "usm"

/-- `SetDenomMetaDataForStableCoins` -/
def setDenomMetaDataForStableCoins (denomMetadata : AList fun _ : Denom => Metadata) : AList fun _ : Denom => Metadata :=
  if (denomMetadata.lookup stableCoinMetadata.base).isSome then denomMetadata
  else denomMetadata.insert stableCoinMetadata.base stableCoinMetadata

/-- The bank after `InitGenesis` of the SDK: the supply is the sum of the balances. -/
def restoredBank (balances : List Portion) : Bank where
  balance account denom :=
    (((balances.filter fun portion => portion.address = account).map fun portion => amountOf portion.coins denom).sum).toNat
  supply denom := ((balances.map fun portion => amountOf portion.coins denom).sum).toNat

def registerHeld (world : World) (state : State) (denom : Denom) : Except Fault State :=
  if state.store.isDenomRegistered denom = true then pure state
  else
    match registerCoin world state denom with
    | .ok next => .ok next
    | .error (.panic reason) => .error (.panic reason)
    | .error (.err error detail) =>
      .error (.panic s!"register native coin to erc20 module: {detail}: {error.description}")
    | .error (.insufficientFunds _ _) => .error (.panic "register native coin to erc20 module: insufficient funds")

/-- The balance in the contract; without one, coins of two denominations are compared. -/
def contractBalance (state : State) (account : Address) (denom : Denom) : Except Fault ℤ := do
  match ← getBalance state account denom with
  | some coin => pure coin.amount
  | none => .error (.panic s!"invalid coin denominations; , {denom}")

/-- A call whose error is ignored. -/
def ignoringError (state : State) : Except Fault State → Except Fault State
  | .ok next => .ok next
  | .error (.panic reason) => .error (.panic reason)
  | .error _ => .ok state

/-- Mint what is missing in the contract, or burn what is too much. -/
def correctBalance (world : World) (account : Address) (state : State) (coin : Coin) (balance : ℤ) : Except Fault State :=
  if balance < coin.amount then
    ignoringError state (Erc20.sendCoins world state none (some account) [⟨coin.denom, coin.amount - balance⟩] [])
  else if coin.amount < balance then
    ignoringError state (Erc20.sendCoins world state (some account) none [⟨coin.denom, balance - coin.amount⟩] [])
  else pure state

/-- One coin that an account holds; the gas token is skipped. -/
def alignCoin (world : World) (account : Address) (state : State) (coin : Coin) : Except Fault State :=
  if containsDisplayDenom coin.denom then pure state
  else do
    let state ← registerHeld world state coin.denom
    let balance ← contractBalance state account coin.denom
    let state ← correctBalance world account state coin balance
    let balance ← contractBalance state account coin.denom
    Except.require (balance = coin.amount)
      (.panic s!"unequal balance of coin and erc20 representations: {coin}, {balance}{coin.denom}")
    pure state

/-- The bank's `InitGenesis` -/
def initBank (world : World) (genesis : Genesis) : Except Fault State :=
  let fresh : State :=
    { bank := restoredBank genesis.balances
      denomMetadata := setDenomMetaDataForStableCoins (AList.filled Metadata.base id genesis.denomMetadata ∅)
      store := ⟨∅, ∅, ∅⟩
      tokens := ⟨fun _ _ => 0, fun _ => 0⟩
      deployments := genesis.nonce }
  genesis.balances.foldlM
    (fun state portion => portion.coins.foldlM (alignCoin world portion.address) state) fresh

/-- The EVM's `InitGenesis`: the storage of the exported contracts. -/
def initEvm (genesis : Genesis) (state : State) : State :=
  { state with
    tokens :=
      { balanceOf := fun contract account =>
          if contract ∈ genesis.contracts then genesis.tokens.balanceOf contract account
          else state.tokens.balanceOf contract account
        totalSupply := fun contract =>
          if contract ∈ genesis.contracts then genesis.tokens.totalSupply contract else state.tokens.totalSupply contract } }

/-- The ERC20 module's `InitGenesis` -/
def initErc20 (genesis : Genesis) (state : State) : State :=
  { state with store := genesis.tokenPairs.foldl Store.addTokenPair state.store }

/-- The three modules in the order of `SetOrderInitGenesis`. -/
def initGenesis (world : World) (genesis : Genesis) : Except Fault State := do
  let state ← initBank world genesis
  pure (initErc20 genesis (initEvm genesis state))

end Rotofury.Model.Bank
