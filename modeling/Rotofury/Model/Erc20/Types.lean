import Rotofury.Model.Sdk.Bank
import Rotofury.Model.Sdk.CoinSet

/-! # Token pairs and contracts

A token pair ties a denomination to a contract. Contracts that the module has deployed mirror a coin of the bank, others
are tokens of their own. A registered contract mints, burns and transfers exactly, and reverts on a balance that does not
suffice and on the zero address. What other contracts do, and all that is not in this repository, is a parameter.
-/

namespace Rotofury.Model.Erc20

open Model.Sdk Model.App Except

/-! ## Denominations of ERC20 tokens

A token of any contract has the denomination `erc20/<address>`, with the address in hexadecimal. Coins of such
denominations live in the contract and not in the bank. Denominations that contain the display denomination stand for the
gas token, which has no contract.
-/

def displayDenom : String := "iron"

def denomPrefix : String := "erc20"

/-- `strings.Contains(denom, gridiron.DisplayDenom)` -/
def containsDisplayDenom (denom : Denom) : Prop := displayDenom.toList <:+: denom.toList

instance (denom : Denom) : Decidable (containsDisplayDenom denom) := inferInstanceAs (Decidable (_ <:+: _))

def isHexCharacter (char : Char) : Bool :=
  ('0' ≤ char ∧ char ≤ '9') ∨ ('a' ≤ char ∧ char ≤ 'f') ∨ ('A' ≤ char ∧ char ≤ 'F')

/-- The digits after an optional `0x`. -/
def hexDigits : List Char → List Char
  | '0' :: 'x' :: digits => digits
  | '0' :: 'X' :: digits => digits
  | digits => digits

/-- `common.IsHexAddress` -/
def isHexAddress (text : List Char) : Bool := (hexDigits text).length = 40 ∧ (hexDigits text).all isHexCharacter

def hexValue (char : Char) : ℕ :=
  if char ≤ '9' then char.toNat - '0'.toNat
  else if char ≤ 'F' then char.toNat - 'A'.toNat + 10
  else char.toNat - 'a'.toNat + 10

/-- `common.HexToAddress` -/
def hexToAddress (text : List Char) : Address :=
  BitVec.ofNat 160 ((hexDigits text).foldl (fun value char => value * 16 + hexValue char) 0)

/-- `strings.Split(denom, "/")` -/
def denomSplit (denom : Denom) : List (List Char) := denom.toList.splitOn '/'

def isDenomForErc20 (denom : Denom) : Bool :=
  match denomSplit denom with
  | [first, address] => first = denomPrefix.toList ∧ isHexAddress address
  | _ => false

/-- The contract that a token's denomination names. -/
def contractOfToken (denom : Denom) : Address := hexToAddress ((denomSplit denom).getD 1 [])

/-- The coins of the bank and the tokens of contracts in a list of coins. -/
def splitCoinsByErc20 (coins : List Coin) : List Coin × List Coin :=
  coins.foldl (fun split coin =>
    if isDenomForErc20 coin.denom then (split.1, insertCoin split.2 coin) else (insertCoin split.1 coin, split.2)) ([], [])

/-- `Owner` -/
inductive Owner where
  | unspecified | module | external
deriving DecidableEq, Repr

/-- The source keeps the address as text, which it only ever turns back into the address. -/
structure TokenPair where
  erc20Address : Address
  denom : Denom
  contractOwner : Owner
deriving DecidableEq, Repr

/-- The hash of address and denomination stands for the two. -/
abbrev PairId := Address × Denom

def TokenPair.getID (pair : TokenPair) : PairId := (pair.erc20Address, pair.denom)

/-- The module's key-value store. -/
structure Store where
  tokenPairs : AList fun _ : PairId => TokenPair
  erc20Map : AList fun _ : Address => PairId
  denomMap : AList fun _ : Denom => PairId

structure DenomUnit where
  denom : Denom
  exponent : ℕ
deriving DecidableEq, Repr

/-- `banktypes.Metadata`; aliases are never set here. -/
structure Metadata where
  description : String
  base : Denom
  denomUnits : List DenomUnit
  name : String
  symbol : String
  display : String
deriving DecidableEq, Repr

structure ERC20Data where
  name : String
  symbol : String
  decimals : ℕ
deriving DecidableEq, Repr

def errTokenPairNotFound : RegisteredError := ⟨"erc20", 4, "token pair not found"⟩
def errTokenPairAlreadyExists : RegisteredError := ⟨"erc20", 5, "token pair already exists"⟩
def errInternalTokenPair : RegisteredError := ⟨"erc20", 3, "internal ethereum token mapping error"⟩
def errEVMDenom : RegisteredError := ⟨"erc20", 11, "EVM denomination registration"⟩
def errVMExecution : RegisteredError := ⟨"evm", 15, "evm transaction execution failed"⟩

/-- The balances and supplies of all contracts. -/
structure Tokens where
  balanceOf : Address → Address → ℕ
  totalSupply : Address → ℕ

/-- A call of a contract's method. -/
inductive TokenCall where
  | mint (recipient : Address) (amount : ℕ)
  | burn (amount : ℕ)
  | transfer (recipient : Address) (amount : ℕ)
deriving DecidableEq, Repr

namespace Tokens

def setBalance (tokens : Tokens) (contract account : Address) (amount : ℕ) : Tokens :=
  { tokens with
    balanceOf := fun c a => if c = contract ∧ a = account then amount else tokens.balanceOf c a }

def setSupply (tokens : Tokens) (contract : Address) (amount : ℕ) : Tokens :=
  { tokens with totalSupply := fun c => if c = contract then amount else tokens.totalSupply c }

def reverted (reason : String) : Fault := .err errVMExecution s!"execution reverted: ERC20: {reason}"

def debit (tokens : Tokens) (contract account : Address) (amount : ℕ) : Except Fault Tokens := do
  require (account ≠ 0) (reverted "from the zero address")
  require (amount ≤ tokens.balanceOf contract account) (reverted "amount exceeds balance")
  pure (tokens.setBalance contract account (tokens.balanceOf contract account - amount))

def credit (tokens : Tokens) (contract account : Address) (amount : ℕ) : Except Fault Tokens := do
  require (account ≠ 0) (reverted "to the zero address")
  pure (tokens.setBalance contract account (tokens.balanceOf contract account + amount))

/-- A contract that does what the standard says. -/
def call (tokens : Tokens) (contract caller : Address) : TokenCall → Except Fault Tokens
  | .mint recipient amount => do
    let tokens ← tokens.credit contract recipient amount
    pure (tokens.setSupply contract (tokens.totalSupply contract + amount))
  | .burn amount => do
    let tokens ← tokens.debit contract caller amount
    pure (tokens.setSupply contract (tokens.totalSupply contract - amount))
  | .transfer recipient amount => do
    let tokens ← tokens.debit contract caller amount
    tokens.credit contract recipient amount

/-- A new contract without any tokens. -/
def deploy (tokens : Tokens) (contract : Address) : Tokens where
  balanceOf := fun c a => if c = contract then 0 else tokens.balanceOf c a
  totalSupply := fun c => if c = contract then 0 else tokens.totalSupply c

end Tokens

/-- The state of the bank with the metadata of its denominations, of the module and of all contracts. -/
structure State where
  bank : Bank
  denomMetadata : AList fun _ : Denom => Metadata
  store : Store
  tokens : Tokens
  /-- how many contracts the module has deployed -/
  deployments : ℕ

/-- What is not in this repository. -/
structure World where
  /-- `crypto.CreateAddress` of the module and its next nonce -/
  deployed : ℕ → Address
  /-- a call to a contract that is not registered: contract, caller and method -/
  foreign : Address → Address → TokenCall → Tokens → Except Fault Tokens
  /-- `QueryERC20` -/
  erc20Data : Address → Except Fault ERC20Data
  /-- `Metadata.Validate` of the bank -/
  validateMetadata : Metadata → Except Fault Unit
  /-- `Address.String`, with the checksum in its capitals -/
  hex : Address → String
  /-- the ABI of the contracts -/
  eventByID : BitVec 256 → Option String
  unpack : String → List UInt8 → Option (List ℤ)

end Rotofury.Model.Erc20
