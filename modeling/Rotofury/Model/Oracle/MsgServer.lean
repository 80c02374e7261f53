import Rotofury.Model.Oracle.EndBlock
import Rotofury.Model.Sdk.DecText

/-! # Prevotes and votes

A validator commits to its exchange rates with the hash of a salt, the rates as a text and its own address, and reveals
salt and rates in the next vote period. A revealed vote takes the place of the prevote. Either is sent by the validator
or by the feeder it has delegated to. Addresses are those the messages name; what a failed `hex.DecodeString` says, the
texts of addresses and the truncated SHA-256 of a text are parameters.
-/

namespace Rotofury.Model.Oracle

open Model.Sdk Except
open Model.Maker (microUSMDenom)

/-- What is not in this repository. -/
structure Codec where
  /-- `ValAddress.String` -/
  valText : ValAddress → String
  /-- `AccAddress.String` -/
  accText : Address → String
  /-- `tmhash.NewTruncated` over the bytes of a text -/
  digest : String → List UInt8
  hexError : String → String
deriving Inhabited

def errNoVotingPermission : RegisteredError := ⟨"oracle", 5, "unauthorized voter"⟩
def errInvalidHash : RegisteredError := ⟨"oracle", 6, "invalid hash"⟩
def errVerificationFailed : RegisteredError := ⟨"oracle", 8, "hash verification failed"⟩
def errRevealPeriodMissMatch : RegisteredError :=
  ⟨"oracle", 9, "reveal period of submitted vote do not match with registered prevote"⟩
def errNoAggregatePrevote : RegisteredError := ⟨"oracle", 11, "no aggregate prevote"⟩
def errNoAggregateVote : RegisteredError := ⟨"oracle", 12, "no aggregate vote"⟩
def errUnknownDenom : RegisteredError := ⟨"oracle", 14, "unknown denom"⟩
def errExistingTarget : RegisteredError := ⟨"oracle", 15, "existing denom"⟩
def errNoValidatorFound : RegisteredError := ⟨"staking", 3, "validator does not exist"⟩

/-! ## Hashes as texts -/

def hexDigit (value : ℕ) : Char := "0123456789abcdef".toList.getD value '0'

/-- `hex.EncodeToString` -/
def encodeToString (bytes : List UInt8) : String :=
  String.ofList (bytes.flatMap fun byte => [hexDigit (byte.toNat / 16), hexDigit (byte.toNat % 16)])

def hexDigitValue (char : Char) : Option ℕ :=
  if '0' ≤ char ∧ char ≤ '9' then some (char.toNat - '0'.toNat)
  else if 'a' ≤ char ∧ char ≤ 'f' then some (char.toNat - 'a'.toNat + 10)
  else if 'A' ≤ char ∧ char ≤ 'F' then some (char.toNat - 'A'.toNat + 10)
  else none

/-- `hex.DecodeString` -/
def decodeString : List Char → Option (List UInt8)
  | [] => some []
  | [_] => none
  | high :: low :: rest => do
    let high ← hexDigitValue high
    let low ← hexDigitValue low
    let bytes ← decodeString rest
    pure (UInt8.ofNat (high * 16 + low) :: bytes)

/-- `GetAggregateVoteHash`, as the text it is compared as -/
def getAggregateVoteHash (codec : Codec) (salt exchangeRates : String) (voter : ValAddress) : String :=
  encodeToString (codec.digest s!"{salt};{exchangeRates};{codec.valText voter}")

/-! ## Exchange rates as a text -/

/-- One tuple; the amount is read with the space around it. -/
def parseTuple (tupleStr : List Char) : Except String ExchangeRateTuple :=
  match (trimSpace tupleStr).splitOn ':' with
  | [left, right] => do
    let denom := String.ofList (trimSpace left)
    require (validateDenom denom = true) s!"invalid denom: {denom}"
    match Dec.ofText right with
    | .ok amount => .ok ⟨denom, amount⟩
    | .error reason => .error s!"failed to parse decimal amount '{String.ofList (trimSpace right)}': {reason}"
  | _ => .error s!"invalid exchange rate notation: {String.ofList tupleStr}"

def addTuple (tuples : List ExchangeRateTuple) (tupleStr : List Char) : Except String (List ExchangeRateTuple) := do
  let tuple ← parseTuple tupleStr
  require (∀ other ∈ tuples, other.denom ≠ tuple.denom) s!"duplicated denom {tuple.denom}"
  pure (tuples ++ [tuple])

def parseExchangeRateTuples (tuplesStr : String) : Except String (List ExchangeRateTuple) :=
  if trimSpace tuplesStr.toList = [] then .ok [] else ((trimSpace tuplesStr.toList).splitOn ',').foldlM addTuple []

/-! ## Messages -/

/-- All tables of the module, with the bank, at a height. -/
structure Chain where
  state : State
  feederDelegations : AList fun _ : ValAddress => Address
  targets : VoteTargets
  height : ℕ

inductive Msg where
  | aggregateExchangeRatePrevote (hash : String) (feeder : Address) (validator : ValAddress)
  | aggregateExchangeRateVote (salt exchangeRates : String) (feeder : Address) (validator : ValAddress)
  | delegateFeedConsent (operator : ValAddress) (delegate : Address)
deriving DecidableEq, Repr

namespace Chain

/-- By default, the right is delegated to the validator itself. -/
def getFeederDelegation (chain : Chain) (operator : ValAddress) : Address :=
  (chain.feederDelegations.lookup operator).getD operator

def validateFeeder (codec : Codec) (staking : Staking) (chain : Chain) (feederAddr : Address) (validatorAddr : ValAddress) :
    Except Fault Unit := do
  require (feederAddr = validatorAddr ∨ chain.getFeederDelegation validatorAddr = feederAddr)
    (.err errNoVotingPermission (codec.accText feederAddr))
  require ((staking.validator validatorAddr).any (·.bonded) = true)
    (.err errNoValidatorFound s!"validator {codec.valText validatorAddr} is not in active set")

def setPrevote (chain : Chain) (voter : ValAddress) (prevote : AggregateExchangeRatePrevote) : Chain :=
  { chain with state := { chain.state with store := { chain.state.store with
      prevotes := chain.state.store.prevotes.insert voter prevote } } }

/-- The vote is set and the prevote deleted. -/
def movePrevote (chain : Chain) (voter : ValAddress) (tuples : List ExchangeRateTuple) : Chain :=
  { chain with state := { chain.state with store := { chain.state.store with
      votes := chain.state.store.votes.insert voter tuples
      prevotes := chain.state.store.prevotes.erase voter } } }

def aggregateExchangeRatePrevote (codec : Codec) (staking : Staking) (chain : Chain) (hash : String) (feeder : Address)
    (validator : ValAddress) : Except Fault Chain := do
  chain.validateFeeder codec staking feeder validator
  match decodeString hash.toList with
  | none => .error (.err errInvalidHash (codec.hexError hash))
  | some voteHash => pure (chain.setPrevote validator ⟨encodeToString voteHash, chain.height⟩)

/-- The text of the rates, once it is known to be for the right period. -/
def parseRates (exchangeRates : String) : Except Fault (List ExchangeRateTuple) :=
  match parseExchangeRateTuples exchangeRates with
  | .ok tuples => .ok tuples
  | .error reason => .error (.err errInvalidCoins reason)

def reveal (codec : Codec) (params : Params) (chain : Chain) (aggregatePrevote : AggregateExchangeRatePrevote)
    (salt exchangeRates : String) (validator : ValAddress) : Except Fault Chain := do
  require (params.votePeriod ≠ 0) (.panic "runtime error: integer divide by zero")
  require (chain.height / params.votePeriod - aggregatePrevote.submitBlock / params.votePeriod = 1)
    (.err errRevealPeriodMissMatch "")
  let exchangeRateTuples ← parseRates exchangeRates
  exchangeRateTuples.forM fun tuple =>
    require ((chain.state.store.voteTargets.lookup tuple.denom).isSome = true) (.err errUnknownDenom tuple.denom)
  let hash := getAggregateVoteHash codec salt exchangeRates validator
  require (aggregatePrevote.hash = hash)
    (.err errVerificationFailed s!"must be given {aggregatePrevote.hash} not {hash}")
  pure (chain.movePrevote validator exchangeRateTuples)

def aggregateExchangeRateVote (codec : Codec) (staking : Staking) (params : Params) (chain : Chain)
    (salt exchangeRates : String) (feeder : Address) (validator : ValAddress) : Except Fault Chain := do
  chain.validateFeeder codec staking feeder validator
  match chain.state.store.prevotes.lookup validator with
  | none => .error (.err errNoAggregatePrevote (codec.valText validator))
  | some aggregatePrevote => chain.reveal codec params aggregatePrevote salt exchangeRates validator

def delegateFeedConsent (codec : Codec) (staking : Staking) (chain : Chain) (operator : ValAddress) (delegate : Address) :
    Except Fault Chain := do
  require ((staking.validator operator).isSome = true) (.err errNoValidatorFound (codec.valText operator))
  pure { chain with feederDelegations := chain.feederDelegations.insert operator delegate }

def handle (codec : Codec) (staking : Staking) (params : Params) (chain : Chain) : Msg → Except Fault Chain
  | .aggregateExchangeRatePrevote hash feeder validator =>
    chain.aggregateExchangeRatePrevote codec staking hash feeder validator
  | .aggregateExchangeRateVote salt exchangeRates feeder validator =>
    chain.aggregateExchangeRateVote codec staking params salt exchangeRates feeder validator
  | .delegateFeedConsent operator delegate => chain.delegateFeedConsent codec staking operator delegate

end Chain

/-! ## Proposals -/

/-- `TargetSource` of a target whose source is specified. -/
inductive TargetSource where
  | validators
  | dex
  | interchainDex
  | interchainOracle
deriving DecidableEq, Repr

/-- Only targets with prices from validators are voted for. -/
def Chain.handleRegisterTargetProposal (chain : Chain) (denom : Denom) (source : TargetSource) : Except Fault Chain := do
  require ((chain.targets.lookup denom).isNone = true) (.err errExistingTarget s!"existing target denom '{denom}'")
  require (chain.state.bank.hasSupply denom ∨ denom = microUSMDenom)
    (.err errInvalidCoins s!"target denom '{denom}' cannot have a supply of 0")
  let registered := { chain with targets := chain.targets.insert denom () }
  match source with
  | .validators =>
    pure { registered with state.store.voteTargets := chain.state.store.voteTargets.insert denom () }
  | _ => pure registered

/-! ## Runs -/

/-- What can happen to the module: messages, the end of a block, with what each reads of other modules, and changes from
outside: of the targets by proposals, and of the bank. -/
inductive Event where
  | message (staking : Staking) (params : Params) (msg : Msg)
  | endBlock (staking : Staking) (params : Params) (orders : MapOrders) (floatSqrt : Dec → Dec)
  | outside (voteTargets targets : VoteTargets) (bank : Bank)

/-- What the end of a block reads. -/
def Chain.ctx (chain : Chain) (staking : Staking) (params : Params) (orders : MapOrders) (floatSqrt : Dec → Dec) : Ctx :=
  ⟨chain.height, params, staking, orders, floatSqrt⟩

/-- The next block starts when one has ended. -/
def Chain.step (codec : Codec) (chain : Chain) : Event → Except Fault Chain
  | .message staking params msg => chain.handle codec staking params msg
  | .endBlock staking params orders floatSqrt => do
    let ended ← endBlocker (chain.ctx staking params orders floatSqrt) chain.state
    pure { chain with state := ended.state, height := chain.height + 1 }
  | .outside voteTargets targets bank =>
    pure { chain with
      state := ⟨{ chain.state.store with voteTargets := voteTargets }, bank⟩
      targets := targets }

end Rotofury.Model.Oracle
