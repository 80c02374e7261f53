import Rotofury.Model.Oracle.MsgServer
import Rotofury.ToMathlib.AListIndex

/-! # Queries and genesis of the oracle

All rates, votes, prevotes and targets are queried in the order of their keys, so such a query is answered with the table as
a map. The genesis state has the parameters and five of the seven tables: targets and vote targets are not part of it.
-/

namespace Rotofury.Model.Oracle

open Model.Sdk Except

inductive Query where
  | params
  | exchangeRate (denom : Denom)
  | exchangeRates
  | actives
  | voteTargets
  | targets
  | feederDelegation (validator : ValAddress)
  | missCounter (validator : ValAddress)
  | aggregatePrevote (validator : ValAddress)
  | aggregatePrevotes
  | aggregateVote (validator : ValAddress)
  | aggregateVotes

inductive Answer where
  | params (params : Params)
  | exchangeRate (rate : Dec)
  | exchangeRates (rates : Finmap fun _ : Denom => Dec)
  | actives (denoms : Finset Denom)
  | voteTargets (denoms : Finmap fun _ : Denom => Unit)
  | targets (denoms : Finmap fun _ : Denom => Unit)
  | feederDelegation (feeder : Address)
  | missCounter (misses : ℕ)
  | aggregatePrevote (prevote : AggregateExchangeRatePrevote)
  | aggregatePrevotes (prevotes : Finmap fun _ : ValAddress => AggregateExchangeRatePrevote)
  | aggregateVote (vote : List ExchangeRateTuple)
  | aggregateVotes (votes : Finmap fun _ : ValAddress => List ExchangeRateTuple)

namespace Chain

def getExchangeRate (chain : Chain) (denom : Denom) : Except Fault Dec :=
  match chain.state.store.exchangeRates.lookup denom with
  | some rate => .ok rate
  | none => .error (.err errUnknownDenom denom)

/-- By default, the counter is zero. -/
def getMissCounter (chain : Chain) (operator : ValAddress) : ℕ :=
  (chain.state.store.missCounters.lookup operator).getD 0

def getAggregateExchangeRatePrevote (codec : Codec) (chain : Chain) (voter : ValAddress) :
    Except Fault AggregateExchangeRatePrevote :=
  match chain.state.store.prevotes.lookup voter with
  | some prevote => .ok prevote
  | none => .error (.err errNoAggregatePrevote (codec.valText voter))

def getAggregateExchangeRateVote (codec : Codec) (chain : Chain) (voter : ValAddress) :
    Except Fault (List ExchangeRateTuple) :=
  match chain.state.store.votes.lookup voter with
  | some vote => .ok vote
  | none => .error (.err errNoAggregateVote (codec.valText voter))

def answer (codec : Codec) (params : Params) (chain : Chain) : Query → Except Fault Answer
  | .params => .ok (.params params)
  | .exchangeRate denom => do
    require (denom ≠ "") (.err ⟨"rpc", 3, "InvalidArgument"⟩ "empty denom")
    .exchangeRate <$> chain.getExchangeRate denom
  | .exchangeRates => do
    let rates := chain.state.store.exchangeRates.toFinmap
    -- a negative rate does not make a coin
    require (∀ denom ∈ rates.keys, ∀ rate ∈ rates.lookup denom, ¬ rate.isNegative)
      (.panic "negative decimal coin amount")
    pure (.exchangeRates rates)
  | .actives => .ok (.actives chain.state.store.exchangeRates.toFinmap.keys)
  | .voteTargets => .ok (.voteTargets chain.state.store.voteTargets.toFinmap)
  | .targets => .ok (.targets chain.targets.toFinmap)
  | .feederDelegation validator => .ok (.feederDelegation (chain.getFeederDelegation validator))
  | .missCounter validator => .ok (.missCounter (chain.getMissCounter validator))
  | .aggregatePrevote validator => .aggregatePrevote <$> chain.getAggregateExchangeRatePrevote codec validator
  | .aggregatePrevotes => .ok (.aggregatePrevotes chain.state.store.prevotes.toFinmap)
  | .aggregateVote validator => .aggregateVote <$> chain.getAggregateExchangeRateVote codec validator
  | .aggregateVotes => .ok (.aggregateVotes chain.state.store.votes.toFinmap)

end Chain

structure GenesisState where
  params : Params
  feederDelegations : List (ValAddress × Address)
  exchangeRates : List (Denom × Dec)
  missCounters : List (ValAddress × ℕ)
  aggregateExchangeRatePrevotes : List (ValAddress × AggregateExchangeRatePrevote)
  aggregateExchangeRateVotes : List (ValAddress × List ExchangeRateTuple)

def exportGenesis (params : Params) (chain : Chain) : GenesisState where
  params := params
  feederDelegations := chain.feederDelegations.pairs
  exchangeRates := chain.state.store.exchangeRates.pairs
  missCounters := chain.state.store.missCounters.pairs
  aggregateExchangeRatePrevotes := chain.state.store.prevotes.pairs
  aggregateExchangeRateVotes := chain.state.store.votes.pairs

/-- Started over a bank and at a height. -/
def initGenesis (genesis : GenesisState) (bank : Bank) (height : ℕ) : Chain where
  state := {
    store := {
      exchangeRates := .ofPairs genesis.exchangeRates
      prevotes := .ofPairs genesis.aggregateExchangeRatePrevotes
      votes := .ofPairs genesis.aggregateExchangeRateVotes
      voteTargets := ∅
      missCounters := .ofPairs genesis.missCounters }
    bank := bank }
  feederDelegations := .ofPairs genesis.feederDelegations
  targets := ∅
  height := height

end Rotofury.Model.Oracle
