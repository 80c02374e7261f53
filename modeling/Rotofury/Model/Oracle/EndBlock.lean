import Rotofury.Model.Ve.Types
import Rotofury.Model.Oracle.Types

/-! # The end of a block

At the last block of a vote period the votes are tallied, misses are counted, rewards are handed out and the ballots are
cleared; at the last block of a slash window validators with too many misses are slashed and all counters reset. The
calls to staking and distribution are part of the result.
-/

namespace Rotofury.Model.Oracle

open Model.Sdk Model.App Except
open Model.Ve (toInt64)

/-! ## Tallying the votes

At the last block of a vote period all exchange rates are cleared. The votes of the active validators are gathered into
one ballot per denomination; ballots of other denominations than the vote targets and ballots that do not pass the
threshold are dropped. The ballot with the most power is the reference. Its weighted median is its rate; every other
ballot is turned into cross rates against the reference, and the rate is the reference rate over the median cross rate.
-/

/-- A claim for each of the first `maxValidators` bonded validators. -/
def validatorClaims (staking : Staking) : Claims :=
  ((staking.byPower.filter (·.bonded)).take staking.maxValidators).foldl (fun claims validator =>
    claims.insert validator.operator ⟨validator.consensusPower, 0, 0, validator.operator⟩) ∅

/-- Append one tuple to the ballot of its denomination; an abstention has no power. -/
def organizeTuple (voter : ValAddress) (power : ℕ) (votes : VoteMap) (tuple : ExchangeRateTuple) : VoteMap :=
  votes.insert tuple.denom ((votes.lookup tuple.denom).getD [] ++
    [⟨tuple.denom, tuple.exchangeRate, voter, if tuple.exchangeRate.isPositive then power else 0⟩])

/-- Only votes with a claim count. -/
def organizeVote (claims : Claims) (votes : VoteMap) (vote : Sigma fun _ : ValAddress => List ExchangeRateTuple) : VoteMap :=
  match claims.lookup vote.1 with
  | some claim => vote.2.foldl (organizeTuple vote.1 claim.power) votes
  | none => votes

def organizeBallotByDenom (store : Store) (claims : Claims) : VoteMap :=
  let votes := store.votes.entries.foldl (organizeVote claims) ∅
  votes.entries.foldl (fun sorted entry => sorted.insert entry.1 (Ballot.sort entry.2)) ∅

/-- Credit a vote close to the median, and every abstention. -/
def creditVote (weightedMedian rewardSpread : Dec) (claims : Claims) (vote : VoteForTally) : Claims :=
  if (weightedMedian - rewardSpread ≤ vote.exchangeRate ∧ vote.exchangeRate ≤ weightedMedian + rewardSpread) ∨
      ¬ vote.exchangeRate.isPositive then
    match claims.lookup vote.voter with
    | some claim =>
      claims.insert vote.voter { claim with weight := claim.weight + vote.power, winCount := claim.winCount + 1 }
    -- does not occur: ballots hold the votes of claimants only
    | none => claims
  else claims

def tally (ctx : Ctx) (ballot : Ballot) (claims : Claims) : Except Fault (Dec × Claims) := do
  let weightedMedian ← ballot.weightedMedianWithAssertion
  let standardDeviation := ballot.standardDeviation ctx.floatSqrt weightedMedian
  let rewardSpread := weightedMedian.mul ⟨ctx.params.rewardBand.raw.tdiv 2⟩
  let rewardSpread := if rewardSpread < standardDeviation then standardDeviation else rewardSpread
  pure (weightedMedian, ballot.foldl (creditVote weightedMedian rewardSpread) claims)

def thresholdVotes (ctx : Ctx) : ℤ := (ctx.params.voteThreshold.mulInt ctx.staking.totalBondedPower).roundInt

def ballotIsPassing (ballot : Ballot) (thresholdVotes : ℤ) : Bool :=
  ballot.power ≠ 0 ∧ thresholdVotes ≤ ballot.power

/-- The variables of the loop over the ballots. -/
structure Picked where
  largestBallotPower : ℕ
  referenceGridb : Denom
  voteTargets : VoteTargets
  voteMap : VoteMap

/-- A ballot for no target is dropped; one that does not pass is dropped with its target. -/
def considerBallot (thresholdVotes : ℤ) (picked : Picked) (entry : Sigma fun _ : Denom => Ballot) : Picked :=
  if entry.1 ∉ picked.voteTargets then { picked with voteMap := picked.voteMap.erase entry.1 }
  else if ballotIsPassing entry.2 thresholdVotes = false then
    { picked with voteTargets := picked.voteTargets.erase entry.1, voteMap := picked.voteMap.erase entry.1 }
  else if picked.largestBallotPower < Ballot.power entry.2 ∨ picked.largestBallotPower = 0 then
    { picked with referenceGridb := entry.1, largestBallotPower := Ballot.power entry.2 }
  else if picked.largestBallotPower = Ballot.power entry.2 ∧ entry.1 < picked.referenceGridb then
    { picked with referenceGridb := entry.1 }
  else picked

def pickReferenceGridb (ctx : Ctx) (voteTargets : VoteTargets) (voteMap : VoteMap) : Picked :=
  (ctx.orders.pick.visit voteMap.entries).foldl (considerBallot (thresholdVotes ctx)) ⟨0, "", voteTargets, voteMap⟩

/-- What a tally changes: the rates and the claims. -/
structure Tallied where
  exchangeRates : AList fun _ : Denom => Dec
  claims : Claims

/-- The ballot as it is tallied: the reference as it is, any other one as cross rates. -/
def talliedBallot (referenceGridb : Denom) (voteMapRM : AList fun _ : ValAddress => Dec) (denom : Denom)
    (ballot : Ballot) : Except Fault Ballot :=
  if denom ≠ referenceGridb then ballot.toCrossRateWithSort voteMapRM else pure ballot

/-- The rate to publish; a cross rate of zero is not published. -/
def publishedRate (referenceGridb : Denom) (exchangeRateRM : Dec) (denom : Denom) (median : Dec) :
    Except Fault (Option Dec) :=
  if denom ≠ referenceGridb then
    if median.isZero then pure none else some <$> exchangeRateRM.quo median
  else pure (some median)

/-- `SetExchangeRate`, if there is one to set. -/
def setExchangeRate (rates : AList fun _ : Denom => Dec) (denom : Denom) : Option Dec → AList fun _ : Denom => Dec
  | some rate => rates.insert denom rate
  | none => rates

/-- The body of the loop over the ballots that are left. -/
def tallyBallot (ctx : Ctx) (referenceGridb : Denom) (voteMapRM : AList fun _ : ValAddress => Dec)
    (exchangeRateRM : Dec) (tallied : Tallied) (entry : Sigma fun _ : Denom => Ballot) : Except Fault Tallied := do
  let ballot ← talliedBallot referenceGridb voteMapRM entry.1 entry.2
  let (median, claims) ← tally ctx ballot tallied.claims
  let rate ← publishedRate referenceGridb exchangeRateRM entry.1 median
  pure ⟨setExchangeRate tallied.exchangeRates entry.1 rate, claims⟩

/-- The exchange rates of a period, with the claims and the targets that are left. -/
def tallyVotes (ctx : Ctx) (store : Store) : Except Fault (Tallied × VoteTargets) := do
  let claims := validatorClaims ctx.staking
  let picked := pickReferenceGridb ctx store.voteTargets (organizeBallotByDenom store claims)
  if picked.referenceGridb = "" then pure (⟨∅, claims⟩, picked.voteTargets)
  else do
    let ballotRM := (picked.voteMap.lookup picked.referenceGridb).getD []
    let exchangeRateRM ← ballotRM.weightedMedianWithAssertion
    let tallied ← (ctx.orders.tally.visit picked.voteMap.entries).foldlM
      (tallyBallot ctx picked.referenceGridb ballotRM.toMap exchangeRateRM) ⟨∅, claims⟩
    pure (tallied, picked.voteTargets)

/-- `IsPeriodLastBlock`; a period of zero blocks divides by zero. -/
def isPeriodLastBlock (height period : ℕ) : Except Fault Bool := do
  require (period ≠ 0) (.panic "runtime error: integer divide by zero")
  pure ((height + 1) % period == 0)

/-- One more miss for a validator that did not win or abstain on every target. -/
def countMiss (targets : ℕ) (counters : AList fun _ : ValAddress => ℕ) (entry : Sigma fun _ : ValAddress => Claim) :
    AList fun _ : ValAddress => ℕ :=
  if entry.2.winCount = targets then counters
  else counters.insert entry.2.recipient ((counters.lookup entry.2.recipient).getD 0 + 1)

/-- Delete all votes, and the prevotes that can no longer be revealed. -/
def clearBallots (ctx : Ctx) (store : Store) : Store :=
  { store with
    prevotes := store.prevotes.entries.foldl (fun prevotes entry =>
      if entry.2.submitBlock + ctx.params.votePeriod < ctx.blockHeight then prevotes.erase entry.1 else prevotes)
      store.prevotes
    votes := ∅ }

/-- `Coins.Add` of one coin to a sorted coin set. -/
def addToCoins : List Coin → Coin → List Coin
  | [], coin => [coin]
  | first :: rest, coin =>
    if first.denom = coin.denom then ⟨first.denom, first.amount + coin.amount⟩ :: rest
    else if coin.denom < first.denom then coin :: first :: rest
    else first :: addToCoins rest coin

/-- The reward of the period in one more denomination. A negative amount is none for a coin. -/
def addReward (bank : Bank) (distributionRatio : Dec) (rewards : List (Denom × Dec)) (denom : Denom) :
    Except Fault (List (Denom × Dec)) :=
  let rewardPool := bank.balance ModuleAccount.oracle.address denom
  if rewardPool = 0 then pure rewards
  else do
    let amount := (Dec.ofInt rewardPool).mul distributionRatio
    require (¬ amount.isNegative) (.panic s!"negative decimal coin amount: {amount}\n")
    pure (rewards ++ [(denom, amount)])

/-- The reward of the period in each denomination that the pool holds. -/
def periodRewards (bank : Bank) (distributionRatio : Dec) (rewardDenoms : List Denom) :
    Except Fault (List (Denom × Dec)) :=
  rewardDenoms.foldlM (addReward bank distributionRatio) []

/-- A share of the rewards, truncated to whole coins; coins of amount zero are dropped. -/
def rewardCoins (rewards : List (Denom × Dec)) (share : Dec) : List Coin :=
  (rewards.filterMap fun reward =>
    if (reward.2.mul share).truncateInt = 0 then none else some ⟨reward.1, (reward.2.mul share).truncateInt⟩).foldl
      addToCoins []

/-- The tokens allocated to validators, and their sum. -/
structure Distributed where
  allocations : List (ValAddress × List Coin)
  total : List Coin

/-- The part of one winner. Truncating a negative amount panics. A validator that no longer exists is skipped. -/
def rewardWinner (ctx : Ctx) (rewards : List (Denom × Dec)) (ballotPowerSum : ℤ) (distributed : Distributed)
    (winner : Sigma fun _ : ValAddress => Claim) : Except Fault Distributed := do
  let share ← (Dec.ofInt (toInt64 winner.2.weight)).quoInt ballotPowerSum
  require (∀ reward ∈ rewards, ¬ (reward.2.mul share).isNegative) (.panic "negative coin amount")
  let coins := rewardCoins rewards share
  if (ctx.staking.validator winner.2.recipient).isSome ∧ coins ≠ [] then
    pure ⟨distributed.allocations ++ [(winner.2.recipient, coins)], coins.foldl addToCoins distributed.total⟩
  else pure distributed

/-- A bank error in the transfer to the distribution module is a panic. -/
def sendToDistribution (bank : Bank) (coins : List Coin) : Except Fault Bank :=
  match bank.sendCoins ModuleAccount.oracle.address ModuleAccount.distribution.address coins with
  | .ok next => .ok next
  | .error _ => .error (.panic "failed to send coins to distribution module")

def rewardBallotWinners (ctx : Ctx) (bank : Bank) (voteTargets : VoteTargets) (claims : Claims) :
    Except Fault (Bank × List (ValAddress × List Coin)) := do
  -- a 64-bit sum of 64-bit weights, which is that of the weights as they are
  let ballotPowerSum := toInt64 (claims.entries.map fun entry => entry.2.weight).sum
  if ballotPowerSum = 0 then pure (bank, [])
  else do
    let distributionRatio ←
      (Dec.ofInt (toInt64 ctx.params.votePeriod)).quoInt (toInt64 ctx.params.rewardDistributionWindow)
    let rewards ← periodRewards bank distributionRatio (ctx.orders.rewardDenoms.visit voteTargets.keys)
    let distributed ← (ctx.orders.winners.visit claims.entries).foldlM (rewardWinner ctx rewards ballotPowerSum) ⟨[], []⟩
    let bank ← sendToDistribution bank distributed.total
    pure (bank, distributed.allocations)

/-- Whether an operator is slashed and jailed, after others have been. The difference to the misses is one of unsigned
numbers, read as a signed one. An operator without a validator is a nil dereference. -/
def isSlashed (ctx : Ctx) (votePeriodsPerWindow : ℤ) (slashed : List ValAddress) (operator : ValAddress)
    (missCounter : ℕ) : Except Fault Bool := do
  let validVoteRate ←
    (Dec.ofInt (Int.bmod (votePeriodsPerWindow - missCounter) (2 ^ 64))).quoInt votePeriodsPerWindow
  if validVoteRate < ctx.params.minValidPerWindow then do
    let validator ← deref (ctx.staking.afterSlashing slashed operator)
    pure (validator.bonded && !validator.jailed)
  else pure false

def slashOperator (ctx : Ctx) (votePeriodsPerWindow : ℤ) (slashed : List ValAddress)
    (entry : Sigma fun _ : ValAddress => ℕ) : Except Fault (List ValAddress) := do
  if ← isSlashed ctx votePeriodsPerWindow slashed entry.1 entry.2 then pure (slashed ++ [entry.1]) else pure slashed

/-- The counters in the order of their keys. -/
def iterateMissCounters (store : Store) : List (Sigma fun _ : ValAddress => ℕ) :=
  store.missCounters.entries.insertionSort fun left right => left.1 ≤ right.1

/-- The operators to slash, in order; all counters are reset. -/
def slashAndResetMissCounters (ctx : Ctx) (store : Store) : Except Fault (Store × List ValAddress) := do
  let votePeriodsPerWindow ←
    (← (Dec.ofInt (toInt64 ctx.params.slashWindow)).quoInt (toInt64 ctx.params.votePeriod)).truncateInt64
  let slashed ← (iterateMissCounters store).foldlM (slashOperator ctx votePeriodsPerWindow) []
  pure ({ store with missCounters := ∅ }, slashed)

/-- The state after the end of a block, and the calls made to distribution and staking. -/
structure BlockEnd where
  state : State
  allocations : List (ValAddress × List Coin)
  slashed : List ValAddress

/-- The part of a vote period's last block. -/
def endVotePeriod (ctx : Ctx) (state : State) : Except Fault (State × List (ValAddress × List Coin)) := do
  let (tallied, voteTargets) ← tallyVotes ctx state.store
  let missCounters := (ctx.orders.misses.visit tallied.claims.entries).foldl
    (countMiss voteTargets.entries.length) state.store.missCounters
  let (bank, allocations) ← rewardBallotWinners ctx state.bank voteTargets tallied.claims
  let store := { state.store with exchangeRates := tallied.exchangeRates, missCounters := missCounters }
  pure (⟨clearBallots ctx store, bank⟩, allocations)

/-- The part of a slash window's last block. -/
def endSlashWindow (ctx : Ctx) (state : State) : Except Fault (State × List ValAddress) := do
  let (store, slashed) ← slashAndResetMissCounters ctx state.store
  pure ({ state with store := store }, slashed)

def endBlocker (ctx : Ctx) (state : State) : Except Fault BlockEnd := do
  let periodEnds ← isPeriodLastBlock ctx.blockHeight ctx.params.votePeriod
  let (state, allocations) ← if periodEnds then endVotePeriod ctx state else pure (state, [])
  let windowEnds ← isPeriodLastBlock ctx.blockHeight ctx.params.slashWindow
  let (state, slashed) ← if windowEnds then endSlashWindow ctx state else pure (state, [])
  pure ⟨state, allocations, slashed⟩

end Rotofury.Model.Oracle
