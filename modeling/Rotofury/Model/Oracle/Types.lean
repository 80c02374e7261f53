import Rotofury.Model.Maker.Proposal

/-! # State of the oracle module

The store holds the published exchange rates, the votes and prevotes of the current period, the vote targets and the
miss counters. A vote lies under its voter. What the module reads of staking is part of the context of a call, as are
the order in which a Go map is visited, which is any order, and the floating-point square root.
-/

namespace Rotofury.Model.Oracle

open Model.Sdk Except
open Model.Maker (plainError)

/-! ## Ballots

A ballot holds the votes of one denomination, sorted by rate. A vote with a rate that is not positive is an abstention
and has no power. Powers are natural numbers here, and so are their sums; the functions on the 64-bit sums of the source
are given beside them, and agree with them as long as the sums fit. Sorting is not stable in the source, but votes of equal
rates are interchangeable in everything a ballot is used for.
-/

/-- Validator operator addresses. -/
abbrev ValAddress := Address

structure VoteForTally where
  denom : Denom
  exchangeRate : Dec
  voter : ValAddress
  power : ℕ
deriving DecidableEq, Repr

/-- `ExchangeRateBallot` -/
abbrev Ballot := List VoteForTally

namespace Ballot

/-- The positive rates of a ballot by voter; of two votes of one voter the later counts. -/
def toMap (ballot : Ballot) : AList fun _ : ValAddress => Dec :=
  ballot.foldl (fun rates vote =>
    if vote.exchangeRate.isPositive then rates.insert vote.voter vote.exchangeRate else rates) ∅

/-- One vote as a cross rate: the voter's reference rate over the voted rate. Without a reference rate the vote
becomes an abstention. -/
def crossVote (bases : AList fun _ : ValAddress => Dec) (vote : VoteForTally) : Except Fault VoteForTally :=
  match bases.lookup vote.voter with
  | some exchangeRateRM =>
    if vote.exchangeRate.isPositive then do
      pure { vote with exchangeRate := ← exchangeRateRM.quo vote.exchangeRate }
    else pure { vote with exchangeRate := Dec.zero, power := 0 }
  | none => pure { vote with exchangeRate := Dec.zero, power := 0 }

def toCrossRate (ballot : Ballot) (bases : AList fun _ : ValAddress => Dec) : Except Fault Ballot :=
  ballot.mapM (crossVote bases)

/-- `sort.Sort`: by rate. -/
def sort (ballot : Ballot) : Ballot :=
  ballot.insertionSort fun left right => left.exchangeRate ≤ right.exchangeRate

def toCrossRateWithSort (ballot : Ballot) (bases : AList fun _ : ValAddress => Dec) : Except Fault Ballot := do
  pure (sort (← toCrossRate ballot bases))

/-- `Power` -/
def power (ballot : Ballot) : ℕ := (ballot.map VoteForTally.power).sum

/-- The rate of the first vote at which the powers so far reach the given half. -/
def medianFrom (half : ℕ) : ℕ → Ballot → Dec
  | _, [] => Dec.zero
  | pivot, vote :: rest =>
    if half ≤ pivot + vote.power then vote.exchangeRate else medianFrom half (pivot + vote.power) rest

def weightedMedian (ballot : Ballot) : Dec := medianFrom (power ballot / 2) 0 ballot

/-- `Power`, as the signed 64-bit number it is. -/
def powerInt64 (ballot : Ballot) : ℤ := Int.bmod (power ballot) (2 ^ 64)

def medianFromInt64 (half : ℤ) : ℤ → Ballot → Dec
  | _, [] => Dec.zero
  | pivot, vote :: rest =>
    let pivot := Int.bmod (pivot + vote.power) (2 ^ 64)
    if half ≤ pivot then vote.exchangeRate else medianFromInt64 half pivot rest

/-- `WeightedMedian` on 64-bit sums. -/
def weightedMedianInt64 (ballot : Ballot) : Dec := medianFromInt64 ((powerInt64 ballot).tdiv 2) 0 ballot

/-- `sort.IsSorted` -/
def isSorted (ballot : Ballot) : Prop :=
  ballot.IsChain fun left right => ¬ right.exchangeRate < left.exchangeRate

instance (ballot : Ballot) : Decidable ballot.isSorted := inferInstanceAs (Decidable (List.IsChain _ _))

def weightedMedianWithAssertion (ballot : Ballot) : Except Fault Dec := do
  Except.require ballot.isSorted (.panic "ballot must be sorted")
  pure ballot.weightedMedian

/-- `StandardDeviation`; a sum that is too large is recovered from, and the deviation is zero then. The square root is taken
in floating point and printed with six decimals; it stands here as a function of the variance. -/
def standardDeviation (floatSqrt : Dec → Dec) (ballot : Ballot) (median : Dec) : Dec :=
  let sum := ballot.foldl (fun sum vote =>
    sum + (vote.exchangeRate - median).mul (vote.exchangeRate - median)) Dec.zero
  if ballot.length = 0 ∨ ¬ sum.fits then Dec.zero
  else
    -- `QuoInt64` by the length, which is not zero
    floatSqrt ⟨sum.raw.tdiv ballot.length⟩

end Ballot

structure Params where
  votePeriod : ℕ
  voteThreshold : Dec
  rewardBand : Dec
  rewardDistributionWindow : ℕ
  slashFraction : Dec
  slashWindow : ℕ
  minValidPerWindow : Dec
deriving DecidableEq, Repr

namespace Params

def requireShare (share : Dec) (name : String) : Except Fault Unit :=
  require (¬ (Dec.one < share ∨ share.isNegative)) (plainError s!"oracle parameter {name} must be between [0, 1]")

def requireWindow (window votePeriod : ℕ) (name : String) : Except Fault Unit :=
  require (¬ window < votePeriod)
    (plainError s!"oracle parameter {name} must be greater than or equal with VotePeriod")

/-- `Params.Validate` -/
def validate (params : Params) : Except Fault Unit := do
  require (params.votePeriod ≠ 0)
    (plainError s!"oracle parameter VotePeriod must be > 0, is {params.votePeriod}")
  require (¬ params.voteThreshold ≤ Dec.withPrec 33 2)
    (plainError "oracle parameter VoteThreshold must be greater than 33 percent")
  requireShare params.rewardBand "RewardBand"
  requireWindow params.rewardDistributionWindow params.votePeriod "RewardDistributionWindow"
  requireShare params.slashFraction "SlashFraction"
  requireWindow params.slashWindow params.votePeriod "SlashWindow"
  requireShare params.minValidPerWindow "MinValidPerWindow"

/-! The checks of a parameter change; each sees its own parameter only. -/

def requirePositive (value : ℕ) (name : String) : Except Fault Unit :=
  require (value ≠ 0) (plainError s!"{name} must be positive: {value}")

def requireUnit (share : Dec) (name : String) : Except Fault Unit := do
  require (¬ share.isNegative) (plainError s!"{name} must be positive: {share}")
  require (¬ Dec.one < share) (plainError s!"{name} is too large: {share}")

def validateVotePeriod (params : Params) : Except Fault Unit := requirePositive params.votePeriod "vote period"

def validateVoteThreshold (params : Params) : Except Fault Unit := do
  require (¬ params.voteThreshold < Dec.withPrec 33 2)
    (plainError s!"vote threshold must be bigger than 33%: {params.voteThreshold}")
  require (¬ Dec.one < params.voteThreshold) (plainError s!"vote threshold too large: {params.voteThreshold}")

def validateRewardBand (params : Params) : Except Fault Unit := requireUnit params.rewardBand "reward band"

def validateRewardDistributionWindow (params : Params) : Except Fault Unit :=
  requirePositive params.rewardDistributionWindow "reward distribution window"

def validateSlashFraction (params : Params) : Except Fault Unit := requireUnit params.slashFraction "slash fraction"

def validateSlashWindow (params : Params) : Except Fault Unit := requirePositive params.slashWindow "slash window"

def validateMinValidPerWindow (params : Params) : Except Fault Unit :=
  requireUnit params.minValidPerWindow "min valid per window"

/-- `ParamSetPairs`: all parameters pass their own checks. -/
def validateEach (params : Params) : Except Fault Unit := do
  params.validateVotePeriod
  params.validateVoteThreshold
  params.validateRewardBand
  params.validateRewardDistributionWindow
  params.validateSlashFraction
  params.validateSlashWindow
  params.validateMinValidPerWindow

end Params

def defaultParams : Params where
  votePeriod := 10
  voteThreshold := Dec.withPrec 50 2
  rewardBand := Dec.withPrec 2 2
  rewardDistributionWindow := 10 * 60 * 24 * 365
  slashFraction := Dec.withPrec 1 4
  slashWindow := 10 * 60 * 24 * 7
  minValidPerWindow := Dec.withPrec 5 2

structure ExchangeRateTuple where
  denom : Denom
  exchangeRate : Dec
deriving DecidableEq, Repr

structure AggregateExchangeRatePrevote where
  hash : String
  submitBlock : ℕ
deriving DecidableEq, Repr

/-- A validator's claim to the rewards of a period. The weight is that before it wraps to 64 bits; it is read as a
signed 64-bit number where rewards are shared out. -/
structure Claim where
  power : ℕ
  weight : ℕ
  winCount : ℕ
  recipient : ValAddress
deriving DecidableEq, Repr

abbrev Claims := AList fun _ : ValAddress => Claim
abbrev VoteMap := AList fun _ : Denom => Ballot
abbrev VoteTargets := AList fun _ : Denom => Unit

/-- The module's key-value store. -/
structure Store where
  exchangeRates : AList fun _ : Denom => Dec
  prevotes : AList fun _ : ValAddress => AggregateExchangeRatePrevote
  votes : AList fun _ : ValAddress => List ExchangeRateTuple
  voteTargets : VoteTargets
  missCounters : AList fun _ : ValAddress => ℕ

/-- The module's state together with the bank it shares with the rest of the chain. -/
structure State where
  store : Store
  bank : Bank

/-- A validator as the staking module shows it; the consensus power of one that is not bonded is zero. -/
structure Validator where
  operator : ValAddress
  consensusPower : ℕ
  bonded : Bool
  jailed : Bool
deriving DecidableEq, Repr

/-- What the oracle reads of staking. -/
structure Staking where
  /-- `ValidatorsPowerStoreIterator`, with the validators it leads to -/
  byPower : List Validator
  maxValidators : ℕ
  validator : ValAddress → Option Validator
  /-- `TokensToConsensusPower` of the bonded tokens -/
  totalBondedPower : ℕ
  /-- the validator of an operator once others have been slashed and jailed, which can jail or remove it as well -/
  afterSlashing : List ValAddress → ValAddress → Option Validator := fun _ => validator

/-- An order in which a Go map is visited. -/
structure MapOrder (α : Type) where
  visit : List α → List α
  perm : ∀ entries, (visit entries).Perm entries

/-- The order in which a map's own list has its entries. -/
def MapOrder.listed (α : Type) : MapOrder α := ⟨id, fun _ => .refl _⟩

/-- One order for each loop over a map whose body has effects. -/
structure MapOrders where
  pick : MapOrder (Sigma fun _ : Denom => Ballot)
  tally : MapOrder (Sigma fun _ : Denom => Ballot)
  misses : MapOrder (Sigma fun _ : ValAddress => Claim)
  rewardDenoms : MapOrder Denom
  winners : MapOrder (Sigma fun _ : ValAddress => Claim)

/-- What a call reads besides the state. -/
structure Ctx where
  blockHeight : ℕ
  params : Params
  staking : Staking
  orders : MapOrders
  floatSqrt : Dec → Dec

end Rotofury.Model.Oracle
