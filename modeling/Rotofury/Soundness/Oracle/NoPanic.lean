import Rotofury.Model.Oracle.MsgServer
import Rotofury.Soundness.Oracle.Claims
import Rotofury.Soundness.Oracle.Payouts

/-! # When the end of a block does not panic

Each parameter is checked by itself when it is changed, so a window can become shorter than the vote period, or too long
for a signed 64-bit number; and slashing looks up validators that may be gone. The end of a block succeeds if the windows
fit and the validators with too many misses are still there.
-/

namespace Rotofury.Soundness.Oracle

open Model.Sdk Model.App Model.Oracle Except Machine
open Model.Ve (toInt64 toInt64_of_lt)

variable {params : Params} {ctx : Ctx} {store : Store} {state : State}

/-- The window holds a vote period and is a signed 64-bit number. -/
structure Fits (votePeriod window : ℕ) : Prop where
  holds : votePeriod ≤ window
  small : window < 2 ^ 63

/-- A counter as slashing can find it: the stored one, or one more for an active validator if votes are tallied. -/
def MayCount (ctx : Ctx) (store : Store) (operator : ValAddress) (misses : ℕ) : Prop :=
  store.missCounters.lookup operator = some misses ∨
    ((ctx.blockHeight + 1) % ctx.params.votePeriod = 0 ∧ operator ∈ validatorClaims ctx.staking ∧
      misses = (store.missCounters.lookup operator).getD 0 + 1)

/-- Whoever has missed too many votes is still a validator, whichever others are slashed first. -/
def Attended (ctx : Ctx) (store : Store) : Prop :=
  ∀ operator misses, MayCount ctx store operator misses → Condemned ctx.params misses →
    ∀ slashed, (ctx.staking.afterSlashing slashed operator).isSome

/-- The power of a voter, once for each positive rate. -/
def castBy (claims : Claims) (vote : Sigma fun _ : ValAddress => List ExchangeRateTuple) : ℕ :=
  match claims.lookup vote.1 with
  | some claim => (vote.2.map fun tuple => if tuple.exchangeRate.isPositive then claim.power else 0).sum
  | none => 0

/-- The power cast on positive rates in a period, over all denominations. -/
def castPower (ctx : Ctx) (store : Store) : ℕ :=
  (store.votes.entries.map (castBy (validatorClaims ctx.staking))).sum

/-- The condition under which the end of a block succeeds: each window fits when it counts, and so does the power cast. -/
structure Safe (ctx : Ctx) (store : Store) : Prop where
  rewards : (ctx.blockHeight + 1) % ctx.params.votePeriod = 0 →
    Fits ctx.params.votePeriod ctx.params.rewardDistributionWindow ∧ castPower ctx store < 2 ^ 63
  slashes : (ctx.blockHeight + 1) % ctx.params.slashWindow = 0 →
    Fits ctx.params.votePeriod ctx.params.slashWindow ∧ Attended ctx store

/-- What the checks of the single parameters leave of use here. -/
theorem validateEach_ok (valid : params.validateEach = .ok ()) :
    params.votePeriod ≠ 0 ∧ params.slashWindow ≠ 0 ∧ 0 ≤ params.minValidPerWindow.raw := by
  simp only [Params.validateEach, Params.validateVotePeriod, Params.requirePositive, Params.validateSlashWindow,
    Params.validateMinValidPerWindow, Params.requireUnit, ok_iffs] at valid
  obtain ⟨_, period, _, _, _, _, _, _, _, _, _, window, _, nonneg, _⟩ := valid
  exact ⟨period, window, not_lt.mp nonneg⟩

/-- The parameters that are shares are at most one. -/
theorem validateEach_shares (valid : params.validateEach = .ok ()) :
    params.voteThreshold.raw.natAbs ≤ Dec.precision ∧ params.rewardBand.raw.natAbs ≤ Dec.precision := by
  simp only [Params.validateEach, Params.validateVoteThreshold, Params.validateRewardBand, Params.requireUnit, ok_iffs,
    Dec.lt_def, Dec.isNegative, not_lt] at valid
  obtain ⟨_, _, _, ⟨_, low, high⟩, _, ⟨_, nonneg, atMost⟩, _⟩ := valid
  have positive : 0 ≤ params.voteThreshold.raw := le_trans (by decide) low
  have one : Dec.one.raw = Dec.precision := rfl
  omega

/-! ## The weight of the claims

Each vote is gathered once and credited at most once, so the claims together weigh at most what the votes had in power.
-/

/-- The power of all ballots. -/
def powers (votes : VoteMap) : ℤ := votes.total fun _ ballot => Ballot.power ballot

theorem powers_empty : powers ∅ = 0 := rfl

def weightOf (claims : Claims) : ℤ := claims.total fun _ claim => claim.weight

theorem weightOf_eq (claims : Claims) : weightOf claims = totalWeight claims := AList.total_natCast _ _

/-- A loop whose turns add at most a known amount each. -/
theorem foldl_le_add {σ α : Type} {measure : σ → ℤ} {turn : σ → α → σ} {amount : α → ℕ}
    (adds : ∀ before item, measure (turn before item) ≤ measure before + amount item) (items : List α) (start : σ) :
    measure (items.foldl turn start) ≤ measure start + (items.map amount).sum := by
  induction items generalizing start with
  | nil => simp
  | cons item rest ih =>
    have first := adds start item
    have others := ih (turn start item)
    rw [List.foldl_cons, List.map_cons, List.sum_cons]
    rw [Nat.cast_add]
    linarith

theorem powers_insert_le (votes : VoteMap) (denom : Denom) (ballot : Ballot) :
    powers (votes.insert denom ballot) ≤ powers votes + ballot.power :=
  AList.total_insert_le (fun _ _ => Int.natCast_nonneg _) votes denom ballot

theorem powers_organizeTuple (voter : ValAddress) (power : ℕ) (votes : VoteMap) (tuple : ExchangeRateTuple) :
    powers (organizeTuple voter power votes tuple) ≤
      powers votes + (if tuple.exchangeRate.isPositive then power else 0 : ℕ) := by
  apply le_of_eq
  apply AList.total_insert_of_share
  unfold AList.share
  cases votes.lookup tuple.denom <;> simp [Ballot.power]

theorem powers_organizeVote (claims : Claims) (votes : VoteMap)
    (vote : Sigma fun _ : ValAddress => List ExchangeRateTuple) :
    powers (organizeVote claims votes vote) ≤ powers votes + castBy claims vote := by
  unfold organizeVote castBy
  cases claims.lookup vote.1 with
  | none => simp
  | some claim => exact foldl_le_add (powers_organizeTuple vote.1 claim.power) vote.2 votes

theorem powers_organizeBallotByDenom (ctx : Ctx) (store : Store) :
    powers (organizeBallotByDenom store (validatorClaims ctx.staking)) ≤ castPower ctx store := by
  let gathered := store.votes.entries.foldl (organizeVote (validatorClaims ctx.staking)) ∅
  have sorted : powers (organizeBallotByDenom store (validatorClaims ctx.staking)) ≤ powers gathered := by
    have copied := foldl_le_add (fun votes (entry : Sigma fun _ : Denom => Ballot) =>
      powers_insert_le votes entry.1 (Ballot.sort entry.2)) gathered.entries ∅
    simp only [power_sort] at copied
    rw [powers_empty, zero_add] at copied
    exact copied.trans_eq (AList.total_natCast gathered fun _ ballot => Ballot.power ballot).symm
  have cast := foldl_le_add (powers_organizeVote (validatorClaims ctx.staking)) store.votes.entries ∅
  rw [powers_empty, zero_add] at cast
  exact sorted.trans cast

theorem weightOf_creditVote (median spread : Dec) (claims : Claims) (vote : VoteForTally) :
    weightOf (creditVote median spread claims vote) ≤ weightOf claims + vote.power := by
  unfold creditVote
  split
  · cases found : claims.lookup vote.voter with
    | none => simp
    | some claim =>
      apply le_of_eq
      apply AList.total_insert_of_share
      rw [AList.share_of_lookup found]
      exact Nat.cast_add _ _
  · simp

theorem toCrossRate_votes {bases : AList fun _ : ValAddress => Dec} {ballot cross : Ballot}
    (ok : ballot.toCrossRate bases = .ok cross) :
    cross.power ≤ ballot.power ∧ ∀ crossed ∈ cross, ∃ vote, Ballot.crossVote bases vote = .ok crossed := by
  induction ballot generalizing cross with
  | nil =>
    cases ok
    exact ⟨le_rfl, fun _ member => absurd member List.not_mem_nil⟩
  | cons vote rest ih =>
    simp only [Ballot.toCrossRate, List.mapM_cons, ok_iffs] at ok
    obtain ⟨first, isFirst, others, areOthers, rfl⟩ := ok
    obtain ⟨fewer, sources⟩ := ih areOthers
    have crossed : first.power ≤ vote.power := by
      unfold Ballot.crossVote at isFirst
      split at isFirst
      · split at isFirst
        · simp only [ok_iffs] at isFirst
          obtain ⟨_, _, rfl⟩ := isFirst
          exact le_rfl
        · cases isFirst
          exact Nat.zero_le _
      · cases isFirst
        exact Nat.zero_le _
    rw [power_cons, power_cons]
    exact ⟨Nat.add_le_add crossed fewer, List.forall_mem_cons.mpr ⟨⟨vote, isFirst⟩, sources⟩⟩

section Tally

variable {referenceGridb : Denom} {bases : AList fun _ : ValAddress => Dec} {rate : Dec} {before after : Tallied}

/-- One ballot adds no more weight than it has power. -/
theorem weightOf_tallyBallot {entry : Sigma fun _ : Denom => Ballot}
    (ok : tallyBallot ctx referenceGridb bases rate before entry = .ok after) :
    weightOf after.claims ≤ weightOf before.claims + Ballot.power entry.2 := by
  simp only [tallyBallot, ok_iffs, Prod.exists] at ok
  obtain ⟨ballot, isBallot, median, claims, counted, _, _, rfl⟩ := ok
  have crossed : ballot.power ≤ Ballot.power entry.2 := by
    unfold talliedBallot at isBallot
    split at isBallot
    · simp only [Ballot.toCrossRateWithSort, ok_iffs] at isBallot
      obtain ⟨cross, isCross, rfl⟩ := isBallot
      rw [power_sort]
      exact (toCrossRate_votes isCross).1
    · cases isBallot
      exact le_rfl
  simp only [tally, ok_iffs, Prod.mk.injEq] at counted
  obtain ⟨_, _, _, rfl⟩ := counted
  apply (foldl_le_add (weightOf_creditVote _ _) ballot before.claims).trans
  exact add_le_add_right (Int.ofNat_le.mpr crossed) _

theorem weightOf_tallyBallots {entries : List (Sigma fun _ : Denom => Ballot)}
    (ok : entries.foldlM (tallyBallot ctx referenceGridb bases rate) before = .ok after) :
    weightOf after.claims ≤ weightOf before.claims + (entries.map fun entry => Ballot.power entry.2).sum := by
  induction entries generalizing before with
  | nil =>
    cases ok
    simp
  | cons entry rest ih =>
    obtain ⟨middle, first, others⟩ := foldlM_cons_ok_iff.mp ok
    have head := weightOf_tallyBallot first
    have tail := ih others
    rw [List.map_cons, List.sum_cons, Nat.cast_add]
    linarith

end Tally

theorem weightOf_validatorClaims (staking : Staking) : weightOf (validatorClaims staking) ≤ 0 := by
  unfold validatorClaims
  apply List.foldlRecOn _ _ (motive := fun claims => weightOf claims ≤ 0)
  · exact le_rfl
  · intro claims light validator _
    apply (AList.total_insert_le (fun _ _ => Int.natCast_nonneg _) claims validator.operator _).trans
    exact (add_zero _).trans_le light

/-- The claims of a period weigh at most the power cast in it. -/
theorem totalWeight_le_castPower {after : Tallied} {targets : VoteTargets}
    (ok : tallyVotes ctx store = .ok (after, targets)) : totalWeight after.claims ≤ castPower ctx store := by
  have start := weightOf_validatorClaims ctx.staking
  zify
  rw [← weightOf_eq]
  rcases tallyVotes_loop ok with ⟨_, same⟩ | ⟨reference, ballots, _, _, visited, loop⟩
  · rw [same]
    exact start.trans (Int.natCast_nonneg _)
  · have kept : (ballots.map fun entry => Ballot.power entry.2).sum ≤
        ((organizeBallotByDenom store (validatorClaims ctx.staking)).entries.map fun entry => Ballot.power entry.2).sum := by
      rw [(visited.map _).sum_eq]
      exact (List.filter_sublist.map _).sum_le_sum fun _ _ => Nat.zero_le _
    have all := powers_organizeBallotByDenom ctx store
    rw [powers, AList.total_natCast _ fun _ ballot => Ballot.power ballot] at all
    have added := weightOf_tallyBallots loop
    have zero : weightOf after.claims ≤ (ballots.map fun entry => Ballot.power entry.2).sum := by linarith
    exact zero.trans ((Int.ofNat_le.mpr kept).trans all)

/-! ## Rewards -/

/-- The part of a vote period in the reward window is at most one. -/
theorem distributionRatio_eq (positive : params.votePeriod ≠ 0)
    (fits : Fits params.votePeriod params.rewardDistributionWindow) :
    (Dec.ofInt (toInt64 params.votePeriod)).quoInt (toInt64 params.rewardDistributionWindow) =
        .ok (shareOf params.rewardDistributionWindow params.votePeriod) ∧
      (shareOf params.rewardDistributionWindow params.votePeriod).raw ≤ Dec.precision := by
  have window : params.rewardDistributionWindow ≠ 0 := by
    have := fits.holds
    omega
  rw [toInt64_of_lt (fits.holds.trans_lt fits.small), toInt64_of_lt fits.small]
  refine ⟨quoInt_eq_shareOf window params.votePeriod, ?_⟩
  have atMost : params.votePeriod * Dec.precision / params.rewardDistributionWindow ≤ Dec.precision :=
    Nat.div_le_of_le_mul (Nat.mul_le_mul_right _ fits.holds)
  exact Int.ofNat_le.mpr atMost

theorem rewardsHeld_of_nonneg (bank : Bank) {ratio : Dec} (nonneg : 0 ≤ ratio.raw) (denoms : List Denom) :
    RewardsHeld bank ratio denoms := by
  intro denom _ reward isReward
  unfold rewardOf at isReward
  split at isReward
  · cases isReward
  · cases isReward
    rw [Dec.ofInt_mul]
    exact mul_nonneg (Int.natCast_nonneg _) nonneg

theorem toInt64_totalWeight_eq_zero {claims : Claims} (small : totalWeight claims < 2 ^ 63) :
    toInt64 (totalWeight claims) = 0 ↔ totalWeight claims = 0 := by
  rw [toInt64_of_lt small]
  exact Int.natCast_eq_zero

/-- Rewards are always paid when the windows and the weights fit. -/
theorem rewardBallotWinners_rewarded (positive : ctx.params.votePeriod ≠ 0)
    (fits : Fits ctx.params.votePeriod ctx.params.rewardDistributionWindow) (bank : Bank) (targets : VoteTargets)
    {claims : Claims} (small : totalWeight claims < 2 ^ 63) (nonzero : totalWeight claims ≠ 0) :
    ∃ next allocations, Rewarded ctx bank targets claims next allocations
        (shareOf ctx.params.rewardDistributionWindow ctx.params.votePeriod) ∧
      ∀ denom, amountOf ((ctx.orders.winners.visit claims.entries).flatMap (paid ctx
          ((ctx.orders.rewardDenoms.visit targets.keys).filterMap
            (rewardOf bank (shareOf ctx.params.rewardDistributionWindow ctx.params.votePeriod))) (totalWeight claims))) denom ≤
        bank.balance ModuleAccount.oracle.address denom := by
  obtain ⟨isRatio, atMostOne⟩ := distributionRatio_eq positive fits
  have nonneg := shareOf_nonneg ctx.params.rewardDistributionWindow ctx.params.votePeriod
  have held := rewardsHeld_of_nonneg bank nonneg (ctx.orders.rewardDenoms.visit targets.keys)
  have nodup : (ctx.orders.rewardDenoms.visit targets.keys).Nodup :=
    (ctx.orders.rewardDenoms.perm targets.keys).nodup_iff.mpr targets.keys_nodup
  have covers : ((ctx.orders.winners.visit claims.entries).map fun winner => winner.2.weight).sum ≤ totalWeight claims :=
    ((ctx.orders.winners.perm claims.entries).map _).sum_eq.le
  have some := Nat.pos_of_ne_zero nonzero
  have payable := payable_of_held small some covers held
  have within := amountOf_paid_le small some covers ctx bank nonneg atMostOne nodup
  obtain ⟨next, sent⟩ := Bank.sendCoins_of_covered (validCoins_payout ctx payable) (fun denom => by
      rw [payout, amountOf_foldl_addToCoins, amountOf_nil, zero_add]
      exact within denom) ModuleAccount.distribution.address
  refine ⟨next, _, ⟨isRatio, held, payable, ?_, rfl⟩, within⟩
  rw [sendToDistribution, sent]

theorem rewardBallotWinners_succeeds (positive : ctx.params.votePeriod ≠ 0)
    (fits : Fits ctx.params.votePeriod ctx.params.rewardDistributionWindow) (bank : Bank) (targets : VoteTargets)
    {claims : Claims} (small : totalWeight claims < 2 ^ 63) :
    ∃ next allocations, rewardBallotWinners ctx bank targets claims = .ok (next, allocations) := by
  have same := toInt64_totalWeight_eq_zero small
  by_cases zero : totalWeight claims = 0
  · exact ⟨bank, [], rewardBallotWinners_ok_iff.mpr (.inl ⟨same.mpr zero, rfl, rfl⟩)⟩
  · obtain ⟨next, allocations, rewarded, _⟩ := rewardBallotWinners_rewarded positive fits bank targets small zero
    exact ⟨next, allocations, rewardBallotWinners_ok_iff.mpr (.inr ⟨mt same.mp zero, _, rewarded⟩)⟩

/-- What is handed out for a vote period is within the pool, in all and for each winner. -/
structure WithinPool (params : Params) (bank : Bank) (claims : Claims) (allocations : List (ValAddress × List Coin)) :
    Prop where
  total : ∀ denom, (allocations.map fun allocation => amountOf allocation.2 denom).sum ≤
    bank.balance ModuleAccount.oracle.address denom
  each : ∃ winners, winners.Subperm claims.entries ∧ List.Forall₂ (fun allocation winner =>
    allocation.1 = winner.2.recipient ∧ ∀ denom, (amountOf allocation.2 denom : ℚ) ≤
      bank.balance ModuleAccount.oracle.address denom * (params.votePeriod / params.rewardDistributionWindow) *
          (winner.2.weight / totalWeight claims) +
        (bank.balance ModuleAccount.oracle.address denom + 1) / 10 ^ 18) allocations winners

theorem shareOf_toRat_le (total weight : ℕ) : (shareOf total weight).toRat ≤ weight / total := by
  have unit : (0 : ℚ) < Dec.precision := by exact_mod_cast Dec.precision_pos
  have exact : ((weight * Dec.precision / total : ℕ) : ℚ) ≤ (weight * Dec.precision : ℕ) / total := Nat.cast_div_le
  rw [Dec.toRat, shareOf, Int.cast_natCast, div_le_iff₀ unit, div_mul_eq_mul_div, ← Nat.cast_mul]
  exact exact

/-- A part exceeds the exact one by less than the rounding of one product. -/
theorem part_toRat_le (bank : Bank) (window votePeriod total weight : ℕ) (denom : Denom) :
    (part bank (shareOf window votePeriod) (shareOf total weight) denom : ℚ) ≤
      bank.balance ModuleAccount.oracle.address denom * (votePeriod / window) * (weight / total) +
        (bank.balance ModuleAccount.oracle.address denom + 1) / 10 ^ 18 := by
  have bound := part_le_exact bank (shareOf_nonneg window votePeriod) (shareOf_nonneg total weight) denom
  have unit : (Dec.precision : ℚ) = 10 ^ 18 := by norm_num [Dec.precision]
  have exact : (part bank (shareOf window votePeriod) (shareOf total weight) denom : ℚ) ≤
      bank.balance ModuleAccount.oracle.address denom * (shareOf window votePeriod).toRat * (shareOf total weight).toRat +
        1 / (2 * 10 ^ 18) := by
    have cast : 2 * ((Dec.precision : ℚ) * Dec.precision) *
        part bank (shareOf window votePeriod) (shareOf total weight) denom ≤
        2 * (bank.balance ModuleAccount.oracle.address denom * (shareOf window votePeriod).raw *
          (shareOf total weight).raw) + Dec.precision := by exact_mod_cast bound
    rw [Dec.toRat, Dec.toRat]
    rw [unit] at cast ⊢
    linarith
  have shares : (shareOf window votePeriod).toRat * (shareOf total weight).toRat ≤ votePeriod / window * (weight / total) :=
    mul_le_mul (shareOf_toRat_le _ _) (shareOf_toRat_le _ _)
      (div_nonneg (by exact_mod_cast shareOf_nonneg _ _) (by positivity)) (by positivity)
  have pool : (0 : ℚ) ≤ bank.balance ModuleAccount.oracle.address denom := by positivity
  have pooled := mul_le_mul_of_nonneg_left shares pool
  linarith

section Allocations

variable (rewards : List (Denom × Dec)) (total : ℕ) (winners : List (Sigma fun _ : ValAddress => Claim))

theorem sum_allocation (denom : Denom) :
    ((winners.filterMap (allocation ctx rewards total)).map fun given => amountOf given.2 denom).sum =
      amountOf (winners.flatMap (paid ctx rewards total)) denom := by
  rw [amountOf_flatMap]
  induction winners with
  | nil => rfl
  | cons winner rest ih =>
    rw [List.filterMap_cons, List.map_cons, List.sum_cons, ← ih]
    unfold allocation
    split_ifs with empty
    · rw [empty, amountOf_nil, zero_add]
    · rfl

/-- The allocations are for different winners, and each is what its winner is paid. -/
theorem filterMap_allocation : winners.filterMap (allocation ctx rewards total) =
    (winners.filter fun winner => paid ctx rewards total winner ≠ []).map
      fun winner => (winner.2.recipient, paid ctx rewards total winner) := by
  induction winners with
  | nil => rfl
  | cons winner rest ih =>
    rw [List.filterMap_cons, ih]
    unfold allocation
    by_cases empty : paid ctx rewards total winner = []
    · simp [empty]
    · simp [empty]

end Allocations

/-- The decimals in which rewards are computed: the pool's part for the period, and the winners' parts of it. -/
structure RewardsFit (params : Params) (bank : Bank) (claims : Claims) : Prop where
  period : ∀ denom, ((Dec.ofInt (bank.balance ModuleAccount.oracle.address denom)).mul
    (shareOf params.rewardDistributionWindow params.votePeriod)).fits
  winner : totalWeight claims ≠ 0 → ∀ winner ∈ claims.entries, ∀ denom,
    (((Dec.ofInt (bank.balance ModuleAccount.oracle.address denom)).mul
      (shareOf params.rewardDistributionWindow params.votePeriod)).mul
        (winnerShare (totalWeight claims) winner.2.weight)).fits

/-- The part of the pool for one period takes no more than 315 bits. -/
def PoolFits (params : Params) (bank : Bank) : Prop :=
  ∀ denom, bank.balance ModuleAccount.oracle.address denom *
    (params.votePeriod * 10 ^ 18 / params.rewardDistributionWindow) < 2 ^ 255 * 2 ^ 60

theorem weight_le_totalWeight {claims : Claims} {winner : Sigma fun _ : ValAddress => Claim}
    (member : winner ∈ claims.entries) : winner.2.weight ≤ totalWeight claims :=
  List.single_le_sum (fun _ _ => Nat.zero_le _) _ (List.mem_map.mpr ⟨winner, member, rfl⟩)

theorem rewardsFit_of_poolFits {bank : Bank} (pool : PoolFits params bank) {claims : Claims}
    (small : totalWeight claims < 2 ^ 63) : RewardsFit params bank claims := by
  have period : ∀ denom, ((Dec.ofInt (bank.balance ModuleAccount.oracle.address denom)).mul
      (shareOf params.rewardDistributionWindow params.votePeriod)).fits := by
    intro denom
    rw [Dec.fits, Dec.ofInt_mul, shareOf, ← Nat.cast_mul, Int.natAbs_natCast]
    exact pool denom
  refine ⟨period, fun nonzero winner member denom => (Dec.natAbs_mul_le ?_).trans_lt (period denom)⟩
  have within := weight_le_totalWeight member
  rw [winnerShare_eq small nonzero within, shareOf, Int.natAbs_natCast]
  exact Nat.div_le_of_le_mul (Nat.mul_le_mul_right _ within)

/-- Rewards are within the pool: what all winners get together, and what each gets up to rounding. -/
theorem rewards_withinPool {ctx : Ctx} (positive : 1 ≤ ctx.params.votePeriod)
    (fits : ctx.params.votePeriod ≤ ctx.params.rewardDistributionWindow)
    (small : ctx.params.rewardDistributionWindow < 2 ^ 63) {bank : Bank} (pool : PoolFits ctx.params bank)
    (targets : VoteTargets) {claims : Claims} (weights : totalWeight claims < 2 ^ 63) :
    (∃ next allocations, rewardBallotWinners ctx bank targets claims = .ok (next, allocations) ∧
      WithinPool ctx.params bank claims allocations) ∧ RewardsFit ctx.params bank claims := by
  refine ⟨?_, rewardsFit_of_poolFits pool weights⟩
  have same := toInt64_totalWeight_eq_zero weights
  by_cases zero : totalWeight claims = 0
  · exact ⟨bank, [], rewardBallotWinners_ok_iff.mpr (.inl ⟨same.mpr zero, rfl, rfl⟩), fun _ => Int.natCast_nonneg _, [],
      List.nil_subperm, .nil⟩
  · obtain ⟨next, allocations, rewarded, within⟩ :=
      rewardBallotWinners_rewarded (Nat.one_le_iff_ne_zero.mp positive) ⟨fits, small⟩ bank targets weights zero
    have visited := ctx.orders.winners.perm claims.entries
    refine ⟨next, allocations, rewardBallotWinners_ok_iff.mpr (.inr ⟨mt same.mp zero, _, rewarded⟩), fun denom => ?_, ?_⟩
    · rw [rewarded.allocated, sum_allocation]
      exact within denom
    · rw [rewarded.allocated, filterMap_allocation]
      refine ⟨_, List.filter_sublist.subperm.trans visited.subperm,
        List.forall₂_map_left_iff.mpr (List.forall₂_same.mpr fun winner kept => ⟨rfl, fun denom => ?_⟩)⟩
      have member := visited.mem_iff.mp (List.mem_of_mem_filter kept)
      have bound := part_toRat_le bank ctx.params.rewardDistributionWindow ctx.params.votePeriod (totalWeight claims)
        winner.2.weight denom
      unfold paid
      split
      · rw [amountOf_rewardCoins bank _ _ ((ctx.orders.rewardDenoms.perm targets.keys).nodup_iff.mpr targets.keys_nodup),
          winnerShare_eq weights zero (weight_le_totalWeight member)]
        split
        · exact bound
        · rw [Int.cast_zero]
          positivity
      · rw [amountOf_nil, Int.cast_zero]
        positivity

theorem endVotePeriod_succeeds (positive : ctx.params.votePeriod ≠ 0)
    (fits : Fits ctx.params.votePeriod ctx.params.rewardDistributionWindow) (small : castPower ctx state.store < 2 ^ 63) :
    ∃ next allocations, endVotePeriod ctx state = .ok (next, allocations) := by
  obtain ⟨tallied, targets, counted, _⟩ := tallyVotes_ok ctx state.store
  obtain ⟨bank, allocations, rewarded⟩ := rewardBallotWinners_succeeds positive fits state.bank targets
    ((totalWeight_le_castPower counted).trans_lt small)
  exact ⟨_, _, endVotePeriod_of_parts counted rewarded⟩

/-! ## Slashing -/

/-- The operators with too many misses are all there. -/
def Answerable (ctx : Ctx) (counters : AList fun _ : ValAddress => ℕ) : Prop :=
  ∀ operator misses, counters.lookup operator = some misses → Condemned ctx.params misses →
    ∀ slashed, (ctx.staking.afterSlashing slashed operator).isSome

theorem isSlashed_succeeds (least : 0 ≤ ctx.params.minValidPerWindow.raw) (votes : votesPerWindow ctx.params ≠ 0)
    (small : votesPerWindow ctx.params < 2 ^ 63) {operator : ValAddress} {misses : ℕ}
    (known : Condemned ctx.params misses → ∀ slashed, (ctx.staking.afterSlashing slashed operator).isSome)
    (slashed : List ValAddress) :
    ∃ verdict, isSlashed ctx (votesPerWindow ctx.params) slashed operator misses = .ok verdict := by
  rw [isSlashed_eq votes]
  split
  · next low =>
    have found := known (condemned_of_validVoteRate_lt least votes small low) slashed
    obtain ⟨validator, isValidator⟩ := Option.isSome_iff_exists.mp found
    rw [isValidator]
    exact ⟨_, rfl⟩
  · exact ⟨false, rfl⟩

theorem slashOperators_succeed {entries : List (Sigma fun _ : ValAddress => ℕ)}
    (ready : ∀ entry ∈ entries, ∀ slashed, ∃ verdict,
      isSlashed ctx (votesPerWindow ctx.params) slashed entry.1 entry.2 = .ok verdict) (before : List ValAddress) :
    ∃ slashed, entries.foldlM (slashOperator ctx (votesPerWindow ctx.params)) before = .ok slashed := by
  induction entries generalizing before with
  | nil => exact ⟨before, rfl⟩
  | cons entry rest ih =>
    obtain ⟨first, others⟩ := List.forall_mem_cons.mp ready
    obtain ⟨verdict, decided⟩ := first before
    rw [List.foldlM_cons, slashOperator, decided, ok_bind]
    cases verdict with
    | true => exact ih others (before ++ [entry.1])
    | false => exact ih others before

theorem mem_iterateMissCounters_iff {entry : Sigma fun _ : ValAddress => ℕ} :
    entry ∈ iterateMissCounters store ↔ store.missCounters.lookup entry.1 = some entry.2 :=
  (List.perm_insertionSort _ _).mem_iff.trans AList.mem_lookup_iff.symm

theorem votesPerWindow_bounds (positive : params.votePeriod ≠ 0) (fits : Fits params.votePeriod params.slashWindow) :
    votesPerWindow params ≠ 0 ∧ votesPerWindow params < 2 ^ 63 :=
  ⟨(Nat.div_pos fits.holds (Nat.pos_of_ne_zero positive)).ne', (Nat.div_le_self _ _).trans_lt fits.small⟩

theorem endSlashWindow_succeeds (positive : ctx.params.votePeriod ≠ 0) (least : 0 ≤ ctx.params.minValidPerWindow.raw)
    (fits : Fits ctx.params.votePeriod ctx.params.slashWindow) (answerable : Answerable ctx state.store.missCounters) :
    ∃ next slashed, endSlashWindow ctx state = .ok (next, slashed) := by
  obtain ⟨votes, small⟩ := votesPerWindow_bounds positive fits
  have window := votePeriodsPerWindow_eq positive (fits.holds.trans_lt fits.small) fits.small
  have ready : ∀ entry ∈ iterateMissCounters state.store, ∀ slashed, ∃ verdict,
      isSlashed ctx (votesPerWindow ctx.params) slashed entry.1 entry.2 = .ok verdict := fun entry member =>
    isSlashed_succeeds least votes small (answerable entry.1 entry.2 (mem_iterateMissCounters_iff.mp member))
  obtain ⟨slashed, loop⟩ := slashOperators_succeed ready []
  rw [bind_ok_iff] at window
  obtain ⟨quotient, isQuotient, truncated⟩ := window
  rw [endSlashWindow, slashAndResetMissCounters, isQuotient, ok_bind, truncated, ok_bind, loop]
  exact ⟨_, _, rfl⟩

/-! ## The end of a block -/

/-- The counters of a vote period's end are those that slashing can find. -/
theorem answerable_of_attended {middle : State} {allocations : List (ValAddress × List Coin)}
    (votes : VotePart ctx state middle allocations) (attended : Attended ctx state.store) :
    Answerable ctx middle.store.missCounters := by
  intro operator misses found
  apply attended operator misses
  unfold VotePart at votes
  split at votes
  · next ends =>
    obtain ⟨tallied, targets, counted, _, store⟩ := endVotePeriod_ok votes
    rw [store, clearBallots, lookup_missCounters counted] at found
    split at found
    · next isCharged =>
      cases found
      refine .inr ⟨ends, ?_, rfl⟩
      apply ((tallyVotes_keyed counted).2 operator).mp
      unfold charged at isCharged
      cases claim : tallied.claims.lookup operator with
      | none => simp [claim] at isCharged
      | some _ => exact AList.lookup_isSome.mp (by rw [claim]; rfl)
    · exact .inl found
  · rw [votes.1] at found
    exact .inl found

theorem endBlocker_succeeds (valid : ctx.params.validateEach = .ok ()) (safe : Safe ctx state.store) :
    ∃ blockEnd, endBlocker ctx state = .ok blockEnd := by
  obtain ⟨positive, window, least⟩ := validateEach_ok valid
  obtain ⟨middle, allocations, votes⟩ : ∃ middle allocations, VotePart ctx state middle allocations := by
    unfold VotePart
    split
    · next ends =>
      obtain ⟨fits, small⟩ := safe.rewards ends
      exact endVotePeriod_succeeds positive fits small
    · exact ⟨state, [], rfl, rfl⟩
  obtain ⟨final, slashed, slashes⟩ : ∃ final slashed, SlashPart ctx middle final slashed := by
    unfold SlashPart
    split
    · next ends =>
      obtain ⟨fits, attended⟩ := safe.slashes ends
      exact endSlashWindow_succeeds positive least fits (answerable_of_attended votes attended)
    · exact ⟨middle, [], rfl, rfl⟩
  exact ⟨_, endBlocker_of_parts positive window votes slashes⟩

/-! ## Decimals

Decimals of more than 315 bits are panics as well. The rates that are voted for, the balances of the reward pool and the
bonded power are bounded here so far that no decimal of a block's end comes to that.
-/

/-- The bounds on what a tally reads. The square root of a variance is one of a floating-point number. -/
structure Bounded (ctx : Ctx) (state : State) : Prop where
  bonded : ctx.staking.totalBondedPower < 2 ^ 63
  rates : ∀ voter ∈ validatorClaims ctx.staking, ∀ tuples, state.store.votes.lookup voter = some tuples →
    ∀ tuple ∈ tuples, tuple.exchangeRate.raw.natAbs < 2 ^ 253
  pool : PoolFits ctx.params state.bank
  sqrt : ∀ variance : Dec, variance.fits → (ctx.floatSqrt variance).raw.natAbs < 2 ^ 253

/-- The decimals of a ballot's tally: the rates as they are tallied, the spread around their median, and the rate that is
published. -/
structure BallotFits (ctx : Ctx) (reference entry : Sigma fun _ : Denom => Ballot) (ballot : Ballot) : Prop where
  rates : ∀ vote ∈ ballot, vote.exchangeRate.fits
  band : (ballot.weightedMedian.mul ⟨ctx.params.rewardBand.raw.tdiv 2⟩).fits
  lower : (ballot.weightedMedian - spreadOf ctx ballot).fits
  upper : (ballot.weightedMedian + spreadOf ctx ballot).fits
  published : ∀ rate, rateOf reference.1 reference.2 entry.1 entry.2 = some rate → rate.fits

/-- All decimals of a vote period's end. -/
structure PeriodFits (ctx : Ctx) (state : State) : Prop where
  threshold : (ctx.params.voteThreshold.mulInt ctx.staking.totalBondedPower).fits
  ballots : ∀ reference, IsReference ctx state.store reference → ∀ entry ∈ passingBallots ctx state.store,
    BallotFits ctx reference entry (tallied reference.1 reference.2 entry)
  rewards : ∀ after targets, tallyVotes ctx state.store = .ok (after, targets) →
    RewardsFit ctx.params state.bank after.claims

theorem crossVote_bound {bases : AList fun _ : ValAddress => Dec} {bound : ℕ}
    (below : bases.All fun base => base.raw.natAbs < bound) (positive : 0 < bound) {vote crossed : VoteForTally}
    (ok : Ballot.crossVote bases vote = .ok crossed) : crossed.exchangeRate.raw.natAbs < bound * Dec.precision := by
  have zero : (Dec.zero).raw.natAbs < bound * Dec.precision := Nat.mul_pos positive Dec.precision_pos
  unfold Ballot.crossVote at ok
  split at ok
  · next base found =>
    split at ok
    · simp only [ok_iffs] at ok
      obtain ⟨rate, quotient, rfl⟩ := ok
      exact (Dec.natAbs_quo_le quotient).trans_lt (Nat.mul_lt_mul_of_pos_right (below _ base found) Dec.precision_pos)
    · cases ok
      exact zero
  · cases ok
    exact zero

theorem toMap_all {property : Dec → Prop} {ballot : Ballot} (all : ∀ vote ∈ ballot, property vote.exchangeRate) :
    ballot.toMap.All property := by
  apply (AList.all_empty property).foldl
  intro rates kept vote member
  split
  · exact kept.insert vote.voter (all vote member)
  · exact kept

/-- The square of a deviation that is too large is recovered from, so a deviation is always small. -/
theorem standardDeviation_bound {bound : ℕ} (positive : 0 < bound)
    (sqrt : ∀ variance : Dec, variance.fits → (ctx.floatSqrt variance).raw.natAbs < bound) (ballot : Ballot) (median : Dec) :
    (ballot.standardDeviation ctx.floatSqrt median).raw.natAbs < bound := by
  unfold Ballot.standardDeviation
  dsimp only
  split
  · exact positive
  · next fitting =>
    push Not at fitting
    exact sqrt _ ((Int.natAbs_tdiv_le_natAbs _ _).trans_lt fitting.2)

section Ballots

variable (bounded : Bounded ctx state)
include bounded

theorem Bounded.votes {entry : Sigma fun _ : Denom => Ballot} (passing : Passing ctx state.store entry) :
    ∀ vote ∈ entry.2, vote.exchangeRate.raw.natAbs < 2 ^ 253 := by
  have gathered : Votes (fun _ vote => vote.exchangeRate.raw.natAbs < 2 ^ 253)
      (organizeBallotByDenom state.store (validatorClaims ctx.staking)) :=
    organizeBallotByDenom_votes fun voter tuples claim voted claimed =>
      bounded.rates voter (AList.lookup_isSome.mp (Option.isSome_of_eq_some claimed)) tuples voted
  exact gathered entry.1 entry.2 passing.1

theorem Bounded.tallied {reference entry : Sigma fun _ : Denom => Ballot} (strongest : Passing ctx state.store reference)
    (passing : Passing ctx state.store entry) :
    ∀ vote ∈ tallied reference.1 reference.2 entry, vote.exchangeRate.raw.natAbs < 2 ^ 253 * Dec.precision := by
  unfold Oracle.tallied
  split
  · exact fun vote member => (bounded.votes passing vote member).trans_le (Nat.le_mul_of_pos_right _ Dec.precision_pos)
  · intro vote member
    obtain ⟨ok, _⟩ := toCrossRateWithSort_eq reference.2 entry.2
    simp only [Ballot.toCrossRateWithSort, ok_iffs] at ok
    obtain ⟨cross, isCross, sorted⟩ := ok
    rw [← sorted] at member
    obtain ⟨source, crossed⟩ := (toCrossRate_votes isCross).2 vote (mem_sort.mp member)
    exact crossVote_bound (toMap_all (bounded.votes strongest)) (by decide) crossed

theorem Bounded.ballotFits (valid : ctx.params.validateEach = .ok ()) {reference entry : Sigma fun _ : Denom => Ballot}
    (strongest : Passing ctx state.store reference) (passing : Passing ctx state.store entry) :
    BallotFits ctx reference entry (Oracle.tallied reference.1 reference.2 entry) := by
  have rates := bounded.tallied strongest passing
  generalize Oracle.tallied reference.1 reference.2 entry = ballot at rates
  have small : 2 ^ 253 * Dec.precision < 2 ^ 254 * 2 ^ 60 := by decide
  have median : ballot.weightedMedian.raw.natAbs < 2 ^ 253 * Dec.precision :=
    medianFrom_of_forall (fun rate => rate.raw.natAbs < _) (by decide) rates 0
  have band : (ballot.weightedMedian.mul ⟨ctx.params.rewardBand.raw.tdiv 2⟩).raw.natAbs ≤ ballot.weightedMedian.raw.natAbs := by
    apply Dec.natAbs_mul_le
    exact (Int.natAbs_tdiv_le_natAbs _ _).trans (validateEach_shares valid).2
  have spread : (spreadOf ctx ballot).raw.natAbs < 2 ^ 253 * Dec.precision := by
    have deviation := standardDeviation_bound (by decide) bounded.sqrt ballot ballot.weightedMedian
    unfold spreadOf
    dsimp only
    split
    · exact deviation.trans_le (Nat.le_mul_of_pos_right _ Dec.precision_pos)
    · exact band.trans_lt median
  have lower := Int.natAbs_sub_le ballot.weightedMedian.raw (spreadOf ctx ballot).raw
  have upper := Int.natAbs_add_le ballot.weightedMedian.raw (spreadOf ctx ballot).raw
  refine ⟨fun vote member => ?_, ?_, ?_, ?_, fun rate published => ?_⟩
  · have := rates vote member
    rw [Dec.fits]
    omega
  · rw [Dec.fits]
    omega
  · rw [Dec.fits, Dec.raw_sub]
    omega
  · rw [Dec.fits, Dec.raw_add]
    omega
  · have referenceMedian : (Ballot.weightedMedian reference.2).raw.natAbs < 2 ^ 253 :=
      medianFrom_of_forall (fun rate => rate.raw.natAbs < _) (by decide) (bounded.votes strongest) 0
    have ownMedian : (Ballot.weightedMedian entry.2).raw.natAbs < 2 ^ 253 :=
      medianFrom_of_forall (fun rate => rate.raw.natAbs < _) (by decide) (bounded.votes passing) 0
    unfold rateOf at published
    split at published
    · cases published
      rw [Dec.fits]
      omega
    · cases divided : (Ballot.weightedMedian reference.2).quo (crossMedian reference.2 entry.2) with
      | error _ =>
        rw [divided] at published
        cases published
      | ok quotient =>
        rw [divided] at published
        cases published
        have bound := Dec.natAbs_quo_le divided
        have scaled := Nat.mul_lt_mul_of_pos_right referenceMedian Dec.precision_pos
        rw [Dec.fits]
        omega

theorem Bounded.periodFits (valid : ctx.params.validateEach = .ok ()) (small : castPower ctx state.store < 2 ^ 63) :
    PeriodFits ctx state := by
  refine ⟨?_, fun reference isReference entry member => ?_, fun after targets counted => ?_⟩
  · have share := (validateEach_shares valid).1
    have bonded := bounded.bonded
    rw [Dec.fits, Dec.mulInt, Int.natAbs_mul, Int.natAbs_natCast]
    exact (Nat.mul_le_mul share bonded.le).trans_lt (by decide)
  · exact bounded.ballotFits valid isReference.candidate (mem_passingBallots_iff.mp member)
  · exact rewardsFit_of_poolFits bounded.pool ((totalWeight_le_castPower counted).trans_lt small)

end Ballots

/-! ## Runs -/

/-- The end of a block, under parameters that pass their own checks, meets the condition in the state it finds. -/
def SafeEnd (chain : Chain) : Event → Prop
  | .endBlock staking params orders floatSqrt => params.validateEach = .ok () →
      Safe (chain.ctx staking params orders floatSqrt) chain.state.store ∧
        ((chain.height + 1) % params.votePeriod = 0 → Bounded (chain.ctx staking params orders floatSqrt) chain.state)
  | _ => True

/-- The end of a block, under such parameters, does not fail, and all its decimals fit. -/
def EndsWell (codec : Codec) (chain : Chain) : Event → Prop
  | .endBlock staking params orders floatSqrt => params.validateEach = .ok () →
      Succeeds (Chain.step codec) chain (.endBlock staking params orders floatSqrt) ∧
        ((chain.height + 1) % params.votePeriod = 0 → PeriodFits (chain.ctx staking params orders floatSqrt) chain.state)
  | _ => True

theorem endsWell_of_safeEnd (codec : Codec) {chain : Chain} {event : Event} (safe : SafeEnd chain event) :
    EndsWell codec chain event := by
  cases event with
  | message staking params msg => trivial
  | outside voteTargets targets bank => trivial
  | endBlock staking params orders floatSqrt =>
    intro valid
    obtain ⟨fits, bounded⟩ := safe valid
    obtain ⟨blockEnd, ok⟩ := endBlocker_succeeds valid fits
    refine ⟨⟨{ chain with state := blockEnd.state, height := chain.height + 1 }, ?_⟩, fun ends => ?_⟩
    · rw [Chain.step, ok]
      rfl
    · exact (bounded ends).periodFits valid (fits.rewards ends).2

/-- In every run in which the ends of blocks are safe, none of them panics. -/
theorem endBlocks_never_panic (codec : Codec) (chain : Chain) (events : List Event)
    (safe : Throughout (Chain.step codec) SafeEnd chain events) :
    Throughout (Chain.step codec) (EndsWell codec) chain events := by
  intro before event after split
  exact endsWell_of_safeEnd codec (safe before event after split)

/-- One active validator, or none once it has been removed. -/
def loneStaking (present : Bool) : Staking where
  byPower := if present then [⟨1, 1, true, false⟩] else []
  maxValidators := 100
  validator := fun operator => if present ∧ operator = 1 then some ⟨1, 1, true, false⟩ else none
  totalBondedPower := 1

def windowParams (votePeriod rewardDistributionWindow slashWindow : ℕ) : Params :=
  { defaultParams with votePeriod, rewardDistributionWindow, slashWindow, minValidPerWindow := Dec.one }

def loneEnd (params : Params) (present : Bool) : Event :=
  .endBlock (loneStaking present) params ⟨.listed _, .listed _, .listed _, .listed _, .listed _⟩ fun _ => Dec.zero

/-- A chain with one vote target and one coin in the reward pool. -/
def loneChain (height : ℕ) (votes : AList fun _ : ValAddress => List ExchangeRateTuple) : Chain where
  state := ⟨⟨∅, ∅, votes, AList.singleton "uusm" (), ∅⟩,
    ⟨fun account _ => if account = ModuleAccount.oracle.address then 1 else 0, fun _ => 1⟩⟩
  feederDelegations := ∅
  targets := AList.singleton "uusm" ()
  height := height

/-- The last block of a run ends in a panic, under parameters that pass their own checks. -/
def Panics (params : Params) (chain : Chain) (before : List Event) (last : Event) (reason : String) : Prop :=
  params.validateEach = .ok () ∧
    Chain.step default (replay (Chain.step default) chain before) last = .error (.panic reason)

/-- Two validators with much power vote for three targets, and the pool holds a coin of each. -/
def strongVotes : List ExchangeRateTuple := [⟨"uaa", Dec.one⟩, ⟨"ubb", Dec.one⟩, ⟨"uusm", Dec.one⟩]

def strongStaking : Staking :=
  { loneStaking true with
    byPower := [⟨1, 2 ^ 61, true, false⟩, ⟨2, 2 ^ 61, true, false⟩]
    totalBondedPower := 2 ^ 62 }

def strongChain : Chain :=
  let chain := loneChain 0 ((AList.singleton 1 strongVotes).insert 2 strongVotes)
  { chain with
    state := { chain.state with
      store := { chain.state.store with voteTargets := ((AList.singleton "uaa" ()).insert "ubb" ()).insert "uusm" () } } }

/-- A slash window shorter than the vote period; a validator removed after a miss; a reward window shorter than the vote
period; one that is negative as a signed number; and weights whose sum is. -/
theorem endBlock_panics_sample :
    Panics (windowParams 2 2 1) (loneChain 0 ∅) [loneEnd (windowParams 2 2 1) true] (loneEnd (windowParams 2 2 1) true)
      "division by zero" ∧
    Panics (windowParams 1 1 2) (loneChain 0 ∅) [loneEnd (windowParams 1 1 2) true] (loneEnd (windowParams 1 1 2) false)
      "invalid memory address or nil pointer dereference" ∧
    Panics (windowParams 2 1 4) (loneChain 0 (AList.singleton 1 [⟨"uusm", Dec.one⟩])) [loneEnd (windowParams 2 1 4) true]
      (loneEnd (windowParams 2 1 4) true) "failed to send coins to distribution module" ∧
    Panics (windowParams 10 (2 ^ 63) 100) (loneChain 9 (AList.singleton 1 [⟨"uusm", Dec.one⟩])) []
      (loneEnd (windowParams 10 (2 ^ 63) 100) true) "negative decimal coin amount: -0.000000000000000001\n" ∧
    Panics (windowParams 1 1 2) strongChain [] (.endBlock strongStaking (windowParams 1 1 2)
      ⟨.listed _, .listed _, .listed _, .listed _, .listed _⟩ fun _ => Dec.zero) "negative coin amount" := by
  refine ⟨⟨?_, ?_⟩, ⟨?_, ?_⟩, ⟨?_, ?_⟩, ⟨?_, ?_⟩, ?_, ?_⟩
  · decide
  · rfl
  · decide
  · rfl
  · decide
  · rfl
  · decide
  · rfl
  · decide
  · rfl

/-- Rewards of a pool of ten coins in which the only vote target is `uusm`. -/
def poolRewards (params : Params) (claims : Claims) : Except Fault (Bank × List (ValAddress × List Coin)) :=
  rewardBallotWinners ⟨0, params, { loneStaking true with validator := fun operator => some ⟨operator, 1, true, false⟩ },
    ⟨.listed _, .listed _, .listed _, .listed _, .listed _⟩, fun _ => Dec.zero⟩ ⟨fun _ _ => 10, fun _ => 10⟩
    (AList.singleton "uusm" ()) claims

/-- Two validators share half of the pool. -/
theorem rewards_withinPool_sample :
    (∃ next allocations, poolRewards (windowParams 1 2 2) ((AList.singleton 1 ⟨5, 5, 1, 1⟩).insert 2 ⟨5, 5, 1, 2⟩) =
        .ok (next, allocations) ∧
      WithinPool (windowParams 1 2 2) ⟨fun _ _ => 10, fun _ => 10⟩ ((AList.singleton 1 ⟨5, 5, 1, 1⟩).insert 2 ⟨5, 5, 1, 2⟩)
        allocations) ∧
    RewardsFit (windowParams 1 2 2) ⟨fun _ _ => 10, fun _ => 10⟩ ((AList.singleton 1 ⟨5, 5, 1, 1⟩).insert 2 ⟨5, 5, 1, 2⟩) :=
  rewards_withinPool (by decide) (by decide) (by decide)
    (fun _ => (by decide : 10 * (1 * 10 ^ 18 / 2) < 2 ^ 255 * 2 ^ 60)) _ (by decide)

/-- Three winners whose weights sum up to `2 ^ 64 + 2`. -/
def heavyClaims : Claims :=
  ((AList.singleton 1 ⟨1, 2 ^ 63 - 1, 1, 1⟩).insert 2 ⟨1, 2 ^ 63 - 1, 1, 2⟩).insert 3 ⟨1, 4, 1, 3⟩

/-- The sum wraps to two, and two of the winners would get more than the pool each. -/
theorem rewards_exceed_sample : (heavyClaims.entries.map fun winner => winner.2.weight).sum = 2 ^ 64 + 2 ∧
    Prod.snd <$> poolRewards (windowParams 1 1 2) heavyClaims =
      .error (.panic "failed to send coins to distribution module") := by
  decide +kernel

/-- With one validator, which stays, everybody with misses is there. -/
theorem loneStaking_attended {height : ℕ} {orders : MapOrders} {floatSqrt : Dec → Dec}
    (alone : ∀ operator misses, store.missCounters.lookup operator = some misses → operator = 1) :
    Attended ⟨height, params, loneStaking true, orders, floatSqrt⟩ store := by
  intro operator misses counted _ slashed
  have isLone : operator = 1 := by
    rcases counted with stored | ⟨_, active, _⟩
    · exact alone operator misses stored
    · have only : operator ∈ [(1 : ValAddress)] := active
      exact List.mem_singleton.mp only
  subst isLone
  rfl

/-- A run of two blocks with a tally in each, the second one the last of a slash window. The vote of the first is paid. -/
theorem endBlocks_never_panic_sample :
    Throughout (Chain.step default) SafeEnd (loneChain 0 (AList.singleton 1 [⟨"uusm", Dec.one⟩]))
      [loneEnd (windowParams 1 1 2) true, loneEnd (windowParams 1 1 2) true] ∧
    Throughout (Chain.step default) (EndsWell default) (loneChain 0 (AList.singleton 1 [⟨"uusm", Dec.one⟩]))
      [loneEnd (windowParams 1 1 2) true, loneEnd (windowParams 1 1 2) true] := by
  have rewards : Fits 1 1 := ⟨by decide, by decide⟩
  have slashes : Fits 1 2 := ⟨by decide, by decide⟩
  have zero : Dec.zero.raw.natAbs < 2 ^ 253 := by decide
  have safe : Throughout (Chain.step default) SafeEnd (loneChain 0 (AList.singleton 1 [⟨"uusm", Dec.one⟩]))
      [loneEnd (windowParams 1 1 2) true, loneEnd (windowParams 1 1 2) true] := by
    apply throughout_cons
    · intro _
      refine ⟨⟨fun _ => ⟨rewards, by decide⟩, fun _ => ⟨slashes, loneStaking_attended ?_⟩⟩, fun _ =>
        ⟨by decide, ?_, fun _ => ?_, fun _ _ => zero⟩⟩
      · intro operator misses stored
        cases stored
      · intro voter active tuples voted
        obtain rfl : voter = 1 := List.mem_singleton.mp (show voter ∈ [(1 : ValAddress)] from active)
        cases voted
        exact List.forall_mem_singleton.mpr (by decide)
      · exact (by decide : 1 * (1 * 10 ^ 18 / 1) < 2 ^ 255 * 2 ^ 60)
    · apply throughout_cons
      · intro _
        refine ⟨⟨fun _ => ⟨rewards, by decide⟩, fun _ => ⟨slashes, loneStaking_attended ?_⟩⟩, fun _ =>
          ⟨by decide, ?_, fun denom => ?_, fun _ _ => zero⟩⟩
        · intro operator misses stored
          cases stored
        · intro voter _ tuples voted
          cases voted
        · by_cases same : denom = "uusm"
          · subst same
            decide
          · change (if ModuleAccount.oracle.address = ModuleAccount.distribution.address ∧ denom = "uusm" then 1
              else if ModuleAccount.oracle.address = ModuleAccount.oracle.address ∧ denom = "uusm" then 0 else 1) * _ < _
            rw [if_neg fun both => same both.2, if_neg fun both => same both.2]
            decide
      · exact throughout_nil _ _ _
  exact ⟨safe, endBlocks_never_panic _ _ _ safe⟩

end Rotofury.Soundness.Oracle
