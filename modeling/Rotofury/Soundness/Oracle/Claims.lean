import Rotofury.Soundness.Oracle.Rates
import Rotofury.ToMathlib.ExceptFold

/-! # The claims of a period

Each active validator has a claim under its operator address. A tally adds to the claims and changes nothing else of
them, and what it adds is a sum over the ballots, so that the order of the ballots does not matter. The ballots, the
targets that are left and the claims are given as functions of the store.
-/

namespace Rotofury.Soundness.Oracle

open Model.Sdk Model.Oracle Except

variable {ctx : Ctx} {referenceGridb : Denom} {ballotRM : Ballot} {before after : Tallied}
  {entry : Sigma fun _ : Denom => Ballot} {store : Store} {targets : VoteTargets}

/-- A claim with more weight and more wins. -/
def earn (earned : ℕ × ℕ) (claim : Claim) : Claim :=
  { claim with weight := claim.weight + earned.1, winCount := claim.winCount + earned.2 }

@[simp]
theorem map_earn_zero (found : Option Claim) : found.map (earn 0) = found := by
  cases found <;> rfl

theorem earn_earn (first second : ℕ × ℕ) (claim : Claim) : earn second (earn first claim) = earn (first + second) claim := by
  simp [earn, add_assoc]

@[simp] theorem earn_recipient (earned : ℕ × ℕ) (claim : Claim) : (earn earned claim).recipient = claim.recipient := rfl

/-- A loop whose turns only add to the claims adds the sum of its turns. -/
theorem lookup_foldl_earn {α : Type} (body : Claims → α → Claims) (earned : α → ValAddress → ℕ × ℕ)
    (turn : ∀ claims item voter, (body claims item).lookup voter = (claims.lookup voter).map (earn (earned item voter)))
    (items : List α) (claims : Claims) (voter : ValAddress) :
    (items.foldl body claims).lookup voter =
      (claims.lookup voter).map (earn (items.map fun item => earned item voter).sum) := by
  induction items generalizing claims with
  | nil => rw [List.foldl_nil, List.map_nil, List.sum_nil, map_earn_zero]
  | cons item rest ih =>
    rw [List.foldl_cons, ih, turn, Option.map_map, List.map_cons, List.sum_cons]
    congr 1
    funext claim
    exact earn_earn _ _ claim

/-! ## Crediting the votes of a ballot -/

/-- The vote is close to the median or an abstention. -/
def Credited (weightedMedian rewardSpread : Dec) (vote : VoteForTally) : Prop :=
  (weightedMedian - rewardSpread ≤ vote.exchangeRate ∧ vote.exchangeRate ≤ weightedMedian + rewardSpread) ∨
    ¬ vote.exchangeRate.isPositive

instance (weightedMedian rewardSpread : Dec) (vote : VoteForTally) : Decidable (Credited weightedMedian rewardSpread vote) :=
  inferInstanceAs (Decidable (_ ∨ _))

theorem lookup_creditVote (weightedMedian rewardSpread : Dec) (claims : Claims) (vote : VoteForTally) (voter : ValAddress) :
    (creditVote weightedMedian rewardSpread claims vote).lookup voter = (claims.lookup voter).map
      (earn (if Credited weightedMedian rewardSpread vote ∧ vote.voter = voter then (vote.power, 1) else 0)) := by
  unfold creditVote
  by_cases credited : Credited weightedMedian rewardSpread vote
  · rw [if_pos (by exact credited)]
    by_cases same : vote.voter = voter
    · subst same
      rw [if_pos ⟨credited, rfl⟩]
      cases found : claims.lookup vote.voter with
      | none => simp [found]
      | some claim =>
        rw [AList.lookup_insert]
        rfl
    · rw [if_neg fun both => same both.2, map_earn_zero]
      cases claims.lookup vote.voter with
      | none => rfl
      | some claim => exact AList.lookup_insert_ne (Ne.symm same)
  · rw [if_neg (by exact credited), if_neg fun both => credited both.1, map_earn_zero]

/-- The distance to the median within which a vote wins. -/
def spreadOf (ctx : Ctx) (ballot : Ballot) : Dec :=
  let standardDeviation := ballot.standardDeviation ctx.floatSqrt ballot.weightedMedian
  let rewardSpread := ballot.weightedMedian.mul ⟨ctx.params.rewardBand.raw.tdiv 2⟩
  if rewardSpread < standardDeviation then standardDeviation else rewardSpread

/-- What a ballot, as it is tallied, adds to a claim. -/
def earnedOf (ctx : Ctx) (ballot : Ballot) (voter : ValAddress) : ℕ × ℕ :=
  (ballot.map fun vote =>
    if Credited ballot.weightedMedian (spreadOf ctx ballot) vote ∧ vote.voter = voter then (vote.power, 1) else 0).sum

theorem tally_claims {ballot : Ballot} {claims credited : Claims} {median : Dec}
    (ok : tally ctx ballot claims = .ok (median, credited)) (voter : ValAddress) :
    credited.lookup voter = (claims.lookup voter).map (earn (earnedOf ctx ballot voter)) := by
  simp only [tally, Ballot.weightedMedianWithAssertion, ok_iffs, Prod.mk.injEq] at ok
  obtain ⟨_, ⟨_, _, rfl⟩, rfl, rfl⟩ := ok
  exact lookup_foldl_earn _ _ (lookup_creditVote _ _) ballot claims voter

/-- The ballot that is tallied for a denomination. -/
def tallied (referenceGridb : Denom) (ballotRM : Ballot) (entry : Sigma fun _ : Denom => Ballot) : Ballot :=
  if entry.1 = referenceGridb then entry.2 else crossBallot ballotRM entry.2

theorem tallyBallot_claims
    (ok : tallyBallot ctx referenceGridb ballotRM.toMap ballotRM.weightedMedian before entry = .ok after)
    (voter : ValAddress) : after.claims.lookup voter =
      (before.claims.lookup voter).map (earn (earnedOf ctx (tallied referenceGridb ballotRM entry) voter)) := by
  simp only [tallyBallot, ok_iffs, Prod.exists] at ok
  obtain ⟨ballot, isBallot, median, claims, counted, rate, _, rfl⟩ := ok
  have same : ballot = tallied referenceGridb ballotRM entry := by
    unfold talliedBallot at isBallot
    unfold tallied
    split at isBallot
    · next other =>
      rw [(toCrossRateWithSort_eq ballotRM entry.2).1] at isBallot
      cases isBallot
      rw [if_neg other]
    · next reference =>
      cases isBallot
      rw [if_pos (not_not.mp reference)]
  subst same
  exact tally_claims counted voter

theorem tallyBallots_claims {entries : List (Sigma fun _ : Denom => Ballot)}
    (ok : entries.foldlM (tallyBallot ctx referenceGridb ballotRM.toMap ballotRM.weightedMedian) before = .ok after)
    (voter : ValAddress) : after.claims.lookup voter = (before.claims.lookup voter).map
      (earn (entries.map fun entry => earnedOf ctx (tallied referenceGridb ballotRM entry) voter).sum) := by
  induction entries generalizing before with
  | nil =>
    cases ok
    rw [List.map_nil, List.sum_nil, map_earn_zero]
  | cons entry rest ih =>
    obtain ⟨middle, first, others⟩ := foldlM_cons_ok_iff.mp ok
    rw [ih others, tallyBallot_claims first, Option.map_map, List.map_cons, List.sum_cons]
    congr 1
    funext claim
    exact earn_earn _ _ claim

/-! ## The claims after a tally -/

/-- The ballots that pass. -/
def passingBallots (ctx : Ctx) (store : Store) : List (Sigma fun _ : Denom => Ballot) :=
  (organizeBallotByDenom store (validatorClaims ctx.staking)).entries.filter fun entry =>
    decide (entry.1 ∈ store.voteTargets) && ballotIsPassing entry.2 (thresholdVotes ctx)

theorem mem_passingBallots_iff :
    entry ∈ passingBallots ctx store ↔ Passing ctx store entry := by
  rw [passingBallots, List.mem_filter, Passing, Passes, ← AList.mem_lookup_iff, Bool.and_eq_true, decide_eq_true_iff]
  rfl

/-- What all ballots of a period add to a claim, given the reference. -/
def earnedAgainst (ctx : Ctx) (store : Store) (reference : Sigma fun _ : Denom => Ballot) (voter : ValAddress) : ℕ × ℕ :=
  ((passingBallots ctx store).map fun entry => earnedOf ctx (tallied reference.1 reference.2 entry) voter).sum

/-- The ballots that are left, in any order. -/
theorem perm_passingBallots (ctx : Ctx) (store : Store) :
    (ctx.orders.tally.visit (pickReferenceGridb ctx store.voteTargets
      (organizeBallotByDenom store (validatorClaims ctx.staking))).voteMap.entries).Perm (passingBallots ctx store) := by
  apply (ctx.orders.tally.perm _).trans
  have kept := (pickReferenceGridb_spec ctx store).1
  apply (List.perm_ext_iff_of_nodup _ _).mpr
  · intro entry
    rw [mem_passingBallots_iff, ← AList.mem_lookup_iff]
    exact kept entry.1 entry.2
  · exact (AList.nodupKeys _).nodup
  · exact (AList.nodupKeys _).nodup.filter _

/-- A tally with a reference goes through the ballots that pass, in some order. -/
theorem tallyVotes_loop (ok : tallyVotes ctx store = .ok (after, targets)) :
    ((∀ reference, IsReference ctx store reference → reference.1 = "") ∧ after.claims = validatorClaims ctx.staking) ∨
      ∃ reference, ∃ ballots : List (Sigma fun _ : Denom => Ballot), IsReference ctx store reference ∧ reference.1 ≠ "" ∧
        ballots.Perm (passingBallots ctx store) ∧
        ballots.foldlM (tallyBallot ctx reference.1 (Ballot.toMap reference.2) (Ballot.weightedMedian reference.2))
          ⟨∅, validatorClaims ctx.staking⟩ = .ok after := by
  obtain ⟨kept, named⟩ := pickReferenceGridb_spec ctx store
  have visited := perm_passingBallots ctx store
  unfold tallyVotes at ok
  dsimp only at ok
  generalize pickReferenceGridb ctx store.voteTargets (organizeBallotByDenom store (validatorClaims ctx.staking)) =
    picked at kept named visited ok
  by_cases unnamed : picked.referenceGridb = ""
  · rw [if_pos unnamed] at ok
    cases ok
    refine .inl ⟨fun reference isReference => ?_, rfl⟩
    rcases named with ⟨_, none⟩ | ⟨ballotRM, strongest⟩
    · exact absurd isReference.candidate (none reference)
    · rw [isReference.unique strongest]
      exact unnamed
  · obtain ⟨ballotRM, strongest⟩ := named.resolve_left fun empty => unnamed empty.1
    have found : picked.voteMap.lookup picked.referenceGridb = some ballotRM := (kept _ _).mpr strongest.candidate
    have median := weightedMedianWithAssertion_eq strongest.candidate.ballot.1
    simp only [if_neg unnamed, found, Option.getD_some, median, ok_bind, ok_iffs, Prod.mk.injEq] at ok
    obtain ⟨tallied, loop, rfl, _⟩ := ok
    exact .inr ⟨⟨picked.referenceGridb, ballotRM⟩, _, strongest, unnamed, visited, loop⟩

/-- The claims after a tally: those of the active validators, with what they have earned. -/
theorem tallyVotes_claims (ok : tallyVotes ctx store = .ok (after, targets)) :
    ((∀ reference, IsReference ctx store reference → reference.1 = "") ∧ after.claims = validatorClaims ctx.staking) ∨
      ∃ reference, IsReference ctx store reference ∧ reference.1 ≠ "" ∧ ∀ voter, after.claims.lookup voter =
        ((validatorClaims ctx.staking).lookup voter).map (earn (earnedAgainst ctx store reference voter)) := by
  rcases tallyVotes_loop ok with idle | ⟨reference, ballots, isReference, named, visited, loop⟩
  · exact .inl idle
  · refine .inr ⟨reference, isReference, named, fun voter => ?_⟩
    rw [tallyBallots_claims loop, earnedAgainst]
    exact congrArg (fun earned => Option.map (earn earned) _) (visited.map _).sum_eq

theorem tallyVotes_targets (ok : tallyVotes ctx store = .ok (after, targets)) :
    targets = (pickReferenceGridb ctx store.voteTargets
      (organizeBallotByDenom store (validatorClaims ctx.staking))).voteTargets := by
  unfold tallyVotes at ok
  dsimp only at ok
  split at ok
  · cases ok
    rfl
  · simp only [ok_iffs, Prod.mk.injEq] at ok
    obtain ⟨_, _, _, _, _, rfl⟩ := ok
    rfl

/-! ## Whose claims they are -/

/-- Every claim lies under its recipient. -/
def Keyed (claims : Claims) : Prop := ∀ operator claim, claims.lookup operator = some claim → claim.recipient = operator

theorem validatorClaims_keyed (staking : Staking) : Keyed (validatorClaims staking) := by
  unfold validatorClaims
  apply List.foldlRecOn _ _ (motive := Keyed)
  · intro operator claim found
    simp at found
  · intro before keyed validator _ operator claim found
    rw [AList.lookup_insert_eq_ite] at found
    split at found
    · next same =>
      cases found
      exact same.symm
    · exact keyed operator claim found

/-- A tally makes no claims and moves none. -/
theorem tallyVotes_keyed (ok : tallyVotes ctx store = .ok (after, targets)) :
    Keyed after.claims ∧ ∀ operator, operator ∈ after.claims ↔ operator ∈ validatorClaims ctx.staking := by
  have start := validatorClaims_keyed ctx.staking
  rcases tallyVotes_claims ok with ⟨_, same⟩ | ⟨reference, _, _, lookups⟩
  · rw [same]
    exact ⟨start, fun operator => Iff.rfl⟩
  · refine ⟨fun operator claim found => ?_, fun operator => ?_⟩
    · rw [lookups, Option.map_eq_some_iff] at found
      obtain ⟨before, isBefore, rfl⟩ := found
      exact start operator before isBefore
    · rw [← AList.lookup_isSome, ← AList.lookup_isSome, lookups, Option.isSome_map]

/-! ## Misses and slashing

A tally charges each active validator at most one miss. At the end of a slash window the part of valid votes is compared
with the least one allowed; the comparison of truncated decimals is that of the exact fractions, as long as a validator
has not missed more votes than there were.
-/

open Model.Ve (toInt64 toInt64_of_lt)

/-! ## Counting misses -/

/-- A validator with a claim that did not win on every target is charged a miss. -/
def charged (targets : ℕ) (claims : Claims) (operator : ValAddress) : Bool :=
  (claims.lookup operator).any fun claim => decide (claim.winCount ≠ targets)

/-- Counters with one more miss for those charged. -/
theorem lookup_countMisses {targets : ℕ} {entries : List (Sigma fun _ : ValAddress => Claim)} (nodup : entries.NodupKeys)
    (keyed : ∀ entry ∈ entries, entry.2.recipient = entry.1) (counters : AList fun _ : ValAddress => ℕ)
    (operator : ValAddress) : (entries.foldl (countMiss targets) counters).lookup operator =
      if (entries.dlookup operator).any (fun claim => decide (claim.winCount ≠ targets)) then
        some ((counters.lookup operator).getD 0 + 1)
      else counters.lookup operator := by
  induction entries generalizing counters with
  | nil => simp
  | cons entry rest ih =>
    obtain ⟨key, power, weight, winCount, recipient⟩ := entry
    obtain ⟨fresh, restNodup⟩ := List.nodupKeys_cons.mp nodup
    obtain ⟨isKey, restKeyed⟩ := List.forall_mem_cons.mp keyed
    obtain rfl : recipient = key := isKey
    rw [List.foldl_cons, ih restNodup restKeyed]
    unfold countMiss
    by_cases same : operator = recipient
    · subst same
      rw [List.dlookup_eq_none.mpr fresh, List.dlookup_cons_eq]
      by_cases won : winCount = targets
      · simp [won]
      · simp [won]
    · rw [List.dlookup_cons_ne _ _ same]
      by_cases won : winCount = targets
      · simp [won]
      · simp [won, AList.lookup_insert_ne same]

/-- The counters after a vote period. -/
theorem lookup_missCounters {ctx : Ctx} {store : Store} {after : Tallied} {targets : VoteTargets}
    (ok : tallyVotes ctx store = .ok (after, targets)) (counters : AList fun _ : ValAddress => ℕ)
    (operator : ValAddress) :
    ((ctx.orders.misses.visit after.claims.entries).foldl (countMiss targets.entries.length) counters).lookup operator =
      if charged targets.entries.length after.claims operator then some ((counters.lookup operator).getD 0 + 1)
      else counters.lookup operator := by
  have visited := ctx.orders.misses.perm after.claims.entries
  have nodup : (ctx.orders.misses.visit after.claims.entries).NodupKeys :=
    (List.perm_nodupKeys visited).mpr after.claims.nodupKeys
  have keyed : ∀ entry ∈ ctx.orders.misses.visit after.claims.entries, entry.2.recipient = entry.1 := fun entry member =>
    (tallyVotes_keyed ok).1 entry.1 entry.2 (AList.mem_lookup_iff.mpr (visited.mem_iff.mp member))
  rw [lookup_countMisses nodup keyed, List.perm_dlookup operator nodup visited]
  rfl

/-! ## The rate of valid votes -/

/-- The number of vote periods in a slash window. -/
def votesPerWindow (params : Params) : ℕ := params.slashWindow / params.votePeriod

/-- Both windows as positive 64-bit numbers: the quotient of decimals is that of the numbers. -/
theorem votePeriodsPerWindow_eq {params : Params} (positive : params.votePeriod ≠ 0) (period : params.votePeriod < 2 ^ 63)
    (window : params.slashWindow < 2 ^ 63) :
    ((Dec.ofInt (toInt64 params.slashWindow)).quoInt (toInt64 params.votePeriod) >>= Dec.truncateInt64) =
      .ok (votesPerWindow params : ℤ) := by
  have quotient : ((params.slashWindow : ℤ) * Dec.precision).tdiv params.votePeriod =
      (params.slashWindow * Dec.precision / params.votePeriod : ℕ) := by
    rw [Int.tdiv_eq_ediv_of_nonneg (mul_nonneg (Int.natCast_nonneg _) (Int.natCast_nonneg _))]
    push_cast
    rfl
  have whole : (Dec.mk (params.slashWindow * Dec.precision / params.votePeriod : ℕ)).truncateInt =
      (votesPerWindow params : ℤ) := by
    rw [Dec.truncateInt, Int.tdiv_eq_ediv_of_nonneg (Int.natCast_nonneg _), votesPerWindow]
    norm_cast
    rw [Nat.div_div_eq_div_mul, Nat.mul_div_mul_right _ _ Dec.precision_pos]
  have fits : votesPerWindow params ≤ params.slashWindow := Nat.div_le_self _ _
  rw [toInt64_of_lt period, toInt64_of_lt window, Dec.quoInt, if_neg (by exact_mod_cast positive), Except.ok_bind,
    Dec.ofInt, quotient, Dec.truncateInt64, whole, Except.require, if_pos (by omega)]
  rfl

/-- The part of votes that are not missed is less than the least one allowed. -/
def Condemned (params : Params) (misses : ℕ) : Prop :=
  ((votesPerWindow params : ℤ) - misses) * Dec.precision < params.minValidPerWindow.raw * votesPerWindow params

instance (params : Params) (misses : ℕ) : Decidable (Condemned params misses) := inferInstanceAs (Decidable (_ < _))

/-- The truncated rate of valid votes, as the code computes it. -/
def validVoteRate (params : Params) (misses : ℕ) : Dec :=
  ⟨(Int.bmod (votesPerWindow params - misses) (2 ^ 64) * Dec.precision).tdiv (votesPerWindow params)⟩

/-- Truncation does not matter for a comparison with a whole number of units. -/
theorem validVoteRate_lt_iff {params : Params} (positive : votesPerWindow params ≠ 0)
    (small : votesPerWindow params < 2 ^ 63) {misses : ℕ} (within : misses ≤ votesPerWindow params) :
    validVoteRate params misses < params.minValidPerWindow ↔ Condemned params misses := by
  have unwrapped : Int.bmod (votesPerWindow params - misses) (2 ^ 64) = votesPerWindow params - misses :=
    Int.bmod_eq_of_le (by omega) (by omega)
  have nonneg : 0 ≤ ((votesPerWindow params : ℤ) - misses) * Dec.precision :=
    mul_nonneg (by omega) (Int.natCast_nonneg _)
  rw [Dec.lt_def, validVoteRate, unwrapped, Int.tdiv_eq_ediv_of_nonneg nonneg, Condemned]
  exact Int.ediv_lt_iff_lt_mul (by omega)

/-- A rate that counts as too low is too low. -/
theorem condemned_of_validVoteRate_lt {params : Params} (least : 0 ≤ params.minValidPerWindow.raw)
    (positive : votesPerWindow params ≠ 0) (small : votesPerWindow params < 2 ^ 63) {misses : ℕ}
    (low : validVoteRate params misses < params.minValidPerWindow) : Condemned params misses := by
  by_cases within : misses ≤ votesPerWindow params
  · exact (validVoteRate_lt_iff positive small within).mp low
  · have negative : ((votesPerWindow params : ℤ) - misses) * Dec.precision < 0 :=
      mul_neg_of_neg_of_pos (by omega) (by exact_mod_cast Dec.precision_pos)
    exact negative.trans_le (mul_nonneg least (Int.natCast_nonneg _))

/-! ## Slashing -/

theorem isSlashed_eq {ctx : Ctx} (positive : votesPerWindow ctx.params ≠ 0) (slashed : List ValAddress)
    (operator : ValAddress) (misses : ℕ) : isSlashed ctx (votesPerWindow ctx.params) slashed operator misses =
      if validVoteRate ctx.params misses < ctx.params.minValidPerWindow then do
        let validator ← deref (ctx.staking.afterSlashing slashed operator)
        pure (validator.bonded && !validator.jailed)
      else pure false := by
  rw [isSlashed, Dec.quoInt, if_neg (by exact_mod_cast positive), Except.ok_bind]
  rfl

end Rotofury.Soundness.Oracle
