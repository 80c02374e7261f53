import Rotofury.Soundness.Oracle.BlockEnd
import Rotofury.Soundness.Oracle.Reference

/-! # The rates of a period

A tally never fails, and the rate of each denomination is a function of its ballot and the reference ballot. The rates are
all positive exactly when the reference median is, and no quotient by a cross rate rounds down to zero.
-/

namespace Rotofury.Soundness.Oracle

open Model.Sdk Model.Oracle

variable {ctx : Ctx} {store : Store} {entry : Sigma fun _ : Denom => Ballot} {reference denom : Denom}
  {ballotRM ballot : Ballot}

theorem lookup_setExchangeRate (rates : AList fun _ : Denom => Dec) (denom query : Denom) (rate : Option Dec) :
    (setExchangeRate rates denom rate).lookup query =
      if query = denom then rate.or (rates.lookup query) else rates.lookup query := by
  cases rate with
  | none => simp [setExchangeRate]
  | some rate =>
    rw [setExchangeRate, AList.lookup_insert_eq_ite, Option.some_or]

/-- The loop over the ballots sets the rate of each. -/
theorem tallyBallots_ok (ctx : Ctx) (referenceGridb : Denom) (ballotRM : Ballot)
    {entries : List (Sigma fun _ : Denom => Ballot)} (nodup : entries.NodupKeys)
    (ordered : ∀ entry ∈ entries, Ordered entry.2) (before : Tallied) : ∃ tallied,
      entries.foldlM (tallyBallot ctx referenceGridb ballotRM.toMap ballotRM.weightedMedian) before = .ok tallied ∧
        ∀ denom, tallied.exchangeRates.lookup denom =
          ((entries.dlookup denom).bind (rateOf referenceGridb ballotRM denom)).or (before.exchangeRates.lookup denom) := by
  induction entries generalizing before with
  | nil => exact ⟨before, rfl, fun denom => by simp⟩
  | cons entry rest ih =>
    obtain ⟨denom, ballot⟩ := entry
    obtain ⟨fresh, nodupRest⟩ := List.nodupKeys_cons.mp nodup
    obtain ⟨headOrdered, restOrdered⟩ := List.forall_mem_cons.mp ordered
    obtain ⟨claims, headOk⟩ := tallyBallot_eq ctx referenceGridb ballotRM before headOrdered
    obtain ⟨tallied, restOk, rates⟩ := ih nodupRest restOrdered
      ⟨setExchangeRate before.exchangeRates denom (rateOf referenceGridb ballotRM denom ballot), claims⟩
    refine ⟨tallied, ?_, fun query => ?_⟩
    · rw [List.foldlM_cons, headOk, Except.ok_bind, restOk]
    · rw [rates, lookup_setExchangeRate]
      by_cases same : query = denom
      · subst same
        rw [List.dlookup_eq_none.mpr fresh, List.dlookup_cons_eq, if_pos rfl]
        rfl
      · rw [List.dlookup_cons_ne _ _ same, if_neg same]

/-- The published rates of a period. -/
theorem tallyVotes_ok (ctx : Ctx) (store : Store) : ∃ tallied targets, tallyVotes ctx store = .ok (tallied, targets) ∧
    ∀ denom rate, tallied.exchangeRates.lookup denom = some rate ↔
      ∃ reference ballot, reference.1 ≠ "" ∧ IsReference ctx store reference ∧ Passing ctx store ⟨denom, ballot⟩ ∧
        rateOf reference.1 reference.2 denom ballot = some rate := by
  obtain ⟨kept, named⟩ := pickReferenceGridb_spec ctx store
  unfold tallyVotes
  dsimp only
  generalize pickReferenceGridb ctx store.voteTargets (organizeBallotByDenom store (validatorClaims ctx.staking)) =
    picked at kept named ⊢
  by_cases unnamed : picked.referenceGridb = ""
  · refine ⟨⟨∅, validatorClaims ctx.staking⟩, picked.voteTargets, if_pos unnamed, fun denom rate => ?_⟩
    simp only [AList.lookup_empty, reduceCtorEq, false_iff]
    rintro ⟨reference, ballot, nonempty, isReference, passing, _⟩
    rcases named with ⟨_, none⟩ | ⟨ballotRM, strongest⟩
    · exact none _ passing
    · rw [isReference.unique strongest] at nonempty
      exact nonempty unnamed
  · obtain ⟨ballotRM, strongest⟩ := named.resolve_left fun empty => unnamed empty.1
    have found : picked.voteMap.lookup picked.referenceGridb = some ballotRM := (kept _ _).mpr strongest.candidate
    have visited := ctx.orders.tally.perm picked.voteMap.entries
    have nodup : (ctx.orders.tally.visit picked.voteMap.entries).NodupKeys :=
      (List.perm_nodupKeys visited).mpr picked.voteMap.nodupKeys
    have ordered : ∀ entry ∈ ctx.orders.tally.visit picked.voteMap.entries, Ordered entry.2 := fun entry member =>
      ((kept entry.1 entry.2).mp (AList.mem_lookup_iff.mpr (visited.mem_iff.mp member))).ballot.1
    obtain ⟨tallied, ok, rates⟩ := tallyBallots_ok ctx picked.referenceGridb ballotRM nodup ordered
      ⟨∅, validatorClaims ctx.staking⟩
    refine ⟨tallied, picked.voteTargets, ?_, fun denom rate => ?_⟩
    · have median := weightedMedianWithAssertion_eq strongest.candidate.ballot.1
      simp only [if_neg unnamed, found, Option.getD_some, median, Except.ok_bind, ok]
      rfl
    · have lookup : (ctx.orders.tally.visit picked.voteMap.entries).dlookup denom = picked.voteMap.lookup denom :=
        List.perm_dlookup denom nodup visited
      rw [rates, lookup, AList.lookup_empty, Option.or_none, Option.bind_eq_some_iff]
      constructor
      · rintro ⟨ballot, isKept, published⟩
        exact ⟨_, ballot, unnamed, strongest, (kept denom ballot).mp isKept, published⟩
      · rintro ⟨reference, ballot, _, isReference, passing, published⟩
        rw [isReference.unique strongest] at published
        exact ⟨ballot, (kept denom ballot).mpr passing, published⟩

/-- The rates that the tally of a store publishes. -/
def talliedRates (ctx : Ctx) (store : Store) : AList fun _ : Denom => Dec :=
  match tallyVotes ctx store with
  | .ok (tallied, _) => tallied.exchangeRates
  | .error _ => ∅

theorem lookup_talliedRates (ctx : Ctx) (store : Store) (denom : Denom) (rate : Dec) :
    (talliedRates ctx store).lookup denom = some rate ↔
      ∃ reference ballot, reference.1 ≠ "" ∧ IsReference ctx store reference ∧ Passing ctx store ⟨denom, ballot⟩ ∧
        rateOf reference.1 reference.2 denom ballot = some rate := by
  obtain ⟨tallied, targets, ok, rates⟩ := tallyVotes_ok ctx store
  rw [talliedRates, ok]
  exact rates denom rate

/-! ## Published rates -/

theorem Passing.power_ne_zero (passing : Passing ctx store entry) :
    Ballot.power entry.2 ≠ 0 := Nat.pos_iff_ne_zero.mp passing.2.power_pos

theorem Passing.nonempty (passing : Passing ctx store entry) : entry.2 ≠ [] := by
  intro empty
  apply passing.power_ne_zero
  rw [empty]
  rfl

/-- The votes that lead to a rate for a denomination: its ballot passes, and it is the reference or its median rate
against the reference is not zero. -/
def Publishes (ctx : Ctx) (store : Store) (denom : Denom) : Prop :=
  ∃ reference ballot, reference.1 ≠ "" ∧ IsReference ctx store reference ∧ Passing ctx store ⟨denom, ballot⟩ ∧
    (denom = reference.1 ∨ ∃ cross rate, ballot.toCrossRate (Ballot.toMap reference.2) = .ok cross ∧
      IsMedian cross rate ∧ rate.raw ≠ 0)

theorem rateOf_isSome_iff (nonempty : ballot ≠ []) :
    (∃ rate, rateOf reference ballotRM denom ballot = some rate) ↔
      denom = reference ∨ ∃ cross rate, ballot.toCrossRate ballotRM.toMap = .ok cross ∧ IsMedian cross rate ∧ rate.raw ≠ 0 := by
  by_cases same : denom = reference
  · rw [rateOf, if_pos same]
    exact iff_of_true ⟨_, rfl⟩ (.inl same)
  · rw [rateOf, if_neg same, or_iff_right same]
    obtain ⟨cross, ok, _⟩ := toCrossRate_ok (toMap_pos ballotRM) ballot
    have median := crossMedian_isMedian nonempty ok
    have nonneg := (toCrossRateWithSort_eq ballotRM ballot).2.2
    constructor
    · rintro ⟨rate, published⟩
      refine ⟨cross, _, ok, median, fun zero => ?_⟩
      rw [Dec.quo, Dec.scaledQuo, if_pos zero] at published
      cases published
    · rintro ⟨other, rate, otherSuccess, otherMedian, nonzero⟩
      obtain rfl := Except.ok.inj (ok.symm.trans otherSuccess)
      rw [otherMedian.unique median] at nonzero
      rw [Dec.quo_of_pos _ (lt_of_le_of_ne nonneg nonzero.symm)]
      exact ⟨_, rfl⟩

/-- A rate is published exactly for such votes. -/
theorem mem_talliedRates_iff (ctx : Ctx) (store : Store) (denom : Denom) :
    denom ∈ talliedRates ctx store ↔ Publishes ctx store denom := by
  rw [← AList.lookup_isSome, Option.isSome_iff_exists]
  simp only [lookup_talliedRates, Publishes]
  constructor
  · rintro ⟨rate, reference, ballot, named, isReference, passing, published⟩
    exact ⟨reference, ballot, named, isReference, passing, (rateOf_isSome_iff passing.nonempty).mp ⟨rate, published⟩⟩
  · rintro ⟨reference, ballot, named, isReference, passing, votes⟩
    obtain ⟨rate, published⟩ := (rateOf_isSome_iff passing.nonempty).mpr votes
    exact ⟨rate, reference, ballot, named, isReference, passing, published⟩

/-! ## Positive rates -/

/-- The votes for which every published rate is positive. The reference ballot has a power of at least two, or nobody
abstained in it; and for every other ballot that passes, the median of the rates against the reference is no larger than
`2 · 10 ^ 18` times the reference median, up to rounding. -/
def PositiveVotes (ctx : Ctx) (store : Store) : Prop :=
  ∀ reference, reference.1 ≠ "" → IsReference ctx store reference →
    (2 ≤ Ballot.power reference.2 ∨ ∀ vote ∈ reference.2, vote.exchangeRate.isPositive) ∧
    ∀ denom ballot cross rateRM rate, denom ≠ reference.1 → Passing ctx store ⟨denom, ballot⟩ →
      ballot.toCrossRate (Ballot.toMap reference.2) = .ok cross → IsMedian reference.2 rateRM → IsMedian cross rate →
      (5 * 10 ^ 17 + 1) * rate.raw ≤ rateRM.raw * 10 ^ 36

/-- The rate of a ballot that is not the reference. -/
theorem rateOf_cross_pos_iff {rate : Dec} (other : denom ≠ reference) (positive : ballotRM.weightedMedian.isPositive)
    (published : rateOf reference ballotRM denom ballot = some rate) :
    rate.isPositive ↔ (5 * 10 ^ 17 + 1) * (crossMedian ballotRM ballot).raw ≤ ballotRM.weightedMedian.raw * 10 ^ 36 := by
  rw [rateOf, if_neg other] at published
  have crossNonneg := (toCrossRateWithSort_eq ballotRM ballot).2.2
  have nonzero : (crossMedian ballotRM ballot).raw ≠ 0 := by
    intro zero
    rw [Dec.quo, Dec.scaledQuo, if_pos zero] at published
    cases published
  have crossPos : (crossMedian ballotRM ballot).isPositive := lt_of_le_of_ne crossNonneg nonzero.symm
  have divided := Dec.quo_of_pos ballotRM.weightedMedian crossPos
  rw [divided] at published
  cases published
  exact Dec.quo_pos_iff divided (le_of_lt positive) crossPos

/-- Every rate of a tally is positive exactly for such votes. -/
theorem talliedRates_pos_iff (ctx : Ctx) (store : Store) :
    (talliedRates ctx store).All Dec.isPositive ↔ PositiveVotes ctx store := by
  have published := lookup_talliedRates ctx store
  constructor
  · intro positive reference named isReference
    have passingRM := isReference.candidate
    have ownRate : rateOf reference.1 reference.2 reference.1 reference.2 = some (Ballot.weightedMedian reference.2) :=
      if_pos rfl
    have positiveRM : (Ballot.weightedMedian reference.2).isPositive :=
      positive reference.1 _ ((published _ _).mpr ⟨reference, reference.2, named, isReference, passingRM, ownRate⟩)
    refine ⟨(weightedMedian_pos_iff passingRM.ballot.1 passingRM.ballot.2 passingRM.power_ne_zero).mp positiveRM, ?_⟩
    intro denom ballot cross rateRM rate other passing ok medianRM median
    obtain rfl := medianRM.unique (weightedMedian_isMedian passingRM.ballot.1 passingRM.nonempty)
    obtain rfl := median.unique (crossMedian_isMedian passing.nonempty ok)
    have crossNonneg := (toCrossRateWithSort_eq reference.2 ballot).2.2
    rcases crossNonneg.eq_or_lt with zero | crossPos
    · rw [← zero, mul_zero]
      exact mul_nonneg (le_of_lt positiveRM) (by norm_num)
    · obtain ⟨crossRate, isRate⟩ : ∃ crossRate, rateOf reference.1 reference.2 denom ballot = some crossRate := by
        rw [rateOf, if_neg other, Dec.quo_of_pos _ crossPos]
        exact ⟨_, rfl⟩
      exact (rateOf_cross_pos_iff other positiveRM isRate).mp
        (positive denom crossRate ((published _ _).mpr ⟨reference, ballot, named, isReference, passing, isRate⟩))
  · intro votes denom rate found
    obtain ⟨reference, ballot, named, isReference, passing, isRate⟩ := (published denom rate).mp found
    obtain ⟨strong, bounded⟩ := votes reference named isReference
    have passingRM := isReference.candidate
    have positiveRM := (weightedMedian_pos_iff passingRM.ballot.1 passingRM.ballot.2 passingRM.power_ne_zero).mpr strong
    by_cases same : denom = reference.1
    · subst same
      rw [rateOf, if_pos rfl] at isRate
      cases isRate
      rw [passing.unique passingRM]
      exact positiveRM
    · obtain ⟨cross, ok, _⟩ := toCrossRate_ok (toMap_pos reference.2) ballot
      exact (rateOf_cross_pos_iff same positiveRM isRate).mpr (bounded denom ballot cross _ _ same passing ok
        (weightedMedian_isMedian passingRM.ballot.1 passingRM.nonempty) (crossMedian_isMedian passing.nonempty ok))

/-! ## The end of a block -/

/-- The rates change in the last block of a vote period only, to the rates of the tally. -/
theorem endBlocker_rates {state : State} {blockEnd : BlockEnd} (ok : endBlocker ctx state = .ok blockEnd) :
    blockEnd.state.store.exchangeRates =
      if (ctx.blockHeight + 1) % ctx.params.votePeriod = 0 then talliedRates ctx state.store
      else state.store.exchangeRates := by
  obtain ⟨_, _, middle, votes, slashes⟩ := endBlocker_ok ok
  have kept : blockEnd.state.store.exchangeRates = middle.store.exchangeRates := by
    unfold SlashPart at slashes
    split at slashes
    · rw [(endSlashWindow_ok slashes).2]
    · rw [slashes.1]
  rw [kept]
  unfold VotePart at votes
  split at votes
  · next ends =>
    obtain ⟨tallied, targets, counted, _, store⟩ := endVotePeriod_ok votes
    rw [if_pos ends, store, talliedRates, counted]
    rfl
  · next ends => rw [if_neg ends, votes.1]

/-- The rates that the end of a block writes are all positive exactly when the votes allow it. -/
theorem publishes_positive_iff {ctx : Ctx} {state : State} {blockEnd : BlockEnd}
    (success : endBlocker ctx state = .ok blockEnd) :
    ((ctx.blockHeight + 1) % ctx.params.votePeriod ≠ 0 →
      blockEnd.state.store.exchangeRates = state.store.exchangeRates) ∧
    ((ctx.blockHeight + 1) % ctx.params.votePeriod = 0 →
      (blockEnd.state.store.exchangeRates.All Dec.isPositive ↔ PositiveVotes ctx state.store)) := by
  rw [endBlocker_rates success]
  constructor
  · intro inside
    rw [if_neg inside]
  · intro last
    rw [if_pos last]
    exact talliedRates_pos_iff ctx state.store

/-- Two validators with a power of one each; the square root is that of the one variance that occurs. -/
def sampleCtx : Ctx where
  blockHeight := 9
  params := defaultParams
  staking :=
    { byPower := [⟨1, 1, true, false⟩, ⟨2, 1, true, false⟩]
      maxValidators := 100
      validator := fun operator => some ⟨operator, 1, true, false⟩
      totalBondedPower := 2 }
  orders := ⟨.listed _, .listed _, .listed _, .listed _, .listed _⟩
  floatSqrt := fun _ => ⟨707107 * 10 ^ 12⟩

/-- One of them votes for a price of one, the other one for the given price; zero is an abstention. -/
def sampleState (second : Dec) : State where
  store :=
    { exchangeRates := ∅
      prevotes := ∅
      votes := AList.insert 2 [⟨"uusm", second⟩] (AList.singleton 1 [⟨"uusm", Dec.one⟩])
      voteTargets := AList.singleton "uusm" ()
      missCounters := ∅ }
  bank := ⟨fun _ _ => 0, fun _ => 0⟩

/-- The ballot passes with a power of one; half of that is nothing, so the abstention is the median. -/
theorem zero_price_sample : sampleCtx.params.validate = .ok () ∧ ∃ blockEnd,
    endBlocker sampleCtx (sampleState Dec.zero) = .ok blockEnd ∧
      blockEnd.state.store.exchangeRates.lookup "uusm" = some Dec.zero := ⟨by decide, _, rfl, by decide⟩

/-- With two votes the only ballot has a power of two. -/
theorem sampleState_positiveVotes : PositiveVotes sampleCtx (sampleState Dec.one).store := by
  have ballots : organizeBallotByDenom (sampleState Dec.one).store (validatorClaims sampleCtx.staking) =
      AList.singleton "uusm" [⟨"uusm", Dec.one, 2, 1⟩, ⟨"uusm", Dec.one, 1, 1⟩] := rfl
  have only : ∀ denom ballot, Passing sampleCtx (sampleState Dec.one).store ⟨denom, ballot⟩ → denom = "uusm" := by
    rintro denom ballot ⟨found, _⟩
    rw [ballots] at found
    have inside := AList.lookup_isSome.mp (Option.isSome_of_eq_some found)
    simpa [AList.singleton] using inside
  rintro ⟨denom, ballot⟩ _ reference
  obtain rfl := only denom ballot reference.candidate
  refine ⟨.inl ?_, fun other otherBallot _ _ _ apart passing => absurd (only other otherBallot passing) apart⟩
  have found := reference.candidate.1
  rw [ballots] at found
  cases found
  decide

theorem publishes_positive_iff_sample : ∃ blockEnd, endBlocker sampleCtx (sampleState Dec.one) = .ok blockEnd ∧
    blockEnd.state.store.exchangeRates.lookup "uusm" = some Dec.one ∧
      blockEnd.state.store.exchangeRates.All Dec.isPositive :=
  ⟨_, rfl, by decide, ((publishes_positive_iff rfl).2 (by decide)).mpr sampleState_positiveVotes⟩

end Rotofury.Soundness.Oracle
