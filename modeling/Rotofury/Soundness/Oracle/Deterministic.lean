import Rotofury.Soundness.Oracle.SlashWindow
import Rotofury.ToMathlib.AListIndex

/-! # The order of map visits

The loops of a block's end visit Go maps, in any order. What they leave is the same for all orders: the ballots and the
reference are determined by the votes, claims and counters by sums over them, and coin sets by their amounts.
-/

namespace Rotofury.Soundness.Oracle

open Model.Sdk Model.App Model.Oracle

variable {κ ρ : Type} {targets leftTargets rightTargets : VoteTargets}
  {winners : List (Sigma fun _ : ValAddress => Claim)} {claims : Claims} {next : Bank}
  {allocations : List (ValAddress × List Coin)} {first : MapOrders} {final : State} {slashed : List ValAddress}
  {ctx : Ctx}

/-- The same call with other orders. -/
def under (ctx : Ctx) (orders : MapOrders) : Ctx := { ctx with orders := orders }

theorem toFinmap_eq_of_lookup [DecidableEq κ] {first second : AList fun _ : κ => ρ}
    (same : ∀ query, first.lookup query = second.lookup query) : first.toFinmap = second.toFinmap := by
  apply Finmap.ext_lookup
  intro query
  rw [Finmap.lookup_toFinmap, Finmap.lookup_toFinmap, same]

theorem voteTargets_ext {first second : VoteTargets} (same : ∀ denom, denom ∈ first ↔ denom ∈ second) :
    first.toFinmap = second.toFinmap := by
  apply toFinmap_eq_of_lookup
  intro denom
  apply Option.ext
  rintro ⟨⟩
  have isSome : ∀ targets : VoteTargets, targets.lookup denom = some () ↔ denom ∈ targets := fun targets => by
    rw [← AList.lookup_isSome, Option.isSome_iff_exists]
    exact ⟨fun found => ⟨(), found⟩, fun ⟨_, found⟩ => found⟩
  rw [isSome, isSome, same]

/-! ## The tally -/

section Tally

variable {ctx : Ctx} {first second : MapOrders} {store : Store} {left right : Tallied} {leftTargets rightTargets : VoteTargets}

theorem tallyVotes_rates {after : Tallied} (ok : tallyVotes ctx store = .ok (after, targets)) (denom : Denom)
    (rate : Dec) : after.exchangeRates.lookup denom = some rate ↔
      ∃ reference ballot, reference.1 ≠ "" ∧ IsReference ctx store reference ∧ Passing ctx store ⟨denom, ballot⟩ ∧
        rateOf reference.1 reference.2 denom ballot = some rate := by
  rw [← lookup_talliedRates, talliedRates, ok]

variable (isLeft : tallyVotes (under ctx first) store = .ok (left, leftTargets))
include isLeft

variable (isRight : tallyVotes (under ctx second) store = .ok (right, rightTargets))
include isRight

theorem rates_under : left.exchangeRates.toFinmap = right.exchangeRates.toFinmap := by
  apply toFinmap_eq_of_lookup
  intro denom
  apply Option.ext
  intro rate
  exact (tallyVotes_rates isLeft denom rate).trans (tallyVotes_rates isRight denom rate).symm

theorem claims_under : left.claims.toFinmap = right.claims.toFinmap := by
  rcases tallyVotes_claims isLeft with ⟨unnamed, unchanged⟩ | ⟨reference, isReference, named, lookups⟩ <;>
    rcases tallyVotes_claims isRight with ⟨otherUnnamed, otherUnchanged⟩ | ⟨other, isOther, otherNamed, otherLookups⟩
  · rw [unchanged, otherUnchanged]
    rfl
  · exact absurd (unnamed other isOther) otherNamed
  · exact absurd (otherUnnamed reference isReference) named
  · apply toFinmap_eq_of_lookup
    intro voter
    obtain rfl : reference = other := IsReference.unique (show IsReference ctx store _ from isReference) isOther
    rw [lookups, otherLookups]
    rfl

theorem targets_under : leftTargets.toFinmap = rightTargets.toFinmap := by
  apply voteTargets_ext
  intro denom
  rw [tallyVotes_targets isLeft, tallyVotes_targets isRight, mem_voteTargets_pickReferenceGridb_iff,
    mem_voteTargets_pickReferenceGridb_iff]
  rfl

end Tally

/-! ## Rewards -/

section Rewards

variable {ctx : Ctx} {bank : Bank} {distributionRatio : Dec} {denoms others : List Denom}

section

variable (visited : denoms.Perm others)
include visited

variable (nodup : denoms.Nodup)
include nodup

theorem rewardCoins_perm {share : Dec}
    (payable : ∀ reward ∈ denoms.filterMap (rewardOf bank distributionRatio), 0 ≤ (reward.2.mul share).raw) :
    rewardCoins (denoms.filterMap (rewardOf bank distributionRatio)) share =
      rewardCoins (others.filterMap (rewardOf bank distributionRatio)) share := by
  apply validCoins_ext (validCoins_rewardCoins payable)
    (validCoins_rewardCoins fun reward member => payable reward ((visited.filterMap _).mem_iff.mpr member))
  intro denom
  rw [amountOf_rewardCoins bank _ _ nodup, amountOf_rewardCoins bank _ _ (visited.nodup_iff.mp nodup)]
  simp only [visited.mem_iff]

variable {total : ℕ} (payable : Payable (denoms.filterMap (rewardOf bank distributionRatio)) total winners)
include payable

theorem paid_perm : ∀ winner ∈ winners, paid ctx (denoms.filterMap (rewardOf bank distributionRatio)) total winner =
    paid ctx (others.filterMap (rewardOf bank distributionRatio)) total winner := by
  intro winner member
  unfold paid
  rw [rewardCoins_perm visited nodup (payable winner member)]

theorem allocation_perm : winners.filterMap (allocation ctx (denoms.filterMap (rewardOf bank distributionRatio)) total) =
    winners.filterMap (allocation ctx (others.filterMap (rewardOf bank distributionRatio)) total) := by
  apply List.filterMap_congr
  intro winner member
  unfold allocation
  rw [paid_perm visited nodup payable winner member]

theorem payout_perm {reordered : List (Sigma fun _ : ValAddress => Claim)} (sameWinners : winners.Perm reordered) :
    Payable (others.filterMap (rewardOf bank distributionRatio)) total reordered ∧
      payout ctx bank distributionRatio denoms total winners = payout ctx bank distributionRatio others total reordered := by
  have payableOthers : Payable (others.filterMap (rewardOf bank distributionRatio)) total reordered :=
    fun winner member reward isReward =>
      payable winner (sameWinners.mem_iff.mpr member) reward ((visited.filterMap _).mem_iff.mpr isReward)
  refine ⟨payableOthers, validCoins_ext (validCoins_payout ctx payable) (validCoins_payout ctx payableOthers) fun denom => ?_⟩
  rw [payout, payout, amountOf_foldl_addToCoins, amountOf_foldl_addToCoins, amountOf_flatMap, amountOf_flatMap,
    ← (sameWinners.map _).sum_eq, List.map_congr_left fun winner member => by
      rw [paid_perm visited nodup payable winner member]]

end

/-- At most one allocation for each claim. -/
theorem allocated_nodup (keyed : Keyed claims) (rewards : List (Denom × Dec)) (total : ℕ)
    (visited : winners.Perm claims.entries) :
    ((winners.filterMap (allocation ctx rewards total)).map Prod.fst).Nodup := by
  have keys : (winners.map Sigma.fst).Nodup := (visited.map _).nodup_iff.mpr claims.keys_nodup
  have recipients : (winners.map fun winner => winner.2.recipient).Nodup := by
    have same : winners.map (fun winner => winner.2.recipient) = winners.map Sigma.fst :=
      List.map_congr_left fun winner member =>
        keyed winner.1 winner.2 (AList.mem_lookup_iff.mpr (visited.mem_iff.mp member))
    rwa [same]
  rw [filterMap_allocation, List.map_map]
  exact recipients.sublist (List.filter_sublist.map _)

theorem rewardBallotWinners_nodup (keyed : Keyed claims)
    (ok : rewardBallotWinners ctx bank targets claims = .ok (next, allocations)) :
    (allocations.map Prod.fst).Nodup := by
  rcases rewardBallotWinners_ok_iff.mp ok with ⟨_, _, rfl⟩ | ⟨_, _, rewarded⟩
  · exact List.nodup_nil
  · rw [rewarded.allocated]
    exact allocated_nodup keyed _ _ (ctx.orders.winners.perm claims.entries)

theorem rewardBallotWinners_under (second : MapOrders) {left right : Claims}
    (sameTargets : leftTargets.toFinmap = rightTargets.toFinmap) (sameClaims : left.toFinmap = right.toFinmap)
    (ok : rewardBallotWinners (under ctx first) bank leftTargets left = .ok (next, allocations)) :
    ∃ reordered, rewardBallotWinners (under ctx second) bank rightTargets right = .ok (next, reordered) ∧
      allocations.Perm reordered := by
  have claims : left.entries.Perm right.entries := AList.toFinmap_eq.mp sameClaims
  have weight : totalWeight left = totalWeight right := (claims.map _).sum_eq
  have winners : (first.winners.visit left.entries).Perm (second.winners.visit right.entries) :=
    (first.winners.perm _).trans (claims.trans (second.winners.perm _).symm)
  have denoms : (first.rewardDenoms.visit leftTargets.keys).Perm (second.rewardDenoms.visit rightTargets.keys) :=
    (first.rewardDenoms.perm _).trans (((AList.toFinmap_eq.mp sameTargets).map _).trans (second.rewardDenoms.perm _).symm)
  have nodup : (first.rewardDenoms.visit leftTargets.keys).Nodup :=
    (first.rewardDenoms.perm _).nodup_iff.mpr leftTargets.keys_nodup
  rcases rewardBallotWinners_ok_iff.mp ok with ⟨zero, rfl, rfl⟩ | ⟨nonzero, ratio, isRatio, held, payable, sent, rfl⟩
  · exact ⟨[], rewardBallotWinners_ok_iff.mpr (.inl ⟨weight ▸ zero, rfl, rfl⟩), .refl _⟩
  · obtain ⟨payableOthers, same⟩ : _ ∧ payout (under ctx first) _ _ _ _ _ = _ := payout_perm denoms nodup payable winners
    refine ⟨_, rewardBallotWinners_ok_iff.mpr (.inr ⟨weight ▸ nonzero, ratio, isRatio, ?_, ?_, ?_, rfl⟩), ?_⟩
    · exact fun denom member => held denom (denoms.mem_iff.mpr member)
    · rw [← weight]
      exact payableOthers
    · rw [← weight]
      exact same ▸ sent
    · rw [← weight]
      exact (List.Perm.of_eq (allocation_perm denoms nodup payable)).trans (winners.filterMap _)

end Rewards

/-! ## The parts of a block's end -/

/-- The same tables, as maps, and the same balances. -/
structure SameState (left right : State) : Prop where
  exchangeRates : left.store.exchangeRates.toFinmap = right.store.exchangeRates.toFinmap
  missCounters : left.store.missCounters.toFinmap = right.store.missCounters.toFinmap
  prevotes : left.store.prevotes = right.store.prevotes
  votes : left.store.votes = right.store.votes
  voteTargets : left.store.voteTargets = right.store.voteTargets
  bank : left.bank = right.bank

theorem SameState.refl (state : State) : SameState state state := ⟨rfl, rfl, rfl, rfl, rfl, rfl⟩

section Parts

variable {ctx : Ctx} {first second : MapOrders} {state left right : State} {allocations : List (ValAddress × List Coin)}

theorem missCounters_under {leftTallied rightTallied : Tallied}
    (isLeft : tallyVotes (under ctx first) state.store = .ok (leftTallied, leftTargets))
    (isRight : tallyVotes (under ctx second) state.store = .ok (rightTallied, rightTargets)) :
    ((first.misses.visit leftTallied.claims.entries).foldl (countMiss leftTargets.entries.length)
      state.store.missCounters).toFinmap =
    ((second.misses.visit rightTallied.claims.entries).foldl (countMiss rightTargets.entries.length)
      state.store.missCounters).toFinmap := by
  have lengths : leftTargets.entries.length = rightTargets.entries.length :=
    (AList.toFinmap_eq.mp (targets_under isLeft isRight)).length_eq
  have claims := claims_under isLeft isRight
  apply toFinmap_eq_of_lookup
  intro operator
  have leftCounters := lookup_missCounters isLeft state.store.missCounters operator
  have rightCounters := lookup_missCounters isRight state.store.missCounters operator
  have same : charged leftTargets.entries.length leftTallied.claims operator =
      charged rightTargets.entries.length rightTallied.claims operator := by
    rw [charged, charged, AList.lookup_congr claims operator, lengths]
  rw [same] at leftCounters
  exact leftCounters.trans rightCounters.symm

/-- The vote period's part does not depend on the orders. -/
theorem endVotePeriod_under (ok : endVotePeriod (under ctx first) state = .ok (left, allocations)) :
    ∃ right reordered, endVotePeriod (under ctx second) state = .ok (right, reordered) ∧ SameState left right ∧
      allocations.Perm reordered ∧ (allocations.map Prod.fst).Nodup := by
  obtain ⟨leftTallied, leftTargets, isLeft, paidLeft, storeLeft⟩ := endVotePeriod_ok ok
  obtain ⟨rightTallied, rightTargets, isRight, _⟩ := tallyVotes_ok (under ctx second) state.store
  obtain ⟨reordered, paidRight, moved⟩ := rewardBallotWinners_under second (targets_under isLeft isRight)
    (claims_under isLeft isRight) paidLeft
  refine ⟨_, reordered, endVotePeriod_of_parts isRight paidRight, ?_, moved, ?_⟩
  · obtain ⟨leftStore, leftBank⟩ := left
    obtain rfl : leftStore = _ := storeLeft
    exact ⟨rates_under isLeft isRight, missCounters_under isLeft isRight, rfl, rfl, rfl, rfl⟩
  · exact rewardBallotWinners_nodup (tallyVotes_keyed isLeft).1 paidLeft

theorem iterateMissCounters_congr {left right : Store} (same : left.missCounters.toFinmap = right.missCounters.toFinmap) :
    iterateMissCounters left = iterateMissCounters right := by
  have listed : (iterateMissCounters left).Perm (iterateMissCounters right) :=
    (List.perm_insertionSort _ _).trans ((AList.toFinmap_eq.mp same).trans (List.perm_insertionSort _ _).symm)
  apply listed.eq_of_pairwise _ (iterateMissCounters_ascending left) (iterateMissCounters_ascending right)
  intro first second _ _ less greater
  exact absurd greater (BitVec.not_lt.mpr (BitVec.le_of_lt less))

/-- The slash window's part depends on the counters as a map. -/
theorem endSlashWindow_under (same : SameState left right)
    (ok : endSlashWindow (under ctx first) left = .ok (final, slashed)) :
    ∃ other, endSlashWindow (under ctx second) right = .ok (other, slashed) ∧ SameState final other := by
  obtain ⟨reset, rfl⟩ := endSlashWindow_ok ok
  have counters := iterateMissCounters_congr same.missCounters
  have resetRight : slashAndResetMissCounters (under ctx second) right.store =
      .ok ({ right.store with missCounters := ∅ }, slashed) := by
    simp only [slashAndResetMissCounters, Except.ok_iffs, Prod.mk.injEq] at reset ⊢
    obtain ⟨quotient, isQuotient, periods, isPeriods, found, loop, _, rfl⟩ := reset
    exact ⟨quotient, isQuotient, periods, isPeriods, found, counters ▸ loop, trivial, rfl⟩
  refine ⟨{ right with store := { right.store with missCounters := ∅ } }, ?_, ?_⟩
  · rw [endSlashWindow, resetRight]
    rfl
  · exact ⟨same.exchangeRates, rfl, same.prevotes, same.votes, same.voteTargets, same.bank⟩

theorem votePart_under {middle : State} (votes : VotePart (under ctx first) state middle allocations) :
    ∃ other reordered, VotePart (under ctx second) state other reordered ∧ SameState middle other ∧
      allocations.Perm reordered ∧ (allocations.map Prod.fst).Nodup := by
  unfold VotePart at votes
  split at votes
  · next ends =>
    obtain ⟨other, reordered, ok, same, moved, distinct⟩ := endVotePeriod_under votes
    exact ⟨other, reordered, (if_pos ends).mpr ok, same, moved, distinct⟩
  · next ends =>
    obtain ⟨rfl, rfl⟩ := votes
    exact ⟨middle, [], (if_neg ends).mpr ⟨rfl, rfl⟩, .refl middle, .refl _, List.nodup_nil⟩

theorem slashPart_under (same : SameState left right) (slashes : SlashPart (under ctx first) left final slashed) :
    ∃ other, SlashPart (under ctx second) right other slashed ∧ SameState final other := by
  unfold SlashPart at slashes
  split at slashes
  · next ends =>
    obtain ⟨other, ok, sameFinal⟩ := endSlashWindow_under same slashes
    exact ⟨other, (if_pos ends).mpr ok, sameFinal⟩
  · next ends =>
    obtain ⟨rfl, rfl⟩ := slashes
    exact ⟨right, (if_neg ends).mpr ⟨rfl, rfl⟩, same⟩

end Parts

/-! ## The end of a block -/

/-- Allocations to distinct validators commute. -/
def AllocationsCommute {σ : Type} (allocate : σ → ValAddress × List Coin → σ) : Prop :=
  ∀ state first second, first.1 ≠ second.1 → allocate (allocate state first) second = allocate (allocate state second) first

/-- The same stores and the same calls; allocations are the same for everyone for whom they commute. -/
structure SameEnd (left right : BlockEnd) : Prop where
  state : SameState left.state right.state
  slashed : left.slashed = right.slashed
  allocated : ∀ (σ : Type) (allocate : σ → ValAddress × List Coin → σ), AllocationsCommute allocate →
    ∀ start, left.allocations.foldl allocate start = right.allocations.foldl allocate start

theorem foldl_allocate_perm {σ : Type} {allocate : σ → ValAddress × List Coin → σ} (commute : AllocationsCommute allocate)
    {left right : List (ValAddress × List Coin)} (moved : left.Perm right) (distinct : (left.map Prod.fst).Nodup)
    (start : σ) : left.foldl allocate start = right.foldl allocate start := by
  apply moved.foldl_eq'
  intro first isFirst second isSecond state
  by_cases same : first.1 = second.1
  · rw [List.inj_on_of_nodup_map distinct isFirst isSecond same]
  · exact commute state first second same

theorem endBlocker_under (second : MapOrders) {state : State} {left : BlockEnd}
    (ok : endBlocker (under ctx first) state = .ok left) :
    ∃ right, endBlocker (under ctx second) state = .ok right ∧ SameEnd left right := by
  obtain ⟨period, window, middle, votes, slashes⟩ := endBlocker_ok ok
  obtain ⟨other, reordered, votesRight, same, moved, distinct⟩ := votePart_under votes
  obtain ⟨final, slashesRight, sameFinal⟩ := slashPart_under same slashes
  refine ⟨⟨final, reordered, left.slashed⟩, endBlocker_of_parts period window votesRight slashesRight, sameFinal, rfl, ?_⟩
  intro σ allocate commute start
  exact foldl_allocate_perm commute moved distinct start

/-! ## The reference -/

/-- The passing vote target with the largest ballot power, the first in the alphabet on ties. -/
def IsLargest (ctx : Ctx) (store : Store) (entry : Sigma fun _ : Denom => Ballot) : Prop :=
  Passing ctx store entry ∧ ∀ other, Passing ctx store other → Ballot.power other.2 < Ballot.power entry.2 ∨
    (Ballot.power other.2 = Ballot.power entry.2 ∧ entry.1 ≤ other.1)

theorem IsReference.isLargest {store : Store} {entry : Sigma fun _ : Denom => Ballot}
    (isReference : IsReference ctx store entry) : IsLargest ctx store entry := by
  refine ⟨isReference.candidate, fun other passing => ?_⟩
  have unbeaten := isReference.unbeaten other passing
  rcases lt_trichotomy (Ballot.power other.2) (Ballot.power entry.2) with less | equal | more
  · exact .inl less
  · exact .inr ⟨equal, not_lt.mp fun before => unbeaten (.inr ⟨equal.symm, before⟩)⟩
  · exact absurd (.inl more) unbeaten

/-- The loop that sorts the ballots of a map, with the order of its visits. -/
def organizeBallotByDenomIn (order : MapOrder (Sigma fun _ : Denom => Ballot)) (store : Store) (claims : Claims) : VoteMap :=
  let votes := store.votes.entries.foldl (organizeVote claims) ∅
  (order.visit votes.entries).foldl (fun sorted entry => sorted.insert entry.1 (Ballot.sort entry.2)) ∅

theorem organizeBallotByDenomIn_listed (store : Store) (claims : Claims) :
    organizeBallotByDenomIn (.listed _) store claims = organizeBallotByDenom store claims := rfl

theorem lookup_foldl_insert [DecidableEq κ] (change : ρ → ρ) {entries : List (Sigma fun _ : κ => ρ)}
    (nodup : entries.NodupKeys) (start : AList fun _ : κ => ρ) (query : κ) :
    (entries.foldl (fun table entry => table.insert entry.1 (change entry.2)) start).lookup query =
      ((entries.dlookup query).map change).or (start.lookup query) := by
  induction entries generalizing start with
  | nil => simp
  | cons entry rest ih =>
    obtain ⟨key, record⟩ := entry
    obtain ⟨fresh, restNodup⟩ := List.nodupKeys_cons.mp nodup
    rw [List.foldl_cons, ih restNodup, AList.lookup_insert_eq_ite]
    by_cases same : query = key
    · subst same
      rw [List.dlookup_eq_none.mpr fresh, List.dlookup_cons_eq, if_pos rfl]
      rfl
    · rw [List.dlookup_cons_ne _ _ same, if_neg same]

/-- The ballots do not depend on the order in which they are sorted. -/
theorem organizeBallotByDenomIn_congr (order other : MapOrder (Sigma fun _ : Denom => Ballot)) (store : Store)
    (claims : Claims) : (organizeBallotByDenomIn order store claims).toFinmap =
      (organizeBallotByDenomIn other store claims).toFinmap := by
  have lookups : ∀ (order : MapOrder (Sigma fun _ : Denom => Ballot)) (denom : Denom),
      (organizeBallotByDenomIn order store claims).lookup denom =
        ((store.votes.entries.foldl (organizeVote claims) ∅).lookup denom).map Ballot.sort := by
    intro order denom
    have visited := order.perm (store.votes.entries.foldl (organizeVote claims) ∅).entries
    have nodup := (List.perm_nodupKeys visited).mpr (AList.nodupKeys _)
    rw [organizeBallotByDenomIn, lookup_foldl_insert Ballot.sort nodup, List.perm_dlookup denom nodup visited,
      AList.lookup_empty, Option.or_none]
    rfl
  exact toFinmap_eq_of_lookup fun denom => (lookups order denom).trans (lookups other denom).symm

/-- The end of a block does not depend on the orders in which maps are visited, and the reference is the largest passing
vote target. -/
theorem endBlocker_deterministic (ctx : Ctx) (state : State) (first second : MapOrders)
    (order : MapOrder (Sigma fun _ : Denom => Ballot)) :
    (∀ left, endBlocker (under ctx first) state = .ok left →
      ∃ right, endBlocker (under ctx second) state = .ok right ∧ SameEnd left right) ∧
    (organizeBallotByDenomIn order state.store (validatorClaims ctx.staking)).toFinmap =
      (organizeBallotByDenom state.store (validatorClaims ctx.staking)).toFinmap ∧
    ∀ picked, picked = pickReferenceGridb (under ctx first) state.store.voteTargets
        (organizeBallotByDenom state.store (validatorClaims ctx.staking)) →
      (picked.referenceGridb = "" ∧ ∀ entry, ¬ Passing ctx state.store entry) ∨
        ∃ ballot, IsLargest ctx state.store ⟨picked.referenceGridb, ballot⟩ := by
  refine ⟨fun left success => endBlocker_under second success, ?_, ?_⟩
  · exact organizeBallotByDenomIn_congr order (.listed _) state.store (validatorClaims ctx.staking)
  · rintro picked rfl
    rcases (pickReferenceGridb_spec (under ctx first) state.store).2 with unnamed | ⟨ballot, isReference⟩
    · exact .inl unnamed
    · exact .inr ⟨ballot, isReference.isLargest⟩

/-- The other way round. -/
def reversed (α : Type) : MapOrder α := ⟨List.reverse, List.reverse_perm⟩

/-- Two validators that agree on two rates; the first denomination is the reference. -/
def agreedState (first second : Dec) : State where
  store :=
    { exchangeRates := ∅
      prevotes := ∅
      votes := AList.insert 2 [⟨"uaa", first⟩, ⟨"ubb", second⟩] (AList.singleton 1 [⟨"uaa", first⟩, ⟨"ubb", second⟩])
      voteTargets := AList.insert "ubb" () (AList.singleton "uaa" ())
      missCounters := ∅ }
  bank := ⟨fun account _ => if account = ModuleAccount.oracle.address then 2000000 else 0, fun _ => 2000000⟩

/-- Two ballots, two claims and two vote targets, visited in both orders. -/
theorem endBlocker_deterministic_sample : ∃ left right,
    endBlocker (under sampleCtx ⟨.listed _, .listed _, .listed _, .listed _, .listed _⟩)
      (agreedState Dec.one ⟨10 ^ 24⟩) = .ok left ∧
    endBlocker (under sampleCtx ⟨reversed _, reversed _, reversed _, reversed _, reversed _⟩)
      (agreedState Dec.one ⟨10 ^ 24⟩) = .ok right ∧ SameEnd left right := by
  obtain ⟨left, success⟩ : ∃ left, endBlocker (under sampleCtx ⟨.listed _, .listed _, .listed _, .listed _, .listed _⟩)
      (agreedState Dec.one ⟨10 ^ 24⟩) = .ok left := ⟨_, rfl⟩
  obtain ⟨right, other, same⟩ := (endBlocker_deterministic sampleCtx (agreedState Dec.one ⟨10 ^ 24⟩)
    ⟨.listed _, .listed _, .listed _, .listed _, .listed _⟩
    ⟨reversed _, reversed _, reversed _, reversed _, reversed _⟩ (.listed _)).1 left success
  exact ⟨left, right, success, other, same⟩

end Rotofury.Soundness.Oracle
