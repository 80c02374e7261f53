import Rotofury.Model.Oracle.EndBlock
import Rotofury.Soundness.Oracle.Median

/-! # Ballots and the reference ballot

The ballots that are gathered are in order, and only votes with a positive rate have power in them. Whatever order the
map of ballots is visited in, the loop keeps exactly the passing ballots of vote targets, and picks the one with the most
power, the first in the alphabet where several have it.
-/

namespace Rotofury.Soundness.Oracle

open Model.Sdk Model.Oracle Except

/-! ## The rate of one ballot

What the loop over the ballots publishes for one denomination depends on its ballot and on the reference ballot only: the
median of the reference itself, and for any other ballot the reference median over the median of the cross rates, if that
is not zero. None of the computations fails.
-/

section

/-- Only positive rates become bases of cross rates. -/
theorem toMap_pos (ballot : Ballot) : ballot.toMap.All Dec.isPositive := by
  apply (AList.all_empty Dec.isPositive).foldl
  intro rates positive vote _
  split
  · next votePositive => exact positive.insert vote.voter votePositive
  · exact positive

variable {bases : AList fun _ : ValAddress => Dec} (positiveBases : bases.All Dec.isPositive)

section Cross

include positiveBases

theorem crossVote_ok (vote : VoteForTally) :
    ∃ cross, Ballot.crossVote bases vote = .ok cross ∧ 0 ≤ cross.exchangeRate.raw := by
  unfold Ballot.crossVote
  split
  · next base found =>
    split
    · next positive =>
      have divided := Dec.quo_of_pos base positive
      have nonneg := Dec.quo_nonneg divided (le_of_lt (positiveBases _ base found)) positive
      rw [divided]
      exact ⟨_, rfl, nonneg⟩
    · exact ⟨_, rfl, le_rfl⟩
  · exact ⟨_, rfl, le_rfl⟩

theorem toCrossRate_ok (ballot : Ballot) :
    ∃ cross, ballot.toCrossRate bases = .ok cross ∧ ∀ vote ∈ cross, 0 ≤ vote.exchangeRate.raw := by
  induction ballot with
  | nil => exact ⟨[], rfl, by simp⟩
  | cons vote rest ih =>
    obtain ⟨crossRest, restOk, restNonneg⟩ := ih
    obtain ⟨cross, voteOk, voteNonneg⟩ := crossVote_ok positiveBases vote
    refine ⟨cross :: crossRest, ?_, List.forall_mem_cons.mpr ⟨voteNonneg, restNonneg⟩⟩
    rw [Ballot.toCrossRate] at restOk ⊢
    rw [List.mapM_cons, voteOk, ok_bind, restOk]
    rfl

end Cross

/-- The cross rates of a ballot against the reference ballot. -/
def crossBallot (ballotRM ballot : Ballot) : Ballot :=
  match ballot.toCrossRateWithSort ballotRM.toMap with
  | .ok cross => cross
  | .error _ => []

/-- The median cross rate of a ballot. -/
def crossMedian (ballotRM ballot : Ballot) : Dec := (crossBallot ballotRM ballot).weightedMedian

/-- The median cross rate is the median of the cross rates. -/
theorem crossMedian_isMedian {ballotRM ballot cross : Ballot} (nonempty : ballot ≠ [])
    (ok : ballot.toCrossRate ballotRM.toMap = .ok cross) : IsMedian cross (crossMedian ballotRM ballot) := by
  have crossNonempty : Ballot.sort cross ≠ [] := by
    obtain ⟨vote, rest, rfl⟩ := List.exists_cons_of_ne_nil nonempty
    simp only [Ballot.toCrossRate, List.mapM_cons, ok_iffs] at ok
    obtain ⟨first, _, others, _, rfl⟩ := ok
    exact List.ne_nil_of_mem (mem_sort.mpr List.mem_cons_self)
  have same : crossBallot ballotRM ballot = Ballot.sort cross := by
    rw [crossBallot, Ballot.toCrossRateWithSort, ok]
    rfl
  rw [crossMedian, same]
  exact isMedian_sort.mp (weightedMedian_isMedian (ordered_sort cross) crossNonempty)

theorem toCrossRateWithSort_eq (ballotRM ballot : Ballot) :
    ballot.toCrossRateWithSort ballotRM.toMap = .ok (crossBallot ballotRM ballot) ∧
      Ordered (crossBallot ballotRM ballot) ∧ 0 ≤ (crossMedian ballotRM ballot).raw := by
  obtain ⟨cross, ok, nonneg⟩ := toCrossRate_ok (toMap_pos ballotRM) ballot
  have sorted : ballot.toCrossRateWithSort ballotRM.toMap = .ok (Ballot.sort cross) := by
    rw [Ballot.toCrossRateWithSort, ok]
    rfl
  have same : crossBallot ballotRM ballot = Ballot.sort cross := by
    rw [crossBallot, sorted]
  rw [crossMedian, same]
  refine ⟨sorted, ordered_sort cross, medianFrom_of_forall (0 ≤ ·.raw) le_rfl (fun vote member => ?_) 0⟩
  exact nonneg vote (mem_sort.mp member)

/-- The rate that is published for a ballot, if any. -/
def rateOf (referenceGridb : Denom) (ballotRM : Ballot) (denom : Denom) (ballot : Ballot) : Option Dec :=
  if denom = referenceGridb then some ballot.weightedMedian
  else (ballotRM.weightedMedian.quo (crossMedian ballotRM ballot)).toOption

/-- The part of one ballot in the loop; the claims do not affect the rates. -/
theorem tallyBallot_eq (ctx : Ctx) (referenceGridb : Denom) (ballotRM : Ballot) (tallied : Tallied) {denom : Denom}
    {ballot : Ballot} (ordered : Ordered ballot) : ∃ claims,
      tallyBallot ctx referenceGridb ballotRM.toMap ballotRM.weightedMedian tallied ⟨denom, ballot⟩ =
        .ok ⟨setExchangeRate tallied.exchangeRates denom (rateOf referenceGridb ballotRM denom ballot), claims⟩ := by
  obtain ⟨cross, crossOrdered, crossNonneg⟩ := toCrossRateWithSort_eq ballotRM ballot
  unfold tallyBallot talliedBallot publishedRate rateOf
  by_cases same : denom = referenceGridb
  · simp only [same, ne_eq, not_true_eq_false, if_false, if_true, tally, weightedMedianWithAssertion_eq ordered,
      ok_bind, pure_bind]
    exact ⟨_, rfl⟩
  · simp only [same, ne_eq, not_false_eq_true, if_false, if_true, tally, cross,
      weightedMedianWithAssertion_eq crossOrdered, ok_bind, pure_bind]
    rw [crossMedian] at crossNonneg ⊢
    generalize (crossBallot ballotRM ballot).weightedMedian = median at crossNonneg ⊢
    by_cases zero : median.isZero
    · have failed : ballotRM.weightedMedian.quo median = .error (.panic "division by zero") := by
        have scaled : Dec.scaledQuo ballotRM.weightedMedian median = .error (.panic "division by zero") := if_pos zero
        rw [Dec.quo, scaled]
        rfl
      rw [if_pos zero, failed]
      exact ⟨_, rfl⟩
    · have divided := Dec.quo_of_pos ballotRM.weightedMedian (lt_of_le_of_ne crossNonneg (Ne.symm zero))
      rw [if_neg zero, divided]
      exact ⟨_, rfl⟩

end

variable {votes : VoteMap} {left right : Sigma fun _ : Denom => Ballot} {after : Picked} {ctx : Ctx} {store : Store}

/-! ## Gathering the ballots -/

/-- Every vote of every ballot has a property, given the denomination of the ballot. -/
def Votes (property : Denom → VoteForTally → Prop) (votes : VoteMap) : Prop :=
  ∀ denom ballot, votes.lookup denom = some ballot → ∀ vote ∈ ballot, property denom vote

section Gather

variable {property : Denom → VoteForTally → Prop} {denom : Denom} {ballot : Ballot}

theorem Votes.insert (all : Votes property votes) (holds : ∀ vote ∈ ballot, property denom vote) :
    Votes property (votes.insert denom ballot) :=
  AList.forall_lookup_insert holds all

theorem Votes.organizeTuple (all : Votes property votes) {voter : ValAddress} {power : ℕ} {tuple : ExchangeRateTuple}
    (holds : property tuple.denom
      ⟨tuple.denom, tuple.exchangeRate, voter, if tuple.exchangeRate.isPositive then power else 0⟩) :
    Votes property (organizeTuple voter power votes tuple) := by
  apply all.insert
  intro vote member
  rcases List.mem_append.mp member with earlier | last
  · cases found : votes.lookup tuple.denom with
    | none =>
      rw [found] at earlier
      simp at earlier
    | some ballot =>
      rw [found] at earlier
      exact all tuple.denom ballot found vote earlier
  · obtain rfl := List.mem_singleton.mp last
    exact holds

/-- A property of all votes that are cast by claimants is one of all ballots. -/
theorem organizeBallotByDenom_votes {claims : Claims}
    (holds : ∀ voter tuples claim, store.votes.lookup voter = some tuples → claims.lookup voter = some claim →
      ∀ tuple ∈ tuples, property tuple.denom
        ⟨tuple.denom, tuple.exchangeRate, voter, if tuple.exchangeRate.isPositive then claim.power else 0⟩) :
    Votes property (organizeBallotByDenom store claims) := by
  have start : Votes property ∅ := by
    intro denom ballot found
    simp at found
  have gathered : Votes property (store.votes.entries.foldl (organizeVote claims) ∅) := by
    refine List.foldlRecOn _ _ start fun before all vote member => ?_
    unfold organizeVote
    split
    · next claim found =>
      refine List.foldlRecOn _ _ all fun votes kept tuple isTuple => kept.organizeTuple ?_
      exact holds vote.1 vote.2 claim (AList.mem_lookup_iff.mpr member) found tuple isTuple
    · exact all
  refine List.foldlRecOn _ _ start fun before all entry member => all.insert fun vote sorted => ?_
  exact gathered entry.1 entry.2 (AList.mem_lookup_iff.mpr member) vote (mem_sort.mp sorted)

end Gather

theorem organizeBallotByDenom_ballots (store : Store) (claims : Claims) :
    (organizeBallotByDenom store claims).All fun ballot => Ordered ballot ∧ Weighted ballot := by
  have ordered : (organizeBallotByDenom store claims).All Ordered :=
    (AList.all_empty Ordered).foldl fun before kept entry _ => kept.insert entry.1 (ordered_sort entry.2)
  have weighted : Votes (fun _ vote => 0 < vote.power → vote.exchangeRate.isPositive)
      (organizeBallotByDenom store claims) := by
    refine organizeBallotByDenom_votes fun voter tuples claim _ _ tuple _ powered => ?_
    by_contra abstained
    simp only [if_neg abstained, lt_irrefl] at powered
  exact fun denom ballot found => ⟨ordered denom ballot found, weighted denom ballot found⟩

/-! ## Picking the reference -/

section Pick

variable {threshold : ℤ} {targets : VoteTargets} {votes : VoteMap} {seen rest : List (Sigma fun _ : Denom => Ballot)}
  {picked : Picked} {entry : Sigma fun _ : Denom => Ballot}

/-- A passing ballot of a vote target. -/
def Passes (threshold : ℤ) (targets : VoteTargets) (entry : Sigma fun _ : Denom => Ballot) : Prop :=
  entry.1 ∈ targets ∧ ballotIsPassing entry.2 threshold = true

theorem Passes.power_pos (passes : Passes threshold targets entry) : 0 < Ballot.power entry.2 := by
  have := passes.2
  simp only [ballotIsPassing, decide_eq_true_eq] at this
  omega

/-- More power, or as much and earlier in the alphabet. -/
def Outranks (left right : Sigma fun _ : Denom => Ballot) : Prop :=
  Ballot.power right.2 < Ballot.power left.2 ∨ (Ballot.power right.2 = Ballot.power left.2 ∧ left.1 < right.1)

theorem not_outranks_self (entry : Sigma fun _ : Denom => Ballot) : ¬ Outranks entry entry := by
  rintro (less | ⟨_, before⟩)
  · exact lt_irrefl _ less
  · exact lt_irrefl _ before

theorem Outranks.trans {middle : Sigma fun _ : Denom => Ballot} (upper : Outranks left middle)
    (lower : Outranks middle right) : Outranks left right := by
  rcases upper with more | ⟨equal, before⟩ <;> rcases lower with more' | ⟨equal', before'⟩
  · exact .inl (more'.trans more)
  · exact .inl (equal'.trans_lt more)
  · exact .inl (more'.trans_eq equal)
  · exact .inr ⟨equal'.trans equal, before.trans before'⟩

/-- A ballot that no candidate outranks. -/
structure Strongest (among : (Sigma fun _ : Denom => Ballot) → Prop) (entry : Sigma fun _ : Denom => Ballot) : Prop where
  candidate : among entry
  unbeaten : ∀ other, among other → ¬ Outranks other entry

/-- What the loop has picked among the ballots seen so far. -/
inductive Leads (among : (Sigma fun _ : Denom => Ballot) → Prop) (picked : Picked) : Prop
  | nobody (none : ∀ entry, ¬ among entry) (power : picked.largestBallotPower = 0) (name : picked.referenceGridb = "")
  | somebody (entry : Sigma fun _ : Denom => Ballot) (strongest : Strongest among entry)
      (power : picked.largestBallotPower = Ballot.power entry.2) (name : picked.referenceGridb = entry.1)

/-- What the loop knows after some ballots. -/
structure PickedAmong (threshold : ℤ) (targets : VoteTargets) (votes : VoteMap)
    (seen : List (Sigma fun _ : Denom => Ballot)) (picked : Picked) : Prop where
  voteMap : ∀ denom ballot, picked.voteMap.lookup denom = some ballot ↔
    votes.lookup denom = some ballot ∧ ∀ entry ∈ seen, entry.1 = denom → Passes threshold targets entry
  voteTargets : ∀ denom, denom ∈ picked.voteTargets ↔
    denom ∈ targets ∧ ∀ entry ∈ seen, entry.1 = denom → ballotIsPassing entry.2 threshold = true
  leads : Leads (fun entry => entry ∈ seen ∧ Passes threshold targets entry) picked

section

variable (leads : Leads (fun entry => entry ∈ seen ∧ Passes threshold targets entry) picked)
include leads

/-- The candidates do not change with a ballot that does not pass. -/
theorem Leads.skip (fails : ¬ Passes threshold targets entry)
    (power : after.largestBallotPower = picked.largestBallotPower) (name : after.referenceGridb = picked.referenceGridb) :
    Leads (fun other => other ∈ seen ++ [entry] ∧ Passes threshold targets other) after := by
  have same : (fun other => other ∈ seen ++ [entry] ∧ Passes threshold targets other) =
      fun other => other ∈ seen ∧ Passes threshold targets other := by
    funext other
    rw [List.mem_append, List.mem_singleton, eq_iff_iff]
    constructor
    · rintro ⟨member | rfl, passes⟩
      · exact ⟨member, passes⟩
      · exact absurd passes fails
    · rintro ⟨member, passes⟩
      exact ⟨.inl member, passes⟩
  rw [same]
  cases leads with
  | nobody none zero empty => exact .nobody none (power.trans zero) (name.trans empty)
  | somebody leader strongest powered named => exact .somebody leader strongest (power.trans powered) (name.trans named)

/-- A passing ballot takes the lead if it outranks the leader. -/
theorem Leads.consider (passes : Passes threshold targets entry) :
    Leads (fun other => other ∈ seen ++ [entry] ∧ Passes threshold targets other)
      (if picked.largestBallotPower < Ballot.power entry.2 ∨ picked.largestBallotPower = 0 then
        { picked with referenceGridb := entry.1, largestBallotPower := Ballot.power entry.2 }
      else if picked.largestBallotPower = Ballot.power entry.2 ∧ entry.1 < picked.referenceGridb then
        { picked with referenceGridb := entry.1 }
      else picked) := by
  have isNew : entry ∈ seen ++ [entry] := by simp
  have unbeaten : ∀ chosen, (∀ other, other ∈ seen ∧ Passes threshold targets other → ¬ Outranks other chosen) →
      ¬ Outranks entry chosen → ∀ other, other ∈ seen ++ [entry] ∧ Passes threshold targets other →
        ¬ Outranks other chosen := by
    rintro chosen old new other ⟨member, otherPasses⟩
    rcases List.mem_append.mp member with earlier | last
    · exact old other ⟨earlier, otherPasses⟩
    · rw [List.mem_singleton.mp last]
      exact new
  cases leads with
  | nobody none zero empty =>
    rw [if_pos (.inr zero)]
    refine .somebody entry ⟨⟨isNew, passes⟩, unbeaten entry ?_ (not_outranks_self entry)⟩ rfl rfl
    exact fun other candidate => absurd candidate (none other)
  | somebody leader strongest powered named =>
    have leaderPower := strongest.candidate.2.power_pos
    have promoted : Outranks entry leader →
        Strongest (fun other => other ∈ seen ++ [entry] ∧ Passes threshold targets other) entry := by
      intro outranks
      refine ⟨⟨isNew, passes⟩, unbeaten entry ?_ (not_outranks_self entry)⟩
      exact fun other candidate better => strongest.unbeaten other candidate (better.trans outranks)
    split
    · next stronger => exact .somebody entry (promoted (.inl (by omega))) rfl rfl
    · next notStronger =>
      split
      · next tie =>
        have outranks : Outranks entry leader := .inr ⟨by omega, named ▸ tie.2⟩
        exact .somebody entry (promoted outranks) tie.1 rfl
      · next noTie =>
        have weaker : ¬ Outranks entry leader := by
          rintro (more | ⟨equal, before⟩)
          · omega
          · exact noTie ⟨powered.trans equal, named ▸ before⟩
        refine .somebody leader ⟨⟨List.mem_append_left _ strongest.candidate.1, strongest.candidate.2⟩, ?_⟩ powered named
        exact unbeaten leader strongest.unbeaten weaker

end

theorem forall_mem_append_singleton {property : (Sigma fun _ : Denom => Ballot) → Prop} :
    (∀ other ∈ seen ++ [entry], property other) ↔ (∀ other ∈ seen, property other) ∧ property entry := by
  rw [List.forall_mem_append, List.forall_mem_singleton]

variable (known : PickedAmong threshold targets votes seen picked)
include known

/-- A ballot that does not pass leaves the map. -/
theorem PickedAmong.drop (fails : ¬ Passes threshold targets entry) (denom : Denom) (ballot : Ballot) :
    (picked.voteMap.erase entry.1).lookup denom = some ballot ↔ votes.lookup denom = some ballot ∧
      ∀ other ∈ seen ++ [entry], other.1 = denom → Passes threshold targets other := by
  rw [forall_mem_append_singleton]
  by_cases same : denom = entry.1
  · subst same
    simp [fails]
  · rw [AList.lookup_erase_ne same, known.voteMap]
    simp [Ne.symm same]

/-- A ballot that passes stays in the map, with its target. -/
theorem PickedAmong.keep (passes : Passes threshold targets entry) (sameMap : after.voteMap = picked.voteMap)
    (sameTargets : after.voteTargets = picked.voteTargets)
    (leads : Leads (fun other => other ∈ seen ++ [entry] ∧ Passes threshold targets other) after) :
    PickedAmong threshold targets votes (seen ++ [entry]) after := by
  refine ⟨fun denom ballot => ?_, fun denom => ?_, leads⟩
  · rw [forall_mem_append_singleton, sameMap, known.voteMap]
    tauto
  · rw [forall_mem_append_singleton, sameTargets, known.voteTargets]
    have := passes.2
    tauto

/-- One ballot of the loop. -/
theorem PickedAmong.consider (fresh : entry.1 ∉ seen.keys) :
    PickedAmong threshold targets votes (seen ++ [entry]) (considerBallot threshold picked entry) := by
  have unseen : ∀ other ∈ seen, other.1 ≠ entry.1 := fun other member same =>
    fresh (same ▸ List.mem_keys_of_mem member)
  have isTarget : entry.1 ∈ picked.voteTargets ↔ entry.1 ∈ targets := by
    rw [known.voteTargets, and_iff_left]
    exact fun other member same => absurd same (unseen other member)
  unfold considerBallot
  split
  · next noTarget =>
    rw [isTarget] at noTarget
    have fails : ¬ Passes threshold targets entry := fun passes => noTarget passes.1
    refine ⟨known.drop fails, fun denom => ?_, known.leads.skip fails rfl rfl⟩
    have elsewhere : denom ∈ targets → entry.1 ≠ denom := fun target same => noTarget (same ▸ target)
    rw [forall_mem_append_singleton, known.voteTargets]
    tauto
  · next target =>
    rw [not_not, isTarget] at target
    split
    · next notPassing =>
      have fails : ¬ Passes threshold targets entry := fun passes => by simp [passes.2] at notPassing
      refine ⟨known.drop fails, fun denom => ?_, known.leads.skip fails rfl rfl⟩
      rw [forall_mem_append_singleton, AList.mem_erase, known.voteTargets, notPassing]
      simp only [Bool.false_eq_true, imp_false, ne_eq, eq_comm]
      tauto
    · next passing =>
      have passes : Passes threshold targets entry := ⟨target, by simpa using passing⟩
      apply known.keep passes _ _ (known.leads.consider passes)
      · split_ifs <;> rfl
      · split_ifs <;> rfl

/-- The loop over the ballots. -/
theorem PickedAmong.foldl (nodup : (seen ++ rest).NodupKeys) :
    PickedAmong threshold targets votes (seen ++ rest) (rest.foldl (considerBallot threshold) picked) := by
  induction rest generalizing seen picked with
  | nil =>
    rw [List.append_nil]
    exact known
  | cons entry rest ih =>
    have fresh : entry.1 ∉ seen.keys := by
      have := List.notMem_keys_of_nodupKeys_cons (List.nodupKeys_middle.mp nodup)
      rw [List.keys_append, List.mem_append, not_or] at this
      exact this.1
    rw [List.append_cons] at nodup ⊢
    exact ih (known.consider fresh) nodup

end Pick

/-! ## The ballots of a period -/

/-- The denomination is a vote target, and its ballot passes the threshold. -/
def Passing (ctx : Ctx) (store : Store) (entry : Sigma fun _ : Denom => Ballot) : Prop :=
  (organizeBallotByDenom store (validatorClaims ctx.staking)).lookup entry.1 = some entry.2 ∧
    Passes (thresholdVotes ctx) store.voteTargets entry

theorem Passing.ballot {entry : Sigma fun _ : Denom => Ballot} (passing : Passing ctx store entry) :
    Ordered entry.2 ∧ Weighted entry.2 :=
  organizeBallotByDenom_ballots store _ entry.1 entry.2 passing.1

theorem Passing.unique {denom : Denom} {left right : Ballot} (passing : Passing ctx store ⟨denom, left⟩)
    (other : Passing ctx store ⟨denom, right⟩) : left = right :=
  Option.some.inj (passing.1.symm.trans other.1)

/-- The strongest passing ballot. -/
def IsReference (ctx : Ctx) (store : Store) : (Sigma fun _ : Denom => Ballot) → Prop :=
  Strongest (Passing ctx store)

/-- Two unbeaten ballots are for one denomination. -/
theorem IsReference.unique (reference : IsReference ctx store left) (other : IsReference ctx store right) :
    left = right := by
  have forward := other.unbeaten left reference.candidate
  have backward := reference.unbeaten right other.candidate
  have powers : Ballot.power right.2 = Ballot.power left.2 :=
    le_antisymm (not_lt.mp fun more => backward (.inl more)) (not_lt.mp fun more => forward (.inl more))
  have denoms : left.1 = right.1 := by
    rcases lt_trichotomy left.1 right.1 with before | same | after
    · exact absurd (.inr ⟨powers, before⟩) forward
    · exact same
    · exact absurd (.inr ⟨powers.symm, after⟩) backward
  obtain ⟨denom, ballot⟩ := left
  obtain ⟨_, ballot'⟩ := right
  obtain rfl := denoms
  rw [reference.candidate.unique other.candidate]

/-- What the loop knows once all ballots have been visited. -/
theorem pickReferenceGridb_among (ctx : Ctx) (targets : VoteTargets) (votes : VoteMap) :
    PickedAmong (thresholdVotes ctx) targets votes (ctx.orders.pick.visit votes.entries)
      (pickReferenceGridb ctx targets votes) := by
  have start : PickedAmong (thresholdVotes ctx) targets votes [] ⟨0, "", targets, votes⟩ :=
    ⟨by simp, by simp, .nobody (by simp) rfl rfl⟩
  exact start.foldl ((List.perm_nodupKeys (ctx.orders.pick.perm votes.entries)).mpr votes.nodupKeys)

theorem mem_visit_pick_iff (ctx : Ctx) (votes : VoteMap) (entry : Sigma fun _ : Denom => Ballot) :
    entry ∈ ctx.orders.pick.visit votes.entries ↔ votes.lookup entry.1 = some entry.2 :=
  (ctx.orders.pick.perm votes.entries).mem_iff.trans AList.mem_lookup_iff.symm

/-- A target is left unless its ballot does not pass. -/
theorem mem_voteTargets_pickReferenceGridb_iff (ctx : Ctx) (targets : VoteTargets) (votes : VoteMap) (denom : Denom) :
    denom ∈ (pickReferenceGridb ctx targets votes).voteTargets ↔
      denom ∈ targets ∧ ∀ ballot, votes.lookup denom = some ballot → ballotIsPassing ballot (thresholdVotes ctx) = true := by
  rw [(pickReferenceGridb_among ctx targets votes).voteTargets]
  refine and_congr_right fun _ => ⟨fun all ballot found => ?_, ?_⟩
  · exact all ⟨denom, ballot⟩ ((mem_visit_pick_iff ctx votes _).mpr found) rfl
  · rintro all ⟨_, ballot⟩ member rfl
    exact all ballot ((mem_visit_pick_iff ctx votes _).mp member)

/-- What is left of the ballots, and the reference, do not depend on the order of the visits. -/
theorem pickReferenceGridb_spec (ctx : Ctx) (store : Store) :
    let picked := pickReferenceGridb ctx store.voteTargets (organizeBallotByDenom store (validatorClaims ctx.staking))
    (∀ denom ballot, picked.voteMap.lookup denom = some ballot ↔ Passing ctx store ⟨denom, ballot⟩) ∧
      ((picked.referenceGridb = "" ∧ ∀ entry, ¬ Passing ctx store entry) ∨
        ∃ ballot, IsReference ctx store ⟨picked.referenceGridb, ballot⟩) := by
  intro picked
  set votes := organizeBallotByDenom store (validatorClaims ctx.staking) with gathered
  have known := pickReferenceGridb_among ctx store.voteTargets votes
  have seen_iff := mem_visit_pick_iff ctx votes
  have candidates : (fun entry => entry ∈ ctx.orders.pick.visit votes.entries ∧
      Passes (thresholdVotes ctx) store.voteTargets entry) = Passing ctx store := by
    funext entry
    rw [seen_iff, gathered]
    rfl
  constructor
  · intro denom ballot
    rw [known.voteMap, Passing, ← gathered]
    refine and_congr_right fun found => ⟨fun all => ?_, ?_⟩
    · exact all ⟨denom, ballot⟩ ((seen_iff _).mpr found) rfl
    · rintro passes ⟨_, other⟩ member rfl
      rw [seen_iff] at member
      obtain rfl := Option.some.inj (member.symm.trans found)
      exact passes
  · have leads := known.leads
    rw [candidates] at leads
    cases leads with
    | nobody none _ name => exact .inl ⟨name, none⟩
    | somebody entry strongest _ name =>
      obtain ⟨denom, ballot⟩ := entry
      exact .inr ⟨ballot, name ▸ strongest⟩

end Rotofury.Soundness.Oracle
