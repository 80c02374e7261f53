import Rotofury.Model.Oracle.Types

/-! # Weighted medians

The median of a ballot in which abstentions have no power is the rate of a vote with power, unless half of the total
power rounds down to nothing; then it is the smallest rate of the ballot, abstentions included. The medians of cross
rates are never negative.
-/

namespace Rotofury.Soundness.Oracle

open Model.Sdk Model.Oracle

variable {ballot : Ballot} {vote : VoteForTally} {half pivot : ℕ} {left right : Dec}

/-- Votes are in the order of their rates. -/
def Ordered (ballot : Ballot) : Prop :=
  ballot.Pairwise fun left right => left.exchangeRate.raw ≤ right.exchangeRate.raw

/-- Abstentions have no power. -/
def Weighted (ballot : Ballot) : Prop := ∀ vote ∈ ballot, 0 < vote.power → vote.exchangeRate.isPositive

instance : Std.Total fun left right : VoteForTally => left.exchangeRate ≤ right.exchangeRate where
  total left right := Int.le_total left.exchangeRate.raw right.exchangeRate.raw

instance : IsTrans VoteForTally fun left right => left.exchangeRate ≤ right.exchangeRate where
  trans _ _ _ := Int.le_trans

theorem ordered_sort (ballot : Ballot) : Ordered (Ballot.sort ballot) := List.pairwise_insertionSort _ ballot

theorem mem_sort : vote ∈ Ballot.sort ballot ↔ vote ∈ ballot :=
  List.mem_insertionSort _

theorem power_sort (ballot : Ballot) : (Ballot.sort ballot).power = ballot.power :=
  ((List.perm_insertionSort _ ballot).map VoteForTally.power).sum_eq

theorem Ordered.isSorted (ordered : Ordered ballot) : ballot.isSorted := by
  apply List.Pairwise.isChain
  exact ordered.imp fun le => Int.not_lt.mpr le

/-- The assertion before taking the median holds for an ordered ballot. -/
theorem weightedMedianWithAssertion_eq (ordered : Ordered ballot) :
    ballot.weightedMedianWithAssertion = .ok ballot.weightedMedian := by
  rw [Ballot.weightedMedianWithAssertion, Except.require, if_pos ordered.isSorted]
  rfl

theorem power_cons (vote : VoteForTally) (rest : Ballot) : Ballot.power (vote :: rest) = vote.power + Ballot.power rest := by
  simp [Ballot.power]

/-- A half that is still to be reached is reached at a vote with power. -/
theorem medianFrom_eq_rate (below : pivot < half) (reached : half ≤ pivot + ballot.power) :
    ∃ vote ∈ ballot, 0 < vote.power ∧ Ballot.medianFrom half pivot ballot = vote.exchangeRate := by
  induction ballot generalizing pivot with
  | nil =>
    simp only [Ballot.power, List.map_nil, List.sum_nil] at reached
    omega
  | cons vote rest ih =>
    rw [power_cons] at reached
    unfold Ballot.medianFrom
    split
    · next here => exact ⟨vote, List.mem_cons_self, by omega, rfl⟩
    · next later =>
      obtain ⟨other, member, powered, rate⟩ := ih (not_le.mp later) (by omega)
      exact ⟨other, List.mem_cons_of_mem vote member, powered, rate⟩

/-- With a power of at least two, the median is a positive rate. -/
theorem weightedMedian_pos (weighted : Weighted ballot) (strong : 2 ≤ ballot.power) :
    ballot.weightedMedian.isPositive := by
  have below : 0 < ballot.power / 2 := by omega
  obtain ⟨vote, member, powered, rate⟩ := medianFrom_eq_rate below (by omega : ballot.power / 2 ≤ 0 + ballot.power)
  rw [Ballot.weightedMedian, rate]
  exact weighted vote member powered

/-- With a power of one, it is the smallest rate. -/
theorem weightedMedian_of_weak {rest : Ballot} (weak : Ballot.power (vote :: rest) < 2) :
    Ballot.weightedMedian (vote :: rest) = vote.exchangeRate := by
  have half : Ballot.power (vote :: rest) / 2 = 0 := by omega
  rw [Ballot.weightedMedian, half, Ballot.medianFrom, if_pos (Nat.zero_le _)]

/-- When the median of a ballot with power is positive. -/
theorem weightedMedian_pos_iff (ordered : Ordered ballot) (weighted : Weighted ballot) (powered : ballot.power ≠ 0) :
    ballot.weightedMedian.isPositive ↔ 2 ≤ ballot.power ∨ ∀ vote ∈ ballot, vote.exchangeRate.isPositive := by
  by_cases strong : 2 ≤ ballot.power
  · exact iff_of_true (weightedMedian_pos weighted strong) (.inl strong)
  · cases ballot with
    | nil => exact absurd rfl powered
    | cons vote rest =>
      rw [weightedMedian_of_weak (not_le.mp strong), or_iff_right strong]
      constructor
      · intro first other member
        rcases List.mem_cons.mp member with rfl | later
        · exact first
        · exact lt_of_lt_of_le first (List.rel_of_pairwise_cons ordered later)
      · intro all
        exact all vote List.mem_cons_self

/-- A median is one of the rates, or zero. -/
theorem medianFrom_of_forall (property : Dec → Prop) (zero : property Dec.zero)
    (all : ∀ vote ∈ ballot, property vote.exchangeRate) (pivot : ℕ) : property (Ballot.medianFrom half pivot ballot) := by
  induction ballot generalizing pivot with
  | nil => exact zero
  | cons vote rest ih =>
    obtain ⟨head, tail⟩ := List.forall_mem_cons.mp all
    unfold Ballot.medianFrom
    split
    · exact head
    · exact ih tail _

/-! ## Powers of 64 bits -/

theorem medianFromInt64_eq (small : pivot + ballot.power < 2 ^ 63) :
    Ballot.medianFromInt64 half pivot ballot = Ballot.medianFrom half pivot ballot := by
  induction ballot generalizing pivot with
  | nil => rfl
  | cons vote rest ih =>
    rw [power_cons] at small
    have sum : Int.bmod (pivot + vote.power) (2 ^ 64) = (pivot + vote.power : ℕ) := by
      rw [Nat.cast_add]
      exact Int.bmod_eq_of_le (by omega) (by omega)
    have later := @ih (pivot + vote.power) (by omega)
    rw [Ballot.medianFromInt64, Ballot.medianFrom, sum, later]
    simp only [Int.ofNat_le]

/-- The median on 64-bit powers is that on the powers, as long as their sum does not wrap. -/
theorem weightedMedianInt64_eq (small : ballot.power < 2 ^ 63) : ballot.weightedMedianInt64 = ballot.weightedMedian := by
  have total : ballot.powerInt64 = ballot.power := Int.bmod_eq_of_le (by omega) (by omega)
  have half : (ballot.power : ℤ).tdiv 2 = (ballot.power / 2 : ℕ) := rfl
  rw [Ballot.weightedMedianInt64, total, half]
  exact medianFromInt64_eq (show 0 + ballot.power < 2 ^ 63 by omega)

/-! ## What a median is -/

/-- The power of the votes with the given property. -/
def powerWhere (ballot : Ballot) (property : VoteForTally → Prop) [DecidablePred property] : ℕ :=
  Ballot.power (ballot.filter fun vote => property vote)

theorem powerWhere_cons (vote : VoteForTally) (rest : Ballot) (property : VoteForTally → Prop) [DecidablePred property] :
    powerWhere (vote :: rest) property = (if property vote then vote.power else 0) + powerWhere rest property := by
  unfold powerWhere
  by_cases holds : property vote
  · rw [List.filter_cons_of_pos (by simpa using holds), power_cons, if_pos holds]
  · rw [List.filter_cons_of_neg (by simpa using holds), if_neg holds, Nat.zero_add]

theorem powerWhere_mono {left right : VoteForTally → Prop} [DecidablePred left] [DecidablePred right]
    (implies : ∀ vote ∈ ballot, left vote → right vote) : powerWhere ballot left ≤ powerWhere ballot right := by
  induction ballot with
  | nil => exact le_rfl
  | cons vote rest ih =>
    obtain ⟨head, tail⟩ := List.forall_mem_cons.mp implies
    rw [powerWhere_cons, powerWhere_cons]
    apply Nat.add_le_add _ (ih tail)
    by_cases holds : left vote
    · rw [if_pos holds, if_pos (head holds)]
    · rw [if_neg holds]
      exact Nat.zero_le _

theorem powerWhere_eq_zero {property : VoteForTally → Prop} [DecidablePred property]
    (none : ∀ vote ∈ ballot, ¬ property vote) : powerWhere ballot property = 0 := by
  rw [powerWhere, List.filter_eq_nil_iff.mpr (by simpa using none)]
  rfl

/-- The smallest rate voted for at which the votes with no larger rate reach a given share of the power. -/
structure Reaches (share : ℕ) (ballot : Ballot) (rate : Dec) : Prop where
  voted : ∃ vote ∈ ballot, vote.exchangeRate = rate
  reached : share ≤ powerWhere ballot (·.exchangeRate ≤ rate)
  least : (∀ vote ∈ ballot, rate ≤ vote.exchangeRate) ∨ powerWhere ballot (·.exchangeRate < rate) < share

/-- The smallest rate at which half of the power, rounded down, is reached. -/
def IsMedian (ballot : Ballot) (rate : Dec) : Prop := Reaches (ballot.power / 2) ballot rate

theorem Reaches.le {share : ℕ} (first : Reaches share ballot left) (second : Reaches share ballot right) :
    right ≤ left := by
  apply Int.not_lt.mp
  intro less
  obtain ⟨vote, member, rfl⟩ := first.voted
  rcases second.least with smallest | below
  · exact Int.not_lt.mpr (smallest vote member) less
  · have : powerWhere ballot (·.exchangeRate ≤ vote.exchangeRate) ≤ powerWhere ballot (·.exchangeRate < right) :=
      powerWhere_mono fun other _ le => Int.lt_of_le_of_lt le less
    have := first.reached
    omega

theorem IsMedian.unique (first : IsMedian ballot left) (second : IsMedian ballot right) : left = right := by
  have backward : right.raw ≤ left.raw := first.le second
  have forward : left.raw ≤ right.raw := second.le first
  exact congrArg Dec.mk (le_antisymm forward backward)

/-- The loop that looks for the median, after votes of power `pivot`. -/
theorem medianFrom_reaches (ordered : Ordered ballot) (below : pivot ≤ half) (nonempty : ballot ≠ [])
    (enough : half ≤ pivot + ballot.power) :
    Reaches (half - pivot) ballot (Ballot.medianFrom half pivot ballot) := by
  induction ballot generalizing pivot with
  | nil => exact absurd rfl nonempty
  | cons vote rest ih =>
    obtain ⟨first, orderedRest⟩ := List.pairwise_cons.mp ordered
    rw [power_cons] at enough
    unfold Ballot.medianFrom
    split
    · next here =>
      refine ⟨⟨vote, List.mem_cons_self, rfl⟩, ?_, .inl ?_⟩
      · have itself : vote.exchangeRate ≤ vote.exchangeRate := Int.le_refl _
        rw [powerWhere_cons, if_pos itself]
        omega
      · intro other member
        rcases List.mem_cons.mp member with rfl | later
        · exact Int.le_refl _
        · exact first other later
    · next later =>
      have restNonempty : rest ≠ [] := by
        rintro rfl
        simp only [Ballot.power, List.map_nil, List.sum_nil] at enough
        omega
      have found := ih orderedRest (by omega : pivot + vote.power ≤ half) restNonempty (by omega)
      obtain ⟨other, member, rate⟩ := found.voted
      have notAbove : vote.exchangeRate ≤ Ballot.medianFrom half (pivot + vote.power) rest :=
        rate ▸ first other member
      refine ⟨⟨other, List.mem_cons_of_mem vote member, rate⟩, ?_, .inr ?_⟩
      · rw [powerWhere_cons, if_pos notAbove]
        have := found.reached
        omega
      · have head : (if vote.exchangeRate < Ballot.medianFrom half (pivot + vote.power) rest then vote.power else 0) ≤
            vote.power := by
          split <;> omega
        rw [powerWhere_cons]
        rcases found.least with smallest | less
        · have none : powerWhere rest (·.exchangeRate < Ballot.medianFrom half (pivot + vote.power) rest) = 0 :=
            powerWhere_eq_zero fun other member => Int.not_lt.mpr (smallest other member)
          omega
        · omega

/-- The median of the code is the median. -/
theorem weightedMedian_isMedian (ordered : Ordered ballot) (nonempty : ballot ≠ []) :
    IsMedian ballot ballot.weightedMedian := by
  have reaches := medianFrom_reaches ordered (Nat.zero_le (ballot.power / 2)) nonempty (by omega)
  rwa [Nat.sub_zero] at reaches

/-- The rates of a ballot with their powers. -/
def weights (ballot : Ballot) : List (Dec × ℕ) := ballot.map fun vote => (vote.exchangeRate, vote.power)

theorem powerWhere_perm {other : Ballot} (perm : (weights other).Perm (weights ballot)) (property : Dec → Prop)
    [DecidablePred property] :
    powerWhere other (fun vote => property vote.exchangeRate) =
      powerWhere ballot fun vote => property vote.exchangeRate := by
  have weighed : ∀ votes : Ballot, powerWhere votes (fun vote => property vote.exchangeRate) =
      (((weights votes).filter fun weight => property weight.1).map Prod.snd).sum := by
    intro votes
    rw [weights, List.filter_map, List.map_map]
    rfl
  rw [weighed, weighed]
  exact ((perm.filter _).map Prod.snd).sum_eq

theorem power_perm {other : Ballot} (perm : (weights other).Perm (weights ballot)) : other.power = ballot.power := by
  simpa [weights, Ballot.power, Function.comp_def] using (perm.map Prod.snd).sum_eq

/-- The median depends on the rates and their powers only. -/
theorem IsMedian.perm {other : Ballot} {rate : Dec} (perm : (weights other).Perm (weights ballot))
    (median : IsMedian other rate) : IsMedian ballot rate := by
  have rates : ∀ {rate}, (∃ vote ∈ other, vote.exchangeRate = rate) ↔ ∃ vote ∈ ballot, vote.exchangeRate = rate := by
    intro rate
    rw [← List.mem_map, ← List.mem_map]
    simpa [weights, Function.comp_def] using (perm.map Prod.fst).mem_iff
  have total := power_perm perm
  refine ⟨rates.mp median.voted, ?_, ?_⟩
  · rw [← total, ← powerWhere_perm perm (· ≤ rate)]
    exact median.reached
  · rw [← total, ← powerWhere_perm perm (· < rate)]
    refine median.least.imp_left fun smallest vote member => ?_
    obtain ⟨same, isSame, equal⟩ := rates.mpr ⟨vote, member, rfl⟩
    exact equal ▸ smallest same isSame

/-- The median does not depend on the order of the votes. -/
theorem isMedian_sort {rate : Dec} : IsMedian (Ballot.sort ballot) rate ↔ IsMedian ballot rate := by
  have perm : (weights (Ballot.sort ballot)).Perm (weights ballot) := (List.perm_insertionSort _ ballot).map _
  exact ⟨IsMedian.perm perm, IsMedian.perm perm.symm⟩

/-- The median of the code is positive, at most half of the power is below it, at least half is not above it, and it depends
on the rates and their powers only. -/
structure Halves (ballot : Ballot) : Prop where
  positive : ballot.weightedMedianInt64.isPositive
  below : (powerWhere ballot (·.exchangeRate < ballot.weightedMedianInt64) : ℚ) ≤ ballot.power / 2
  upTo : (ballot.power / 2 : ℚ) ≤ powerWhere ballot (·.exchangeRate ≤ ballot.weightedMedianInt64)
  multiset : ∀ other, Ordered other → (weights other).Perm (weights ballot) →
    other.weightedMedianInt64 = ballot.weightedMedianInt64

/-- Half of the power is rounded down, so the code stops one vote early where the votes up to some rate miss half of an odd
power by one half. -/
theorem halves_iff {ballot : Ballot} (ordered : Ordered ballot) (weighted : Weighted ballot) (powered : 0 < ballot.power)
    (small : ballot.power < 2 ^ 63) :
    Halves ballot ↔ ∀ vote ∈ ballot, 2 * powerWhere ballot (·.exchangeRate ≤ vote.exchangeRate) + 1 ≠ ballot.power := by
  have nonempty : ballot ≠ [] := by
    rintro rfl
    exact absurd powered (by decide)
  have median := weightedMedian_isMedian ordered nonempty
  have reached := median.reached
  have unwrapped := weightedMedianInt64_eq small
  constructor
  · intro halves vote member short
    -- this rate reaches the rounded half, so the median is no larger
    have least : ballot.weightedMedian ≤ vote.exchangeRate := by
      apply Int.not_lt.mp
      intro above
      rcases median.least with smallest | less
      · exact Int.not_lt.mpr (smallest vote member) above
      · have fewer : powerWhere ballot (·.exchangeRate ≤ vote.exchangeRate) ≤
            powerWhere ballot (·.exchangeRate < ballot.weightedMedian) :=
          powerWhere_mono fun other _ le => Int.lt_of_le_of_lt le above
        omega
    have fewer : powerWhere ballot (·.exchangeRate ≤ ballot.weightedMedian) ≤
        powerWhere ballot (·.exchangeRate ≤ vote.exchangeRate) :=
      powerWhere_mono fun other _ le => Int.le_trans le least
    have upTo := halves.upTo
    rw [unwrapped, div_le_iff₀ two_pos] at upTo
    norm_cast at upTo
    omega
  · intro full
    have enough : ballot.power ≤ 2 * powerWhere ballot (·.exchangeRate ≤ ballot.weightedMedian) := by
      obtain ⟨vote, member, rate⟩ := median.voted
      have odd := full vote member
      rw [rate] at odd
      omega
    have few : 2 * powerWhere ballot (·.exchangeRate < ballot.weightedMedian) ≤ ballot.power := by
      rcases median.least with smallest | less
      · have none : powerWhere ballot (·.exchangeRate < ballot.weightedMedian) = 0 :=
          powerWhere_eq_zero fun vote member => Int.not_lt.mpr (smallest vote member)
        omega
      · omega
    refine ⟨?_, ?_, ?_, fun other otherOrdered perm => ?_⟩
    · rw [unwrapped]
      by_contra abstained
      have none : powerWhere ballot (·.exchangeRate ≤ ballot.weightedMedian) = 0 := by
        apply List.sum_eq_zero
        intro power member
        obtain ⟨vote, inside, rfl⟩ := List.mem_map.mp member
        obtain ⟨voted, below⟩ := List.mem_filter.mp inside
        by_contra nonzero
        have positive : 0 < vote.exchangeRate.raw := weighted vote voted (Nat.pos_of_ne_zero nonzero)
        exact abstained (lt_of_lt_of_le positive (of_decide_eq_true below))
      omega
    · rw [unwrapped, le_div_iff₀ two_pos]
      exact_mod_cast (by omega : powerWhere ballot (·.exchangeRate < ballot.weightedMedian) * 2 ≤ ballot.power)
    · rw [unwrapped, div_le_iff₀ two_pos]
      exact_mod_cast (by omega : ballot.power ≤ powerWhere ballot (·.exchangeRate ≤ ballot.weightedMedian) * 2)
    · have some : other ≠ [] := by
        rintro rfl
        exact nonempty (List.map_eq_nil_iff.mp (List.nil_perm.mp perm))
      rw [unwrapped, weightedMedianInt64_eq ((power_perm perm).trans_lt small)]
      exact ((weightedMedian_isMedian otherOrdered some).perm perm).unique median

/-- Two votes, for the rates 1 and 2. -/
def twoVotes (first second : ℕ) : Ballot := [⟨"uusd", .one, 1, first⟩, ⟨"uusd", .one + .one, 2, second⟩]

theorem halves_sample : (twoVotes 1 1).weightedMedianInt64 = .one ∧ Halves (twoVotes 1 1) := by
  refine ⟨by decide, (halves_iff ?_ ?_ (by decide) (by decide)).mpr (by decide)⟩
  · simp [Ordered, twoVotes, Dec.one]
  · simp [Weighted, twoVotes, Dec.isPositive, Dec.one]

/-- Of a power of three only one has voted for the rate 1, which the code returns. -/
theorem uneven_not_halves : Ordered (twoVotes 1 2) ∧ Weighted (twoVotes 1 2) ∧ (twoVotes 1 2).power = 3 ∧
    (twoVotes 1 2).weightedMedianInt64 = .one ∧ ¬ Halves (twoVotes 1 2) := by
  refine ⟨?_, ?_, by decide, by decide, fun halves => ?_⟩
  · simp [Ordered, twoVotes, Dec.one]
  · simp [Weighted, twoVotes, Dec.isPositive, Dec.one]
  · have upTo : ((3 : ℕ) / 2 : ℚ) ≤ (1 : ℕ) := halves.upTo
    norm_num at upTo

end Rotofury.Soundness.Oracle
