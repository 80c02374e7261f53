import Rotofury.Model.Oracle.EndBlock

/-! # Rewards fit the pool

The rewards of a vote period are a part of the pool, and every winner gets the share of its weight, in whole coins. The
loops over denominations and winners are given in closed form; from it, what all winners get together is within the
pool whenever the vote period's part of the pool is at most all of it.
-/

namespace Rotofury.Soundness.Oracle

open Model.Sdk Model.App Model.Oracle Except
open Model.Ve (toInt64 toInt64_of_lt)

variable {coins rest : List Coin} {coin other first : Coin} {denom : Denom} {bank : Bank}
  {distributionRatio share : Dec} {denoms : List Denom} {total : ℕ}

/-! ## Coin sets -/

theorem amountOf_addToCoins (coins : List Coin) (coin : Coin) (denom : Denom) :
    amountOf (addToCoins coins coin) denom = amountOf coins denom + onDenom coin.denom coin.amount denom := by
  induction coins with
  | nil => simp [addToCoins]
  | cons first rest ih =>
    unfold addToCoins
    split
    · next same =>
      rw [amountOf_cons, amountOf_cons, onDenom_add, same]
      ring
    · split
      · rw [amountOf_cons, add_comm]
      · rw [amountOf_cons, amountOf_cons, ih]
        ring

theorem denom_of_mem_addToCoins (member : other ∈ addToCoins coins coin) :
    other.denom = coin.denom ∨ ∃ old ∈ coins, old.denom = other.denom := by
  induction coins with
  | nil =>
    rw [List.mem_singleton.mp member]
    exact .inl rfl
  | cons first rest ih =>
    unfold addToCoins at member
    split at member
    · next same =>
      rcases List.mem_cons.mp member with rfl | later
      · exact .inl same
      · exact .inr ⟨other, List.mem_cons_of_mem first later, rfl⟩
    · split at member
      · rcases List.mem_cons.mp member with rfl | old
        · exact .inl rfl
        · exact .inr ⟨other, old, rfl⟩
      · rcases List.mem_cons.mp member with rfl | later
        · exact .inr ⟨other, List.mem_cons_self, rfl⟩
        · rcases ih later with new | ⟨old, isOld, same⟩
          · exact .inl new
          · exact .inr ⟨old, List.mem_cons_of_mem first isOld, same⟩

theorem validCoins_nil : validCoins [] := ⟨by simp, by simp⟩

theorem validCoins_cons :
    validCoins (first :: rest) ↔ 0 < first.amount ∧ (∀ coin ∈ rest, first.denom < coin.denom) ∧ validCoins rest := by
  simp only [validCoins, List.forall_mem_cons, List.map_cons, List.pairwise_cons, List.forall_mem_map]
  tauto

/-- A coin of a positive amount keeps the set sorted. -/
theorem validCoins_addToCoins (valid : validCoins coins) (positive : 0 < coin.amount) :
    validCoins (addToCoins coins coin) := by
  induction coins with
  | nil => exact validCoins_cons.mpr ⟨positive, by simp, valid⟩
  | cons first rest ih =>
    obtain ⟨firstPos, below, restValid⟩ := validCoins_cons.mp valid
    unfold addToCoins
    split
    · exact validCoins_cons.mpr ⟨add_pos firstPos positive, below, restValid⟩
    · next other =>
      split
      · next before =>
        refine validCoins_cons.mpr ⟨positive, fun later member => ?_, valid⟩
        rcases List.mem_cons.mp member with rfl | inRest
        · exact before
        · exact before.trans (below later inRest)
      · next notBefore =>
        refine validCoins_cons.mpr ⟨firstPos, fun later member => ?_, ih restValid⟩
        rcases denom_of_mem_addToCoins member with new | ⟨old, isOld, same⟩
        · rw [new]
          exact lt_of_le_of_ne (not_lt.mp notBefore) other
        · rw [← same]
          exact below old isOld

theorem validCoins_foldl_addToCoins {more : List Coin} (valid : validCoins coins)
    (positive : ∀ coin ∈ more, 0 < coin.amount) : validCoins (more.foldl addToCoins coins) := by
  induction more generalizing coins with
  | nil => exact valid
  | cons coin rest ih =>
    obtain ⟨first, others⟩ := List.forall_mem_cons.mp positive
    exact ih (validCoins_addToCoins valid first) others

theorem amountOf_foldl_addToCoins (coins more : List Coin) (denom : Denom) :
    amountOf (more.foldl addToCoins coins) denom = amountOf coins denom + amountOf more denom := by
  induction more generalizing coins with
  | nil => simp
  | cons coin rest ih =>
    rw [List.foldl_cons, ih, amountOf_addToCoins, amountOf_cons]
    ring

theorem amountOf_flatMap {ι : Type} (holders : List ι) (coins : ι → List Coin) (denom : Denom) :
    amountOf (holders.flatMap coins) denom = (holders.map fun holder => amountOf (coins holder) denom).sum := by
  induction holders with
  | nil => rfl
  | cons holder rest ih =>
    rw [List.flatMap_cons, List.map_cons, List.sum_cons, ← ih]
    simp [amountOf]

theorem amountOf_eq_zero_of_lt (later : ∀ coin ∈ coins, denom < coin.denom) :
    amountOf coins denom = 0 := by
  induction coins with
  | nil => rfl
  | cons coin rest ih =>
    obtain ⟨first, others⟩ := List.forall_mem_cons.mp later
    rw [amountOf_cons, onDenom_of_ne first.ne', ih others, add_zero]

/-- The least denomination of a coin set is determined by its amounts. -/
private theorem head_denom_le {others : List Coin} (valid : validCoins (first :: rest))
    (otherValid : validCoins (other :: others))
    (same : amountOf (first :: rest) first.denom = amountOf (other :: others) first.denom) :
    other.denom ≤ first.denom := by
  obtain ⟨positive, below, _⟩ := validCoins_cons.mp valid
  obtain ⟨_, otherBelow, _⟩ := validCoins_cons.mp otherValid
  by_contra above
  have before := not_le.mp above
  have none : amountOf (other :: others) first.denom = 0 :=
    amountOf_eq_zero_of_lt (List.forall_mem_cons.mpr ⟨before, fun coin member => before.trans (otherBelow coin member)⟩)
  rw [none, amountOf_cons, onDenom_self, amountOf_eq_zero_of_lt below] at same
  omega

/-- A coin set is determined by its amounts. -/
theorem validCoins_ext {left right : List Coin} (leftValid : validCoins left) (rightValid : validCoins right)
    (same : ∀ denom, amountOf left denom = amountOf right denom) : left = right := by
  induction left generalizing right with
  | nil =>
    cases right with
    | nil => rfl
    | cons coin rest =>
      obtain ⟨positive, below, _⟩ := validCoins_cons.mp rightValid
      have amount := same coin.denom
      rw [amountOf_nil, amountOf_cons, onDenom_self, amountOf_eq_zero_of_lt below] at amount
      omega
  | cons first rest ih =>
    cases right with
    | nil =>
      obtain ⟨positive, below, _⟩ := validCoins_cons.mp leftValid
      have amount := same first.denom
      rw [amountOf_nil, amountOf_cons, onDenom_self, amountOf_eq_zero_of_lt below] at amount
      omega
    | cons other others =>
      have denoms : first.denom = other.denom :=
        le_antisymm (head_denom_le rightValid leftValid (same other.denom).symm)
          (head_denom_le leftValid rightValid (same first.denom))
      obtain ⟨_, below, restValid⟩ := validCoins_cons.mp leftValid
      obtain ⟨_, otherBelow, othersValid⟩ := validCoins_cons.mp rightValid
      have amounts : first.amount = other.amount := by
        have amount := same first.denom
        rw [amountOf_cons, amountOf_cons, ← denoms, onDenom_self, onDenom_self, amountOf_eq_zero_of_lt below,
          amountOf_eq_zero_of_lt (denoms ▸ otherBelow)] at amount
        omega
      obtain rfl : first = other := Coin.ext denoms amounts
      have tails : rest = others := by
        apply ih restValid othersValid
        intro denom
        have amount := same denom
        rw [amountOf_cons, amountOf_cons] at amount
        omega
      rw [tails]

/-! ## The rewards of the period -/

/-- The reward in one denomination; none if the pool is empty. -/
def rewardOf (bank : Bank) (distributionRatio : Dec) (denom : Denom) : Option (Denom × Dec) :=
  if bank.balance ModuleAccount.oracle.address denom = 0 then none
  else some (denom, (Dec.ofInt (bank.balance ModuleAccount.oracle.address denom)).mul distributionRatio)

/-- No reward is negative. -/
def RewardsHeld (bank : Bank) (distributionRatio : Dec) (denoms : List Denom) : Prop :=
  ∀ denom ∈ denoms, ∀ reward, rewardOf bank distributionRatio denom = some reward → 0 ≤ reward.2.raw

theorem addReward_ok_iff {before after : List (Denom × Dec)} :
    addReward bank distributionRatio before denom = .ok after ↔
      (∀ reward, rewardOf bank distributionRatio denom = some reward → 0 ≤ reward.2.raw) ∧
        before ++ (rewardOf bank distributionRatio denom).toList = after := by
  by_cases empty : bank.balance ModuleAccount.oracle.address denom = 0
  · simp [addReward, rewardOf, empty]
  · simp [addReward, rewardOf, empty, Dec.isNegative]

theorem periodRewards_ok_iff {rewards : List (Denom × Dec)} :
    periodRewards bank distributionRatio denoms = .ok rewards ↔
      RewardsHeld bank distributionRatio denoms ∧ denoms.filterMap (rewardOf bank distributionRatio) = rewards := by
  have general : ∀ before, denoms.foldlM (addReward bank distributionRatio) before = .ok rewards ↔
      RewardsHeld bank distributionRatio denoms ∧
        before ++ denoms.filterMap (rewardOf bank distributionRatio) = rewards := by
    induction denoms with
    | nil => simp [RewardsHeld]
    | cons denom rest ih =>
      intro before
      simp only [List.foldlM_cons, bind_ok_iff, addReward_ok_iff, ih, RewardsHeld, List.forall_mem_cons,
        List.filterMap_cons]
      cases rewardOf bank distributionRatio denom <;> simp [and_assoc]
  exact general []

/-- The whole coins of a share of the reward in one denomination. -/
def part (bank : Bank) (distributionRatio share : Dec) (denom : Denom) : ℤ :=
  (((Dec.ofInt (bank.balance ModuleAccount.oracle.address denom)).mul distributionRatio).mul share).truncateInt

theorem part_of_empty (empty : bank.balance ModuleAccount.oracle.address denom = 0) (distributionRatio share : Dec) :
    part bank distributionRatio share denom = 0 := by
  have none : ((Dec.ofInt 0).mul distributionRatio).raw = 0 := by rw [Dec.ofInt_mul, zero_mul]
  simp only [part, empty, Dec.truncateInt, Dec.mul, Nat.cast_zero] at none ⊢
  rw [none, zero_mul]
  rfl

section Part

variable (bank : Bank) (ratio : 0 ≤ distributionRatio.raw) (nonneg : 0 ≤ share.raw) (denom : Denom)
include ratio nonneg

/-- A part exceeds the exact one by no more than the rounding of one product. -/
theorem part_le_exact : 2 * ((Dec.precision : ℤ) * Dec.precision) * part bank distributionRatio share denom ≤
    2 * (bank.balance ModuleAccount.oracle.address denom * distributionRatio.raw * share.raw) + Dec.precision := by
  have unit : (0 : ℤ) < Dec.precision := by exact_mod_cast Dec.precision_pos
  have reward := Dec.ofInt_mul (bank.balance ModuleAccount.oracle.address denom) distributionRatio
  unfold part
  generalize (Dec.ofInt (bank.balance ModuleAccount.oracle.address denom)).mul distributionRatio = amount at reward ⊢
  have amountNonneg : 0 ≤ amount.raw := reward ▸ mul_nonneg (Int.natCast_nonneg _) ratio
  rw [← reward]
  have productNonneg : 0 ≤ (amount.mul share).raw := Math.roundHalfEven_nonneg (mul_nonneg amountNonneg nonneg) _
  have truncated : Dec.precision * (amount.mul share).truncateInt ≤ (amount.mul share).raw := by
    rw [Dec.truncateInt, Int.tdiv_eq_ediv_of_nonneg productNonneg]
    exact Int.mul_ediv_self_le unit.ne'
  have upper := (Dec.mul_raw_bounds amount share).2
  calc 2 * ((Dec.precision : ℤ) * Dec.precision) * (amount.mul share).truncateInt
      = 2 * Dec.precision * (Dec.precision * (amount.mul share).truncateInt) := by ring
    _ ≤ 2 * Dec.precision * (amount.mul share).raw := by apply mul_le_mul_of_nonneg_left truncated; omega
    _ ≤ 2 * (amount.raw * share.raw) + Dec.precision := upper

/-- A part exceeds the exact one by at most half a unit of the share: a share of zero gets nothing. -/
theorem part_le : 2 * ((Dec.precision : ℤ) * Dec.precision) * part bank distributionRatio share denom ≤
    (2 * (bank.balance ModuleAccount.oracle.address denom * distributionRatio.raw) + Dec.precision) * share.raw := by
  have unit : (0 : ℤ) < Dec.precision := by exact_mod_cast Dec.precision_pos
  have exact := part_le_exact bank ratio nonneg denom
  rcases nonneg.eq_or_lt with none | some
  · rw [← none, mul_zero] at exact ⊢
    norm_num [Dec.precision] at exact ⊢
    omega
  · have rounding : (Dec.precision : ℤ) * 1 ≤ Dec.precision * share.raw := by gcongr; omega
    linarith

end Part

/-! ## The coins of one winner -/

/-- The coins that a share of the rewards is made of. -/
theorem amountOf_rewardCoins (bank : Bank) (distributionRatio share : Dec) (nodup : denoms.Nodup) (denom : Denom) :
    amountOf (rewardCoins (denoms.filterMap (rewardOf bank distributionRatio)) share) denom =
      if denom ∈ denoms then part bank distributionRatio share denom else 0 := by
  rw [rewardCoins, amountOf_foldl_addToCoins, amountOf_nil, zero_add]
  induction denoms with
  | nil => rfl
  | cons first rest ih =>
    obtain ⟨fresh, restNodup⟩ := List.nodup_cons.mp nodup
    have later := ih restNodup
    have head : amountOf (([first].filterMap (rewardOf bank distributionRatio)).filterMap fun reward =>
        if (reward.2.mul share).truncateInt = 0 then none
        else some ⟨reward.1, (reward.2.mul share).truncateInt⟩) denom =
        onDenom first (part bank distributionRatio share first) denom := by
      by_cases empty : bank.balance ModuleAccount.oracle.address first = 0
      · simp [rewardOf, empty, part_of_empty empty]
      · by_cases zero : part bank distributionRatio share first = 0
        · have dropped := zero
          unfold part at dropped
          simp [rewardOf, empty, zero, dropped]
        · have kept := zero
          unfold part at kept
          simp [rewardOf, empty, kept, part]
    rw [← List.singleton_append, List.filterMap_append, List.filterMap_append, amountOf, List.map_append,
      List.sum_append, ← amountOf, ← amountOf, head, later]
    by_cases same : first = denom
    · subst same
      simp [fresh]
    · rw [onDenom_of_ne same]
      simp [Ne.symm same]

theorem validCoins_rewardCoins {rewards : List (Denom × Dec)}
    (payable : ∀ reward ∈ rewards, 0 ≤ (reward.2.mul share).raw) : validCoins (rewardCoins rewards share) := by
  apply validCoins_foldl_addToCoins validCoins_nil
  intro coin member
  obtain ⟨reward, isReward, split⟩ := List.mem_filterMap.mp member
  have rounded : 0 ≤ (reward.2.mul share).truncateInt :=
    Int.tdiv_nonneg (payable reward isReward) (Int.natCast_nonneg _)
  split at split
  · cases split
  · next nonzero =>
    cases split
    exact lt_of_le_of_ne rounded (Ne.symm nonzero)

/-! ## All winners -/

/-- The share of a weight, truncated. -/
def shareOf (total weight : ℕ) : Dec := ⟨(weight * Dec.precision / total : ℕ)⟩

theorem quoInt_eq_shareOf (nonzero : total ≠ 0) (weight : ℕ) :
    (Dec.ofInt weight).quoInt total = .ok (shareOf total weight) := by
  rw [Dec.quoInt, if_neg (by exact_mod_cast nonzero), shareOf, Dec.ofInt,
    Int.tdiv_eq_ediv_of_nonneg (mul_nonneg (Int.natCast_nonneg _) (Int.natCast_nonneg _))]
  push_cast
  rfl

theorem shareOf_nonneg (total weight : ℕ) : 0 ≤ (shareOf total weight).raw := Int.natCast_nonneg _

/-- The share of a winner: its weight over that of all, both as signed 64-bit numbers. -/
def winnerShare (total weight : ℕ) : Dec := ⟨(toInt64 weight * Dec.precision).tdiv (toInt64 total)⟩

/-- It is the share of the weight as long as the sum of the weights does not wrap. -/
theorem winnerShare_eq (small : total < 2 ^ 63) (nonzero : total ≠ 0) {weight : ℕ} (within : weight ≤ total) :
    winnerShare total weight = shareOf total weight := by
  have quotient := quoInt_eq_shareOf nonzero weight
  rw [← toInt64_of_lt small, ← toInt64_of_lt (within.trans_lt small), Dec.quoInt, toInt64_of_lt small,
    if_neg (by exact_mod_cast nonzero), ← toInt64_of_lt small] at quotient
  exact Except.ok.inj quotient

/-- No winner gets a negative amount. -/
def Payable (rewards : List (Denom × Dec)) (total : ℕ) (winners : List (Sigma fun _ : ValAddress => Claim)) : Prop :=
  ∀ winner ∈ winners, ∀ reward ∈ rewards, 0 ≤ (reward.2.mul (winnerShare total winner.2.weight)).raw

section Winners

variable (ctx : Ctx) (rewards : List (Denom × Dec)) (total : ℕ)

/-- What a winner is paid: nothing if its validator is gone. -/
def paid (winner : Sigma fun _ : ValAddress => Claim) : List Coin :=
  if (ctx.staking.validator winner.2.recipient).isSome then rewardCoins rewards (winnerShare total winner.2.weight) else []

/-- The call to distribution for a winner. -/
def allocation (winner : Sigma fun _ : ValAddress => Claim) : Option (ValAddress × List Coin) :=
  if paid ctx rewards total winner = [] then none else some (winner.2.recipient, paid ctx rewards total winner)

variable {total}

theorem rewardWinner_ok_iff (nonzero : toInt64 total ≠ 0) {distributed after : Distributed}
    {winner : Sigma fun _ : ValAddress => Claim} :
    rewardWinner ctx rewards (toInt64 total) distributed winner = .ok after ↔
      (∀ reward ∈ rewards, 0 ≤ (reward.2.mul (winnerShare total winner.2.weight)).raw) ∧
      ⟨distributed.allocations ++ (allocation ctx rewards total winner).toList,
        (paid ctx rewards total winner).foldl addToCoins distributed.total⟩ = after := by
  have share : (Dec.ofInt (toInt64 winner.2.weight)).quoInt (toInt64 total) = .ok (winnerShare total winner.2.weight) :=
    if_neg nonzero
  simp only [rewardWinner, share, ok_bind, bind_ok_iff, require_ok_iff, exists_const, Dec.isNegative, not_lt, allocation,
    paid]
  refine and_congr_right fun _ => ?_
  by_cases found : (ctx.staking.validator winner.2.recipient).isSome
  · by_cases empty : rewardCoins rewards (winnerShare total winner.2.weight) = []
    · simp [found, empty]
    · simp [found, empty]
  · simp [found]

/-- The loop over the winners in closed form. -/
theorem rewardWinners_ok_iff (nonzero : toInt64 total ≠ 0) {winners : List (Sigma fun _ : ValAddress => Claim)}
    {distributed after : Distributed} :
    winners.foldlM (rewardWinner ctx rewards (toInt64 total)) distributed = .ok after ↔
      Payable rewards total winners ∧ ⟨distributed.allocations ++ winners.filterMap (allocation ctx rewards total),
        (winners.flatMap (paid ctx rewards total)).foldl addToCoins distributed.total⟩ = after := by
  induction winners generalizing distributed with
  | nil => simp [Payable]
  | cons winner rest ih =>
    simp only [List.foldlM_cons, bind_ok_iff, rewardWinner_ok_iff ctx rewards nonzero, ih, Payable, List.forall_mem_cons,
      List.filterMap_cons, List.flatMap_cons, List.foldl_append]
    cases allocation ctx rewards total winner <;> simp [and_assoc]

end Winners

section Fitting

variable {winners : List (Sigma fun _ : ValAddress => Claim)} (small : total < 2 ^ 63) (positive : 0 < total)
  (covers : (winners.map fun winner => winner.2.weight).sum ≤ total)
include small positive covers

theorem winnerShare_of_mem {winner : Sigma fun _ : ValAddress => Claim} (member : winner ∈ winners) :
    winnerShare total winner.2.weight = shareOf total winner.2.weight :=
  winnerShare_eq small positive.ne' ((List.single_le_sum (fun _ _ => Nat.zero_le _) _
    (List.mem_map.mpr ⟨winner, member, rfl⟩)).trans covers)

/-- Shares of rewards that are not negative are not negative. -/
theorem payable_of_held (held : RewardsHeld bank distributionRatio denoms) :
    Payable (denoms.filterMap (rewardOf bank distributionRatio)) total winners := by
  intro winner member reward isReward
  obtain ⟨denom, listed, isOf⟩ := List.mem_filterMap.mp isReward
  rw [winnerShare_of_mem small positive covers member]
  exact Dec.mul_nonneg (held denom listed reward isOf) (shareOf_nonneg _ _)

/-- What the winners get together is within the pool, if the period's part of it is at most all. -/
theorem amountOf_paid_le (ctx : Ctx) (bank : Bank) (ratio : 0 ≤ distributionRatio.raw)
    (atMostOne : distributionRatio.raw ≤ Dec.precision) (nodup : denoms.Nodup) (denom : Denom) :
    amountOf (winners.flatMap (paid ctx (denoms.filterMap (rewardOf bank distributionRatio)) total)) denom ≤
      bank.balance ModuleAccount.oracle.address denom := by
  rw [amountOf_flatMap]
  apply Math.sum_parts_le winners (fun winner => (shareOf total winner.2.weight).raw) _
    (show (0 : ℤ) < Dec.precision by exact_mod_cast Dec.precision_pos) (mul_nonneg (Int.natCast_nonneg _) ratio)
    (mul_le_mul_of_nonneg_left atMostOne (Int.natCast_nonneg _))
  · have shares := Math.sum_shares_le (winners.map fun winner => winner.2.weight) Dec.precision positive covers
    rw [List.map_map] at shares
    have cast : (winners.map fun winner => (shareOf total winner.2.weight).raw).sum =
        ((winners.map ((fun weight => weight * Dec.precision / total) ∘ fun winner => winner.2.weight)).sum : ℕ) := by
      rw [Nat.cast_list_sum, List.map_map]
      rfl
    rw [cast]
    exact_mod_cast shares
  · intro winner member
    have share := shareOf_nonneg total winner.2.weight
    have most := part_le bank ratio share denom
    have least : (0 : ℤ) ≤ (2 * (bank.balance ModuleAccount.oracle.address denom * distributionRatio.raw) +
        Dec.precision) * (shareOf total winner.2.weight).raw :=
      mul_nonneg (add_nonneg (mul_nonneg two_pos.le (mul_nonneg (Int.natCast_nonneg _) ratio)) (Int.natCast_nonneg _)) share
    unfold paid
    split
    · rw [amountOf_rewardCoins bank distributionRatio _ nodup, winnerShare_of_mem small positive covers member]
      split
      · exact most
      · simpa using least
    · simpa using least

end Fitting

/-- All that the winners are paid, as one coin set. -/
def payout (ctx : Ctx) (bank : Bank) (distributionRatio : Dec) (denoms : List Denom) (total : ℕ)
    (winners : List (Sigma fun _ : ValAddress => Claim)) : List Coin :=
  (winners.flatMap (paid ctx (denoms.filterMap (rewardOf bank distributionRatio)) total)).foldl addToCoins []

theorem validCoins_payout (ctx : Ctx) {winners : List (Sigma fun _ : ValAddress => Claim)}
    (payable : Payable (denoms.filterMap (rewardOf bank distributionRatio)) total winners) :
    validCoins (payout ctx bank distributionRatio denoms total winners) := by
  apply validCoins_foldl_addToCoins validCoins_nil
  intro coin member
  obtain ⟨winner, listed, isPaid⟩ := List.mem_flatMap.mp member
  unfold paid at isPaid
  split at isPaid
  · exact (validCoins_rewardCoins (payable winner listed)).1 coin isPaid
  · cases isPaid

/-! ## The whole distribution -/

/-- The weight of all claims. -/
def totalWeight (claims : Claims) : ℕ := (claims.entries.map fun entry => entry.2.weight).sum

/-- A distribution in closed form. -/
structure Rewarded (ctx : Ctx) (bank : Bank) (targets : VoteTargets) (claims : Claims) (next : Bank)
    (allocations : List (ValAddress × List Coin)) (distributionRatio : Dec) : Prop where
  ratio : (Dec.ofInt (toInt64 ctx.params.votePeriod)).quoInt (toInt64 ctx.params.rewardDistributionWindow) =
    .ok distributionRatio
  held : RewardsHeld bank distributionRatio (ctx.orders.rewardDenoms.visit targets.keys)
  payable : Payable ((ctx.orders.rewardDenoms.visit targets.keys).filterMap (rewardOf bank distributionRatio))
    (totalWeight claims) (ctx.orders.winners.visit claims.entries)
  sent : sendToDistribution bank (payout ctx bank distributionRatio (ctx.orders.rewardDenoms.visit targets.keys)
    (totalWeight claims) (ctx.orders.winners.visit claims.entries)) = .ok next
  allocated : allocations = (ctx.orders.winners.visit claims.entries).filterMap (allocation ctx
    ((ctx.orders.rewardDenoms.visit targets.keys).filterMap (rewardOf bank distributionRatio)) (totalWeight claims))

theorem rewardBallotWinners_ok_iff {ctx : Ctx} {next : Bank} {targets : VoteTargets} {claims : Claims}
    {allocations : List (ValAddress × List Coin)} :
    rewardBallotWinners ctx bank targets claims = .ok (next, allocations) ↔
      (toInt64 (totalWeight claims) = 0 ∧ next = bank ∧ allocations = []) ∨
        (toInt64 (totalWeight claims) ≠ 0 ∧ ∃ ratio, Rewarded ctx bank targets claims next allocations ratio) := by
  unfold rewardBallotWinners
  rw [← totalWeight]
  by_cases zero : toInt64 (totalWeight claims) = 0
  · simp only [zero, if_pos, pure_ok_iff, Prod.mk.injEq, ne_eq, not_true_eq_false, true_and, false_and, or_false]
    exact and_congr eq_comm eq_comm
  · rw [if_neg zero]
    simp only [ok_iffs, periodRewards_ok_iff, rewardWinners_ok_iff ctx _ zero, Prod.mk.injEq]
    constructor
    · rintro ⟨ratio, isRatio, _, ⟨held, rfl⟩, _, ⟨payable, rfl⟩, bank, sent, rfl, rfl⟩
      exact .inr ⟨zero, ratio, isRatio, held, payable, sent, List.nil_append _⟩
    · rintro (⟨none, _⟩ | ⟨_, ratio, rewarded⟩)
      · exact absurd none zero
      · refine ⟨ratio, rewarded.ratio, _, ⟨rewarded.held, rfl⟩, _, ⟨rewarded.payable, rfl⟩, next, rewarded.sent, rfl, ?_⟩
        rw [rewarded.allocated]
        exact List.nil_append _

end Rotofury.Soundness.Oracle
