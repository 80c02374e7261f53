import Rotofury.ToMathlib.AListSum
import Rotofury.ToMathlib.ExceptFold
import Rotofury.Model.Gauge.Keeper

/-! # Gauges are isolated from each other

A reward belongs to a pool and a denomination, and its keys are the bytes of both. They tell the pools apart, and the
iteration over the rewards of a pool finds no others, exactly where no pool's denomination begins with another's.
-/

namespace Rotofury.Soundness.Gauge

open Model.Sdk Model.App Model.Gauge Except

/-! ## Keys of gauges and bribes

A key that ends in a number of fixed width, or in nothing, tells the pool it is of. A key that ends in a reward
denomination does not: the bytes of the pool's denomination and of the reward's run into each other.
-/

section

variable {left right : Base} {bases : Set Base} {leftDenom rightDenom : Denom} {leftId rightId : ℕ}

/-- The byte that tells gauges and bribes apart. -/
def kind (base : Base) : UInt8 := if base.isGauge then 1 else 2

theorem prefixKey_eq (base : Base) : base.prefixKey = kind base :: denomBytes base.depositDenom := by
  unfold Base.prefixKey kind gaugeKey bribeKey
  split <;> rfl

theorem kind_inj : kind left = kind right ↔ left.isGauge = right.isGauge := by
  unfold kind
  cases left.isGauge <;> cases right.isGauge <;> decide

theorem prefixKey_injective (same : left.prefixKey = right.prefixKey) : left = right := by
  rw [prefixKey_eq, prefixKey_eq, List.cons.injEq, kind_inj, denomBytes_inj] at same
  obtain ⟨isGauge, denom⟩ := same
  cases left
  cases right
  simp_all

/-- One pool's key begins with another's exactly if they are of one kind and the denomination does. -/
theorem prefixKey_isPrefix_iff :
    left.prefixKey <+: right.prefixKey ↔
      left.isGauge = right.isGauge ∧ denomBytes left.depositDenom <+: denomBytes right.depositDenom := by
  rw [prefixKey_eq, prefixKey_eq, List.cons_prefix_cons, kind_inj]

/-- Pools of which none begins with another. -/
def PrefixFree (bases : Set Base) : Prop :=
  ∀ left ∈ bases, ∀ right ∈ bases, left.isGauge = right.isGauge →
    denomBytes left.depositDenom <+: denomBytes right.depositDenom → left = right

theorem PrefixFree.eq_of_prefix (free : PrefixFree bases) (leftIn : left ∈ bases) (rightIn : right ∈ bases)
    {key : Bytes} (leftPrefix : left.prefixKey <+: key) (rightPrefix : right.prefixKey <+: key) :
    left = right := by
  rcases List.prefix_or_prefix_of_prefix leftPrefix rightPrefix with shorter | longer
  · obtain ⟨sameKind, starts⟩ := prefixKey_isPrefix_iff.mp shorter
    exact free left leftIn right rightIn sameKind starts
  · obtain ⟨sameKind, starts⟩ := prefixKey_isPrefix_iff.mp longer
    exact (free right rightIn left leftIn sameKind starts).symm

theorem PrefixFree.append_injective (free : PrefixFree bases) (leftIn : left ∈ bases) (rightIn : right ∈ bases)
    (same : left.prefixKey ++ denomBytes leftDenom = right.prefixKey ++ denomBytes rightDenom) :
    left = right ∧ leftDenom = rightDenom := by
  have starts : left.prefixKey <+: right.prefixKey ++ denomBytes rightDenom := same ▸ List.prefix_append _ _
  obtain rfl := free.eq_of_prefix leftIn rightIn starts (List.prefix_append _ _)
  exact ⟨rfl, denomBytes_injective (List.append_cancel_left same)⟩

section Injective

variable {left right : Base}

theorem depositedAmountByUserKey_injective (leftFits : leftId < 2 ^ 64) (rightFits : rightId < 2 ^ 64)
    (same : depositedAmountByUserKey left.prefixKey leftId = depositedAmountByUserKey right.prefixKey rightId) :
    left = right ∧ leftId = rightId := by
  obtain ⟨pools, ids⟩ := append_uint64_injective leftFits rightFits same
  exact ⟨prefixKey_injective (List.cons.inj pools).2, ids⟩

theorem derivedAmountByUserKey_injective (leftFits : leftId < 2 ^ 64) (rightFits : rightId < 2 ^ 64)
    (same : derivedAmountByUserKey left.prefixKey leftId = derivedAmountByUserKey right.prefixKey rightId) :
    left = right ∧ leftId = rightId := by
  obtain ⟨pools, ids⟩ := append_uint64_injective leftFits rightFits same
  exact ⟨prefixKey_injective (List.cons.inj pools).2, ids⟩

/-- Reward checkpoints of one key are of one epoch, modulo the width of the number. -/
theorem rewardPointKey_denoms {leftEpoch rightEpoch : ℕ}
    (same : rewardPointKey left.prefixKey leftDenom leftEpoch = rewardPointKey right.prefixKey rightDenom rightEpoch) :
    left.prefixKey ++ denomBytes leftDenom = right.prefixKey ++ denomBytes rightDenom := by
  obtain ⟨fronts, _⟩ := List.append_inj' same (by simp)
  exact (List.cons.inj fronts).2

end Injective

end

variable {reward : Reward} {accrual next : Accrual} {epoch now : ℕ} {store : Store} {base : Base} {key : Bytes}
  {writes : List RewardWrite}

/-! ## What a reward writes -/

/-- Only the records of one reward of one pool have been written. -/
structure Touches (base : Base) (rewardDenom : Denom) (before after : Store) : Prop where
  rewards : after.rewards = before.rewards ∨ ∃ reward, reward.denom = (before.getReward base rewardDenom).denom ∧
    after.rewards = before.rewards.insert (rewardKey base.prefixKey rewardDenom) reward
  rewardEpoch : ∀ key, key ≠ rewardEpochKey base.prefixKey rewardDenom → after.rewardEpoch key = before.rewardEpoch key
  rewardCheckpoint : ∀ key, (∀ epoch, key ≠ rewardPointKey base.prefixKey rewardDenom epoch) →
    after.rewardCheckpoint key = before.rewardCheckpoint key
  rest : { after with
    rewards := before.rewards
    rewardEpoch := before.rewardEpoch
    rewardCheckpoint := before.rewardCheckpoint } = before

section Touches

variable {base : Base} {rewardDenom : Denom} {first middle last store : Store}

theorem Touches.refl (base : Base) (rewardDenom : Denom) (store : Store) : Touches base rewardDenom store store :=
  ⟨.inl rfl, fun _ _ => rfl, fun _ _ => rfl, rfl⟩

/-- A record keeps the denomination it names. -/
theorem Touches.denom (touches : Touches base rewardDenom first last) :
    (last.getReward base rewardDenom).denom = (first.getReward base rewardDenom).denom := by
  rcases touches.rewards with same | ⟨reward, sameDenom, written⟩
  · unfold Store.getReward
    rw [same]
  · rw [← sameDenom, Store.getReward, written, AList.lookup_insert]
    rfl

theorem Touches.trans (earlier : Touches base rewardDenom first middle) (later : Touches base rewardDenom middle last) :
    Touches base rewardDenom first last where
  rewards := by
    rcases later.rewards with kept | ⟨reward, sameDenom, rewritten⟩
    · rw [kept]
      exact earlier.rewards
    · refine .inr ⟨reward, sameDenom.trans earlier.denom, ?_⟩
      rcases earlier.rewards with same | ⟨old, _, written⟩
      · rw [rewritten, same]
      · rw [rewritten, written, AList.insert_insert]
  rewardEpoch key other := (later.rewardEpoch key other).trans (earlier.rewardEpoch key other)
  rewardCheckpoint key other := (later.rewardCheckpoint key other).trans (earlier.rewardCheckpoint key other)
  rest := by
    rw [← earlier.rest]
    have same := congrArg (fun store => { store with
      rewards := first.rewards
      rewardEpoch := first.rewardEpoch
      rewardCheckpoint := first.rewardCheckpoint }) later.rest
    exact same

theorem touches_setReward (sameDenom : reward.denom = (store.getReward base rewardDenom).denom) :
    Touches base rewardDenom store (store.setReward base rewardDenom reward) :=
  ⟨.inr ⟨reward, sameDenom, rfl⟩, fun _ _ => rfl, fun _ _ => rfl, rfl⟩

theorem touches_writeRewardPerTicketCheckpoint (base : Base) (rewardDenom : Denom) (store : Store) (reward : ℤ)
    (timestamp : ℕ) :
    Touches base rewardDenom store (store.writeRewardPerTicketCheckpoint base rewardDenom reward timestamp) where
  rewards := .inl rfl
  rewardEpoch _ other := Function.update_of_ne other ..
  rewardCheckpoint _ other := Function.update_of_ne (other _) ..
  rest := rfl

theorem touches_turn (ok : accrual.turn base rewardDenom epoch = .ok next) :
    Touches base rewardDenom accrual.store next.store := by
  simp only [Accrual.turn, bind_ok_iff] at ok
  obtain ⟨amount, _, ok⟩ := ok
  split at ok
  · cases ok
    exact .refl ..
  · simp only [ok_iffs] at ok
    obtain ⟨_, _, rfl⟩ := ok
    exact touches_writeRewardPerTicketCheckpoint ..

theorem touches_finish (ok : accrual.finish base now rewardDenom epoch = .ok next) :
    Touches base rewardDenom accrual.store next.store := by
  simp only [Accrual.finish, bind_ok_iff] at ok
  obtain ⟨amount, _, ok⟩ := ok
  split at ok
  · cases ok
    exact .refl ..
  · simp only [ok_iffs] at ok
    obtain ⟨_, _, rfl⟩ := ok
    exact touches_writeRewardPerTicketCheckpoint ..

theorem touches_updateRewardPerTicket {next : Store}
    (ok : store.updateRewardPerTicket base now rewardDenom = .ok next) :
    Touches base rewardDenom store next := by
  unfold Store.updateRewardPerTicket at ok
  simp only at ok
  split at ok
  · cases ok
    exact .refl ..
  split at ok
  · cases ok
    exact touches_setReward rfl
  simp only [ok_iffs] at ok
  obtain ⟨accrual, loop, final, finish, rfl⟩ := ok
  have looped : Touches base rewardDenom store accrual.store :=
    foldlM_invariant (fun accrual : Accrual => Touches base rewardDenom store accrual.store) (.refl ..)
      (fun _ _ _ _ held turn => held.trans (touches_turn turn)) loop
  have accrued := looped.trans (touches_finish finish)
  exact accrued.trans (touches_setReward accrued.denom.symm)

theorem touches_depositReward {moduleAddress : String → Address} {env : Env} {state next : State} {sender : Address}
    {amount : ℤ} (ok : depositReward moduleAddress env base state sender rewardDenom amount = .ok next) :
    Touches base rewardDenom state.store next.store := by
  simp only [depositReward, ok_iffs] at ok
  obtain ⟨_, _, _, _, store, update, coins, _, bank, _, ⟨reward, _⟩, refill, _, _, rfl⟩ := ok
  have sameDenom : reward.denom = (store.getReward base rewardDenom).denom := by
    simp only [Reward.refill, ok_iffs, Prod.mk.injEq] at refill
    obtain ⟨_, _, _, _, rfl, _⟩ := refill
    rfl
  refine Touches.trans (Touches.trans ?_ (touches_updateRewardPerTicket update)) (touches_setReward sameDenom)
  split
  · exact touches_writeRewardPerTicketCheckpoint ..
  · exact .refl ..

end Touches

/-! ## Iterating over rewards -/

private theorem filter_kerase {α β : Type} [DecidableEq α] {keep : α → Bool} {key : α} (dropped : keep key = false)
    (entries : List (Sigma fun _ : α => β)) :
    (entries.kerase key).filter (fun entry => keep entry.1) = entries.filter fun entry => keep entry.1 := by
  induction entries with
  | nil => rfl
  | cons entry rest ih =>
    by_cases same : key = entry.1
    · rw [List.kerase_cons_eq same, List.filter_cons_of_neg (by rw [← same, dropped]; decide)]
    · rw [List.kerase_cons_ne same, List.filter_cons, List.filter_cons, ih]

/-- A reward that is written under another pool's key is not found. -/
theorem iterateRewards_insert {next : Store} (written : next.rewards = store.rewards.insert key reward)
    (other : ¬ rewardKeyPrefix base.prefixKey <+: key) :
    next.iterateRewards base = store.iterateRewards base := by
  have dropped : (rewardKeyPrefix base.prefixKey).isPrefixOf key = false := by
    rw [Bool.eq_false_iff, ne_eq, List.isPrefixOf_iff_prefix]
    exact other
  unfold Store.iterateRewards
  rw [written, AList.entries_insert, List.filter_cons_of_neg (by rw [dropped]; decide), filter_kerase dropped]

theorem mem_iterateRewards_iff :
    reward ∈ store.iterateRewards base ↔
      ∃ key, store.rewards.lookup key = some reward ∧ rewardKeyPrefix base.prefixKey <+: key := by
  simp only [Store.iterateRewards, List.mem_map, List.mem_insertionSort, List.mem_filter, List.isPrefixOf_iff_prefix]
  constructor
  · rintro ⟨entry, ⟨inside, starts⟩, rfl⟩
    exact ⟨entry.1, AList.mem_lookup_iff.mpr inside, starts⟩
  · rintro ⟨key, found, starts⟩
    exact ⟨⟨key, reward⟩, ⟨AList.mem_lookup_iff.mp found, starts⟩, rfl⟩

/-- One write of a reward record. -/
structure RewardWrite where
  base : Base
  rewardDenom : Denom
  reward : Reward

/-- The store after writes of reward records. -/
def writeRewards (writes : List RewardWrite) : Store :=
  writes.foldl (fun store write => store.setReward write.base write.rewardDenom write.reward) .empty

/-- The record that was written last for a reward of a pool. -/
def lastWritten (writes : List RewardWrite) (base : Base) (rewardDenom : Denom) : Option Reward :=
  (writes.reverse.find? fun write => write.base = base ∧ write.rewardDenom = rewardDenom).map (·.reward)

theorem writeRewards_concat (writes : List RewardWrite) (write : RewardWrite) :
    writeRewards (writes ++ [write]) = (writeRewards writes).setReward write.base write.rewardDenom write.reward := by
  simp [writeRewards]

theorem lastWritten_concat (writes : List RewardWrite) (write : RewardWrite) (base : Base) (rewardDenom : Denom) :
    lastWritten (writes ++ [write]) base rewardDenom =
      if write.base = base ∧ write.rewardDenom = rewardDenom then some write.reward
      else lastWritten writes base rewardDenom := by
  unfold lastWritten
  rw [List.reverse_concat, List.find?_cons]
  split_ifs with here
  · simp [here]
  · simp [here]

section PrefixFree

variable {bases : Set Base} (free : PrefixFree bases)
include free

theorem rewardKey_injective {left right : Base} (leftIn : left ∈ bases) (rightIn : right ∈ bases)
    {leftDenom rightDenom : Denom} (same : rewardKey left.prefixKey leftDenom = rewardKey right.prefixKey rightDenom) :
    left = right ∧ leftDenom = rightDenom :=
  free.append_injective leftIn rightIn (List.cons.inj same).2

theorem lookup_writeRewards (inside : ∀ write ∈ writes, write.base ∈ bases) (member : base ∈ bases)
    (rewardDenom : Denom) :
    (writeRewards writes).rewards.lookup (rewardKey base.prefixKey rewardDenom) = lastWritten writes base rewardDenom := by
  induction writes using List.reverseRecOn with
  | nil => rfl
  | append_singleton writes write ih =>
    have earlier := ih fun other before => inside other (by simp [before])
    rw [writeRewards_concat, lastWritten_concat, Store.setReward, AList.lookup_insert_eq_ite, earlier]
    by_cases same : write.base = base ∧ write.rewardDenom = rewardDenom
    · rw [if_pos same, if_pos (by rw [same.1, same.2])]
    · rw [if_neg same, if_neg]
      intro keys
      obtain ⟨sameBase, sameDenom⟩ := rewardKey_injective free member (inside write (by simp)) keys
      exact same ⟨sameBase.symm, sameDenom.symm⟩

omit free in
theorem exists_write (found : (writeRewards writes).rewards.lookup key = some reward) :
    ∃ write ∈ writes, key = rewardKey write.base.prefixKey write.rewardDenom := by
  induction writes using List.reverseRecOn with
  | nil => cases found
  | append_singleton writes write ih =>
    rw [writeRewards_concat, Store.setReward, AList.lookup_insert_eq_ite] at found
    split at found
    · next same => exact ⟨write, by simp, same⟩
    · obtain ⟨earlier, inside, same⟩ := ih found
      exact ⟨earlier, by simp [inside], same⟩

/-- Iterating finds what was written for the pool, and nothing else. -/
theorem mem_iterateRewards_writeRewards (inside : ∀ write ∈ writes, write.base ∈ bases) (member : base ∈ bases)
    (reward : Reward) :
    reward ∈ (writeRewards writes).iterateRewards base ↔
      ∃ rewardDenom, lastWritten writes base rewardDenom = some reward := by
  rw [mem_iterateRewards_iff]
  constructor
  · rintro ⟨key, found, starts⟩
    obtain ⟨write, written, rfl⟩ := exists_write found
    rw [rewardKey, rewardKeyPrefix, rewardKeyPrefix, List.cons_append, List.cons_prefix_cons] at starts
    obtain rfl := free.eq_of_prefix member (inside write written) starts.2 (List.prefix_append _ _)
    exact ⟨write.rewardDenom, by rw [← lookup_writeRewards free inside member, found]⟩
  · rintro ⟨rewardDenom, last⟩
    exact ⟨_, (lookup_writeRewards free inside member rewardDenom).trans last, List.prefix_append _ _⟩

end PrefixFree

/-! ## Isolation -/

/-- All that is known of the rewards of a pool is the same. -/
structure SameRewards (base : Base) (before after : Store) : Prop where
  denoms : after.getRewardDenoms base = before.getRewardDenoms base
  reward : ∀ rewardDenom, after.getReward base rewardDenom = before.getReward base rewardDenom
  rewardEpoch : ∀ rewardDenom, after.getRewardEpoch base rewardDenom = before.getRewardEpoch base rewardDenom
  rewardCheckpoint : ∀ rewardDenom epoch,
    after.getRewardCheckpoint base rewardDenom epoch = before.getRewardCheckpoint base rewardDenom epoch

/-- The records of one pool's reward are not those of another pool. -/
theorem Touches.sameRewards {bases : Set Base} (free : PrefixFree bases) {other : Base} (baseIn : base ∈ bases)
    (otherIn : other ∈ bases) (different : base ≠ other) {rewardDenom : Denom} {before after : Store}
    (touches : Touches base rewardDenom before after) : SameRewards other before after where
  denoms := by
    unfold Store.getRewardDenoms
    rcases touches.rewards with same | ⟨reward, _, written⟩
    · unfold Store.iterateRewards
      rw [same]
    · rw [iterateRewards_insert written]
      rintro starts
      rw [rewardKey, rewardKeyPrefix, rewardKeyPrefix, List.cons_append, List.cons_prefix_cons] at starts
      exact different (free.eq_of_prefix baseIn otherIn (List.prefix_append _ _) starts.2)
  reward query := by
    unfold Store.getReward
    rcases touches.rewards with same | ⟨reward, _, written⟩
    · rw [same]
    · rw [written, AList.lookup_insert_ne]
      intro keys
      exact different (rewardKey_injective free otherIn baseIn keys).1.symm
  rewardEpoch query := by
    apply touches.rewardEpoch
    intro keys
    exact different (free.append_injective otherIn baseIn (List.cons.inj keys).2).1.symm
  rewardCheckpoint query epoch := by
    apply touches.rewardCheckpoint
    intro written keys
    exact different (free.append_injective otherIn baseIn (rewardPointKey_denoms keys)).1.symm

/-- The rewards of some pools are kept apart: the keys of their records differ, iterating over those of one pool yields
what was written for it, and a deposit of rewards in one leaves those of the others as they are. -/
structure Isolated (moduleAddress : String → Address) (bases : Set Base) : Prop where
  keys : ∀ left ∈ bases, ∀ right ∈ bases, ∀ leftDenom rightDenom, validateDenom leftDenom = true →
    validateDenom rightDenom = true → (left, leftDenom) ≠ (right, rightDenom) →
      rewardKey left.prefixKey leftDenom ≠ rewardKey right.prefixKey rightDenom ∧
      rewardEpochKey left.prefixKey leftDenom ≠ rewardEpochKey right.prefixKey rightDenom ∧
      ∀ leftEpoch rightEpoch,
        rewardPointKey left.prefixKey leftDenom leftEpoch ≠ rewardPointKey right.prefixKey rightDenom rightEpoch
  iterated : ∀ writes : List RewardWrite,
    (∀ write ∈ writes, write.base ∈ bases ∧ validateDenom write.rewardDenom = true) → ∀ base ∈ bases, ∀ reward,
      reward ∈ (writeRewards writes).iterateRewards base ↔
        ∃ rewardDenom, lastWritten writes base rewardDenom = some reward
  deposits : ∀ left ∈ bases, ∀ right ∈ bases, left ≠ right → ∀ env state sender rewardDenom amount next,
    depositReward moduleAddress env left state sender rewardDenom amount = .ok next →
      SameRewards right state.store next.store

/-- Pools are isolated exactly if no denomination of one kind of pool begins with another's. -/
theorem pools_isolated_iff (moduleAddress : String → Address) (bases : Set Base) :
    Isolated moduleAddress bases ↔ PrefixFree bases := by
  constructor
  · intro isolated left leftIn right rightIn sameKind starts
    -- a reward of the longer pool is found among those of the shorter one
    have written := isolated.iterated [⟨right, "abc", ⟨"abc", 0, 0, 0, 0, 0⟩⟩]
      (by simp [rightIn, show validateDenom "abc" = true by decide]) left leftIn ⟨"abc", 0, 0, 0, 0, 0⟩
    have found : (⟨"abc", 0, 0, 0, 0, 0⟩ : Reward) ∈
        (writeRewards [⟨right, "abc", ⟨"abc", 0, 0, 0, 0, 0⟩⟩]).iterateRewards left := by
      refine mem_iterateRewards_iff.mpr ⟨_, AList.lookup_insert _, ?_⟩
      rw [rewardKey, rewardKeyPrefix, rewardKeyPrefix, List.cons_append, List.cons_prefix_cons]
      exact ⟨rfl, (prefixKey_isPrefix_iff.mpr ⟨sameKind, starts⟩).trans (List.prefix_append _ _)⟩
    obtain ⟨rewardDenom, last⟩ := written.mp found
    rw [← List.nil_append [_], lastWritten_concat] at last
    split at last
    · next same => exact same.1.symm
    · cases last
  · intro free
    refine ⟨fun left leftIn right rightIn leftDenom rightDenom _ _ different => ?_,
      fun writes inside base member reward =>
        mem_iterateRewards_writeRewards free (fun write written => (inside write written).1) member reward,
      fun left leftIn right rightIn different env state sender rewardDenom amount next success =>
        (touches_depositReward success).sameRewards free leftIn rightIn different⟩
    have apart : left.prefixKey ++ denomBytes leftDenom ≠ right.prefixKey ++ denomBytes rightDenom := by
      intro same
      obtain ⟨rfl, rfl⟩ := free.append_injective leftIn rightIn same
      exact different rfl
    exact ⟨fun keys => apart (List.cons.inj keys).2, fun keys => apart (List.cons.inj keys).2,
      fun _ _ keys => apart (rewardPointKey_denoms keys)⟩

/-- A block in which no ve has power and every ve is owned by one account. -/
def sampleEnv : Env :=
  ⟨⟨1000, 1, "airon", none, by decide, by decide⟩, .empty, fun _ => 5⟩

def samplePools (_ : String) : Address := 9

def sampleState : State := genesis ⟨fun _ _ => 604800, fun _ => 604800⟩

/-- Two gauges share a key, and a reward for one becomes a reward of the other. -/
theorem prefixed_pools_not_isolated :
    rewardKey (Base.prefixKey ⟨"abc", true⟩) "dxyz" = rewardKey (Base.prefixKey ⟨"abcd", true⟩) "xyz" ∧
      (∃ next, depositReward samplePools sampleEnv ⟨"abcd", true⟩ sampleState 5 "uusm" 604800 = .ok next ∧
        sampleState.store.getRewardDenoms ⟨"abc", true⟩ = [] ∧ next.store.getRewardDenoms ⟨"abc", true⟩ = ["uusm"]) ∧
      ¬ Isolated samplePools {⟨"abc", true⟩, ⟨"abcd", true⟩} := by
  have deposited : ((depositReward samplePools sampleEnv ⟨"abcd", true⟩ sampleState 5 "uusm" 604800).map
      fun next => next.store.getRewardDenoms ⟨"abc", true⟩) = .ok ["uusm"] := by decide +kernel
  obtain ⟨next, success, denoms⟩ := map_ok_iff.mp deposited
  refine ⟨by decide +kernel, ⟨next, success, rfl, denoms⟩, fun isolated => ?_⟩
  have same := isolated.deposits ⟨"abcd", true⟩ (by simp) ⟨"abc", true⟩ (by simp) (by decide) _ _ _ _ _ _ success
  cases denoms.symm.trans same.denoms

end Rotofury.Soundness.Gauge
