import Rotofury.Soundness.Gauge.Totals

/-! # Gauges hold what was deposited

The pool account of a gauge pays withdrawals and rewards. The pool's own denomination is no reward, so where the records
of rewards are stored under different keys a claim never pays out of the deposits.
-/

namespace Rotofury.Soundness.Gauge

open Model.Sdk Model.App Model.Gauge Except

variable {now veId : ℕ} {denom rewardDenom : Denom} {amount : ℤ} {state next : State} {env : Env} {base : Base}

/-- The rewards of some pools in some denominations are stored under different keys, and different pools have different
accounts. -/
structure Distinct (moduleAddress : String → Address) (pools : Set Base) (denoms : Set Denom) : Prop where
  own : ∀ pool ∈ pools, pool.depositDenom ∈ denoms
  keys : ∀ left ∈ pools, ∀ right ∈ pools, ∀ leftDenom ∈ denoms, ∀ rightDenom ∈ denoms,
    rewardKey left.prefixKey leftDenom = rewardKey right.prefixKey rightDenom → left = right ∧ leftDenom = rightDenom
  escrows : ∀ left ∈ pools, ∀ right ∈ pools, left.escrowPool moduleAddress = right.escrowPool moduleAddress → left = right

/-- Records of rewards name denominations among the given ones. -/
def Recorded (denoms : Set Denom) (store : Store) : Prop :=
  ∀ key reward, store.rewards.lookup key = some reward → reward.denom ∈ denoms

/-- A gauge has no reward in its own denomination. -/
structure Dry (store : Store) (denom : Denom) : Prop where
  rate : (store.getReward ⟨denom, true⟩ denom).rate = 0
  checkpoint : ∀ epoch, (store.getRewardCheckpoint ⟨denom, true⟩ denom epoch).amount = none

section Rewards

variable {moduleAddress : String → Address} {pools : Set Base} {denoms : Set Denom} {base : Base} {rewardDenom denom : Denom}
  {before after : Store}

theorem Recorded.same (recorded : Recorded denoms before) (same : SameRewardRecords before after) :
    Recorded denoms after := by
  intro key reward found
  rw [same.rewards] at found
  exact recorded key reward found

theorem Dry.same (dry : Dry before denom) (same : SameRewardRecords before after) : Dry after denom where
  rate := by
    unfold Store.getReward
    rw [same.rewards]
    exact dry.rate
  checkpoint epoch := by
    unfold Store.getRewardCheckpoint
    rw [same.rewardCheckpoint]
    exact dry.checkpoint epoch

section

variable (recorded : Recorded denoms before)
include recorded

theorem Recorded.reward (inside : rewardDenom ∈ denoms) : (before.getReward base rewardDenom).denom ∈ denoms := by
  unfold Store.getReward
  rcases found : before.rewards.lookup (rewardKey base.prefixKey rewardDenom) with _ | reward
  · exact inside
  · exact recorded _ reward found

theorem Recorded.touches (inside : rewardDenom ∈ denoms) (touches : Touches base rewardDenom before after) :
    Recorded denoms after := by
  unfold Recorded
  rcases touches.rewards with same | ⟨written, sameDenom, inserted⟩
  · rw [same]
    exact recorded
  · rw [inserted]
    exact AList.forall_lookup_insert (sameDenom ▸ recorded.reward inside) recorded

theorem Recorded.rewardDenoms {query : Denom} (listed : query ∈ before.getRewardDenoms base) : query ∈ denoms := by
  obtain ⟨reward, found, rfl⟩ := List.mem_map.mp listed
  obtain ⟨key, lookup, _⟩ := mem_iterateRewards_iff.mp found
  exact recorded key reward lookup

end

variable (distinct : Distinct moduleAddress pools denoms) (baseIn : base ∈ pools) (inside : rewardDenom ∈ denoms)
  (member : (⟨denom, true⟩ : Base) ∈ pools)
include distinct baseIn inside member

theorem Distinct.keys_ne (other : ¬ (base = ⟨denom, true⟩ ∧ rewardDenom = denom)) :
    rewardKey (Base.prefixKey ⟨denom, true⟩) denom ≠ rewardKey base.prefixKey rewardDenom := by
  intro keys
  obtain ⟨sameBase, sameDenom⟩ := distinct.keys _ member base baseIn denom (distinct.own _ member) rewardDenom inside keys
  exact other ⟨sameBase.symm, sameDenom.symm⟩

/-- Another reward leaves a gauge without one in its own denomination. -/
theorem Dry.touches (dry : Dry before denom) (other : ¬ (base = ⟨denom, true⟩ ∧ rewardDenom = denom))
    (touches : Touches base rewardDenom before after) : Dry after denom where
  rate := by
    unfold Store.getReward
    rcases touches.rewards with same | ⟨reward, _, written⟩
    · rw [same]
      exact dry.rate
    · rw [written, AList.lookup_insert_ne]
      · exact dry.rate
      · exact distinct.keys_ne baseIn inside member other
  checkpoint epoch := by
    unfold Store.getRewardCheckpoint
    rw [touches.rewardCheckpoint]
    · exact dry.checkpoint epoch
    · intro written keys
      exact distinct.keys_ne baseIn inside member other (congrArg (List.cons 7) (rewardPointKey_denoms keys))

theorem Dry.update (dry : Dry before denom) (ok : before.updateRewardPerTicket base now rewardDenom = .ok after) :
    Dry after denom := by
  by_cases own : base = ⟨denom, true⟩ ∧ rewardDenom = denom
  · obtain ⟨rfl, rfl⟩ := own
    unfold Store.updateRewardPerTicket at ok
    simp only [dry.rate, if_true] at ok
    split at ok
    · cases ok
      exact dry
    · cases ok
      refine ⟨?_, dry.checkpoint⟩
      rw [Store.getReward, Store.setReward, AList.lookup_insert]
      rfl
  · exact dry.touches distinct baseIn inside member own (touches_updateRewardPerTicket ok)

end Rewards

/-- There is nothing to claim in the gauge's own denomination. -/
theorem Dry.userReward {store : Store} (dry : Dry store denom)
    (ok : store.userReward ⟨denom, true⟩ now denom veId = .ok amount) : amount = 0 := by
  unfold Store.userReward at ok
  simp only at ok
  split at ok
  · exact (Except.ok.inj ok).symm
  · simp only [bind_ok_iff] at ok
    obtain ⟨_, _, _, read, _⟩ := ok
    rw [Store.findPriorRewardPerTicket, dry.checkpoint] at read
    cases read

/-! ## The pool accounts -/

/-- What a gauge's pool account holds of the gauge's denomination. -/
def held (moduleAddress : String → Address) (bank : Bank) (denom : Denom) : ℤ :=
  bank.balance (Base.escrowPool ⟨denom, true⟩ moduleAddress) denom

/-- What holds of a gauge in every run: no reward in its own denomination, and deposits that are covered. -/
structure Safe (moduleAddress : String → Address) (pools : Set Base) (denoms : Set Denom) (state : State) : Prop where
  recorded : Recorded denoms state.store
  dry : ∀ denom, (⟨denom, true⟩ : Base) ∈ pools → Dry state.store denom
  covered : ∀ denom, (⟨denom, true⟩ : Base) ∈ pools →
    state.store.getTotalDepositedAmount ⟨denom, true⟩ ≤ held moduleAddress state.bank denom

/-- Calls are on the given pools with rewards in the given denominations; amounts are positive, and whoever pays is not
the account of a pool. -/
def Admitted (moduleAddress : String → Address) (pools : Set Base) (denoms : Set Denom) (event : Event) : Prop :=
  PositiveCall event.call ∧
    match event.call with
    | .createGauge _ | .bribeDeposit .. | .bribeWithdraw .. => True
    | .deposit denom veId _ => ⟨denom, true⟩ ∈ pools ∧ ∀ pool ∈ pools, event.env.owner veId ≠ pool.escrowPool moduleAddress
    | .withdraw denom _ _ => ⟨denom, true⟩ ∈ pools
    | .claimReward base _ => base ∈ pools
    | .depositReward base sender rewardDenom _ =>
      base ∈ pools ∧ rewardDenom ∈ denoms ∧ ∀ pool ∈ pools, sender ≠ pool.escrowPool moduleAddress

/-- Votes that are counted in a bribe concern no deposit into a gauge. -/
theorem bribe_safe {moduleAddress : String → Address} {pools : Set Base} {denoms : Set Denom}
    (safe : Safe moduleAddress pools denoms state) (moved : Moved ⟨denom, false⟩ veId amount state.store next.store)
    (rewards : SameRewardRecords state.store next.store) (bank : next.bank = state.bank) :
    Safe moduleAddress pools denoms next := by
  refine ⟨safe.recorded.same rewards, fun gauge member => (safe.dry gauge member).same rewards, fun gauge member => ?_⟩
  rw [moved.totalDeposited, if_neg (by simp), add_zero, bank]
  exact safe.covered gauge member

section Bank

variable {moduleAddress : String → Address} {pools : Set Base} {denoms : Set Denom}
  (distinct : Distinct moduleAddress pools denoms)
include distinct

theorem onAccount_escrow {left right : Base} (leftIn : left ∈ pools) (rightIn : right ∈ pools) (amount : ℤ) :
    Bank.onAccount (left.escrowPool moduleAddress) (right.escrowPool moduleAddress) amount =
      if right = left then amount else 0 := by
  unfold Bank.onAccount
  refine if_congr ⟨distinct.escrows right rightIn left leftIn, ?_⟩ rfl rfl
  rintro rfl
  rfl

/-- A claim takes nothing from a gauge's deposits. -/
theorem claimRewardDenom_held (baseIn : base ∈ pools) (inside : rewardDenom ∈ denoms)
    (member : (⟨denom, true⟩ : Base) ∈ pools) (dry : Dry state.store denom)
    (ok : claimRewardDenom moduleAddress env base veId state rewardDenom = .ok next) :
    held moduleAddress state.bank denom ≤ held moduleAddress next.bank denom := by
  simp only [claimRewardDenom, bind_ok_iff] at ok
  obtain ⟨store, update, amount, due, ok⟩ := ok
  have stillDry := dry.update distinct baseIn inside member update
  split at ok
  · next positive =>
    simp only [ok_iffs] at ok
    obtain ⟨coins, build, bank, send, rfl⟩ := ok
    obtain ⟨_, amounts, _⟩ := newCoins_ok build
    unfold held
    rw [(Bank.sendCoins_ok send).1, amounts, amountOf_cons, amountOf_nil, add_zero,
      onAccount_escrow distinct baseIn member]
    dsimp only
    have received : 0 ≤ Bank.onAccount (env.owner veId) (Base.escrowPool ⟨denom, true⟩ moduleAddress)
        (onDenom rewardDenom amount denom) := by
      unfold Bank.onAccount
      split
      · exact onDenom_nonneg rewardDenom positive.le denom
      · exact le_rfl
    split
    · next own =>
      subst own
      by_cases same : rewardDenom = denom
      · subst same
        exact absurd (stillDry.userReward due) positive.ne'
      · rw [onDenom_of_ne same] at received ⊢
        omega
    · omega
  · cases ok
    exact le_rfl

theorem claimReward_safe (baseIn : base ∈ pools) (fits : veId < 2 ^ 64) (safe : Safe moduleAddress pools denoms state)
    (ok : claimReward moduleAddress env base state veId = .ok next) : Safe moduleAddress pools denoms next := by
  have sameDeposits := (claimReward_sameDeposits fits ok).1
  simp only [claimReward, ok_iffs] at ok
  obtain ⟨claimed, loop, store, derive, rfl⟩ := ok
  -- the denominations are those listed at the start
  have looped : Recorded denoms claimed.store ∧ ∀ denom, (⟨denom, true⟩ : Base) ∈ pools → Dry claimed.store denom ∧
      held moduleAddress state.bank denom ≤ held moduleAddress claimed.bank denom := by
    refine foldlM_invariant (fun later : State => Recorded denoms later.store ∧
      ∀ denom, (⟨denom, true⟩ : Base) ∈ pools → Dry later.store denom ∧
        held moduleAddress state.bank denom ≤ held moduleAddress later.bank denom)
      ⟨safe.recorded, fun denom member => ⟨safe.dry denom member, le_rfl⟩⟩ ?_ loop
    rintro before rewardDenom after listed ⟨recorded, others⟩ turn
    have inside := safe.recorded.rewardDenoms listed
    obtain ⟨update, _⟩ := claimRewardDenom_ok turn
    refine ⟨recorded.touches inside (touches_updateRewardPerTicket update), fun denom member => ?_⟩
    obtain ⟨dry, paid⟩ := others denom member
    exact ⟨dry.update distinct baseIn inside member update,
      paid.trans (claimRewardDenom_held distinct baseIn inside member dry turn)⟩
  have sameRewards := deriveAmountForUser_sameRewards derive
  refine ⟨looped.1.same sameRewards, fun denom member => (looped.2 denom member).1.same sameRewards,
    fun denom member => ?_⟩
  have total : store.getTotalDepositedAmount ⟨denom, true⟩ = state.store.getTotalDepositedAmount ⟨denom, true⟩ :=
    congrFun sameDeposits.totalDeposited _
  have before := safe.covered denom member
  have paid := (looped.2 denom member).2
  show store.getTotalDepositedAmount ⟨denom, true⟩ ≤ held moduleAddress claimed.bank denom
  omega

/-- A deposit is paid to the gauge's account, a withdrawal from it. -/
theorem shifted_safe (gaugeIn : (⟨denom, true⟩ : Base) ∈ pools)
    (payer : 0 < amount → ∀ pool ∈ pools, env.owner veId ≠ pool.escrowPool moduleAddress)
    (safe : Safe moduleAddress pools denoms state)
    (shifted : Shifted moduleAddress env ⟨denom, true⟩ veId amount state next) :
    Safe moduleAddress pools denoms next := by
  refine ⟨safe.recorded.same shifted.rewards, fun gauge member => (safe.dry gauge member).same shifted.rewards,
    fun gauge member => ?_⟩
  have before := safe.covered gauge member
  have paid : Bank.onAccount (env.owner veId) (Base.escrowPool ⟨gauge, true⟩ moduleAddress)
      (onDenom denom amount gauge) ≤ 0 := by
    unfold Bank.onAccount
    split
    · next same =>
      have drawn : amount ≤ 0 := by
        by_contra positive
        exact payer (by omega) _ member same.symm
      have nonneg := onDenom_nonneg denom (neg_nonneg.mpr drawn) gauge
      rw [onDenom_neg] at nonneg
      omega
    · exact le_rfl
  unfold held at before ⊢
  rw [shifted.moved.totalDeposited, shifted.balance, onAccount_escrow distinct gaugeIn member]
  dsimp only
  split
  · next same =>
    cases same
    rw [onDenom_self] at paid ⊢
    omega
  · omega

theorem depositReward_safe {sender : Address} (baseIn : base ∈ pools) (inside : rewardDenom ∈ denoms)
    (payer : ∀ pool ∈ pools, sender ≠ pool.escrowPool moduleAddress) (safe : Safe moduleAddress pools denoms state)
    (ok : depositReward moduleAddress env base state sender rewardDenom amount = .ok next) :
    Safe moduleAddress pools denoms next := by
  have touches := touches_depositReward ok
  simp only [depositReward, ok_iffs] at ok
  obtain ⟨_, foreign, _, positive, store, _, coins, build, bank, send, _, _, _, _, rfl⟩ := ok
  refine ⟨safe.recorded.touches inside touches, fun gauge member => ?_, fun gauge member => ?_⟩
  · refine (safe.dry gauge member).touches distinct baseIn inside member ?_ touches
    rintro ⟨rfl, rfl⟩
    exact foreign rfl
  · obtain ⟨_, amounts, _⟩ := newCoins_ok build
    have total : Store.getTotalDepositedAmount _ ⟨gauge, true⟩ = state.store.getTotalDepositedAmount ⟨gauge, true⟩ :=
      congrFun touches.keeps.totalDeposited _
    have before := safe.covered gauge member
    have notPaying : Bank.onAccount sender (Base.escrowPool ⟨gauge, true⟩ moduleAddress) (amountOf coins gauge) = 0 :=
      if_neg (payer _ member).symm
    have received : 0 ≤ Bank.onAccount (base.escrowPool moduleAddress) (Base.escrowPool ⟨gauge, true⟩ moduleAddress)
        (amountOf coins gauge) := by
      rw [amounts, amountOf_cons, amountOf_nil, add_zero, onAccount_escrow distinct baseIn member]
      split
      · exact onDenom_nonneg rewardDenom positive.le gauge
      · exact le_rfl
    rw [total]
    unfold held at before ⊢
    rw [(Bank.sendCoins_ok send).1, notPaying]
    omega

theorem step_safe {event : Event} (admitted : Admitted moduleAddress pools denoms event)
    (safe : Safe moduleAddress pools denoms state) (ok : step moduleAddress state event = .ok next) :
    Safe moduleAddress pools denoms next := by
  obtain ⟨env, call⟩ := event
  obtain ⟨positive, admitted⟩ := admitted
  cases call with
  | createGauge denom =>
    obtain ⟨_, rfl⟩ := step_createGauge_iff.mp ok
    exact ⟨safe.recorded, fun gauge member => (safe.dry gauge member).same ⟨rfl, rfl, rfl⟩, safe.covered⟩
  | deposit denom veId amount =>
    have shifted := deposit_shifted rfl positive.1 (step_deposit_iff.mp ok).2
    exact shifted_safe distinct admitted.1 (fun _ => admitted.2) safe shifted
  | withdraw denom veId amount =>
    obtain ⟨fits, positive⟩ := positive
    obtain ⟨_, shifted⟩ := withdraw_shifted rfl fits (step_withdraw_iff.mp ok).2
    exact shifted_safe distinct admitted (fun drawn => absurd drawn (by omega)) safe shifted
  | bribeDeposit denom veId amount =>
    obtain ⟨_, rfl⟩ := step_bribeDeposit_iff.mp ok
    exact bribe_safe safe (bribeDeposit_moved _ _ positive.1 _) ⟨rfl, rfl, rfl⟩ rfl
  | bribeWithdraw denom veId amount =>
    obtain ⟨_, store, withdrawn, rfl⟩ := step_bribeWithdraw_iff.mp ok
    obtain ⟨_, rfl⟩ := bribeWithdraw_ok withdrawn
    exact bribe_safe safe (bribeDeposit_moved _ _ positive.1 _) ⟨rfl, rfl, rfl⟩ rfl
  | claimReward base veId =>
    exact claimReward_safe distinct admitted positive safe (step_claimReward_iff.mp ok).2
  | depositReward base sender rewardDenom amount =>
    exact depositReward_safe distinct admitted.1 admitted.2.1 admitted.2.2 safe (step_depositReward_iff.mp ok).2

end Bank

/-! ## Runs -/

theorem safe_genesis (moduleAddress : String → Address) (pools : Set Base) (denoms : Set Denom) (bank : Bank) :
    Safe moduleAddress pools denoms (genesis bank) :=
  ⟨nofun, fun _ _ => ⟨rfl, fun _ => rfl⟩, fun _ _ => Int.natCast_nonneg _⟩

/-- In every run totals are the sums over the ves, tickets lie within their bounds, and the accounts of the gauges hold
the deposits. -/
theorem gauges_accounted {moduleAddress : String → Address} {pools : Set Base} {denoms : Set Denom}
    (distinct : Distinct moduleAddress pools denoms) (bank : Bank) {events : List Event}
    (admitted : ∀ event ∈ events, Admitted moduleAddress pools denoms event) :
    Accounted (run moduleAddress bank events).store ∧ ∀ denom, (⟨denom, true⟩ : Base) ∈ pools →
      (run moduleAddress bank events).store.getTotalDepositedAmount ⟨denom, true⟩ ≤
        held moduleAddress (run moduleAddress bank events).bank denom := by
  have kept : Accounted (run moduleAddress bank events).store ∧
      Safe moduleAddress pools denoms (run moduleAddress bank events) :=
    Machine.replay_invariant (fun state => Accounted state.store ∧ Safe moduleAddress pools denoms state)
      (Admitted moduleAddress pools denoms)
      (fun _ _ _ held admitted success =>
        ⟨step_accounted admitted.1 held.1 success, step_safe distinct admitted held.2 success⟩)
      ⟨accounted_empty, safe_genesis moduleAddress pools denoms bank⟩ admitted
  exact ⟨kept.1, kept.2.covered⟩

/-- Two ves deposit, a reward is given, and a week later the first ve claims it and withdraws a part. -/
def rewardedVes : List Event :=
  let later : Env := ⟨⟨1000 + 604800, 2, "airon", none, by decide, by decide⟩, .empty, fun _ => 5⟩
  twoVes ++ [⟨sampleEnv, .depositReward ⟨"abc", true⟩ 5 "uusm" 604800⟩, ⟨later, .claimReward ⟨"abc", true⟩ 1⟩,
    ⟨later, .withdraw "abc" 1 30⟩]

/-- The claim pays half of the reward, and the gauge holds what is left of the deposits. -/
theorem gauges_accounted_sample :
    let state := run samplePools ⟨fun _ _ => 604800, fun _ => 604800⟩ rewardedVes
    state.bank.balance 5 "uusm" = 302400 ∧ state.store.getTotalDepositedAmount ⟨"abc", true⟩ = 170 ∧
      170 ≤ held samplePools state.bank "abc" := by
  intro state
  have distinct : Distinct samplePools {⟨"abc", true⟩} {"abc", "uusm"} := by
    refine ⟨by simp, ?_, ?_⟩
    · rintro left rfl right rfl leftDenom (rfl | rfl) rightDenom (rfl | rfl)
      all_goals decide +kernel
    · rintro left rfl right rfl _
      rfl
  have admitted : ∀ event ∈ rewardedVes, Admitted samplePools {⟨"abc", true⟩} {"abc", "uusm"} event := by
    simp [rewardedVes, twoVes, Admitted, PositiveCall, sampleEnv, samplePools, Base.escrowPool]
  have total : state.store.getTotalDepositedAmount ⟨"abc", true⟩ = 170 := by decide +kernel
  have covered := (gauges_accounted distinct ⟨fun _ _ => 604800, fun _ => 604800⟩ admitted).2 "abc" rfl
  exact ⟨by decide +kernel, total, total ▸ covered⟩

end Rotofury.Soundness.Gauge
