import Rotofury.Soundness.Gauge.Attachment

/-! # Totals of deposits and tickets

The totals are the sums over the ves, and the tickets of a ve lie between two fifths of its deposit and all of it. Both
hold whatever the voting powers are when a ve's tickets are derived; those of the other ves are as old as their last call.
-/

namespace Rotofury.Soundness.Gauge

open Model.Sdk Model.App Model.Gauge Except

/-- All ids of ves. -/
def veIds : Finset ℕ := Finset.range (2 ^ 64)

theorem mem_veIds {ve : ℕ} : ve ∈ veIds ↔ ve < 2 ^ 64 := Finset.mem_range

section Sums

variable {base pool : Base} {veId : ℕ} {amount : ℤ} {before after : Store}

theorem sum_single {here : Prop} [Decidable here] (fits : veId < 2 ^ 64) (amount : ℤ) :
    ∑ ve ∈ veIds, (if here ∧ ve = veId then amount else 0) = if here then amount else 0 := by
  split
  · next holds =>
    simp only [holds, true_and]
    rw [Finset.sum_ite_eq' veIds veId, if_pos (mem_veIds.mpr fits)]
  · next fails => simp [fails]

theorem sum_deposited (moved : Moved base veId amount before after) (fits : veId < 2 ^ 64) (pool : Base) :
    ∑ ve ∈ veIds, after.getDepositedAmountByUser pool ve =
      ∑ ve ∈ veIds, before.getDepositedAmountByUser pool ve + if pool = base then amount else 0 := by
  rw [← sum_single fits, ← Finset.sum_add_distrib]
  exact Finset.sum_congr rfl fun ve inside => moved.deposited pool ve (mem_veIds.mp inside)

theorem sum_derived (derives : Derives base veId amount before after) (fits : veId < 2 ^ 64) (pool : Base) :
    ∑ ve ∈ veIds, after.getDerivedAmountByUser pool ve = ∑ ve ∈ veIds, before.getDerivedAmountByUser pool ve +
      if pool = base then amount - before.getDerivedAmountByUser base veId else 0 := by
  rw [← sum_single fits, ← Finset.sum_add_distrib]
  refine Finset.sum_congr rfl fun ve inside => ?_
  rw [derives.derived pool ve (mem_veIds.mp inside)]
  split
  · next here =>
    rw [here.1, here.2]
    ring
  · exact (add_zero _).symm

end Sums

/-! ## Tickets -/

theorem getVotingPower_nonneg {ctx : Model.Ve.Ctx} {history : Model.Ve.History} {veId atTime : ℕ} {atBlock power : ℤ}
    (ok : Model.Ve.getVotingPower ctx history veId atTime atBlock = .ok power) : 0 ≤ power := by
  have reported {value : Option ℤ} (report : Model.Ve.reportPower value = .ok power) : 0 ≤ power := by
    simp only [Model.Ve.reportPower, ok_iffs] at report
    obtain ⟨_, _, rfl⟩ := report
    exact le_max_left _ _
  unfold Model.Ve.getVotingPower at ok
  split_ifs at ok <;> exact reported ok

theorem adjustedTickets_nonneg {env : Env} {totalDeposited totalPower adjusted : ℤ} {veId : ℕ}
    (nonneg : 0 ≤ totalDeposited) (ok : adjustedTickets env totalDeposited veId totalPower = .ok adjusted) :
    0 ≤ adjusted := by
  unfold adjustedTickets at ok
  split at ok
  · next positive =>
    simp only [ok_iffs] at ok
    obtain ⟨power, powered, portion, divided, rfl⟩ := ok
    rw [Model.Ve.quo, if_neg positive.ne'] at divided
    cases divided
    have share : 0 ≤ (totalDeposited * power).tdiv totalPower :=
      Int.tdiv_nonneg (mul_nonneg nonneg (getVotingPower_nonneg powered)) positive.le
    exact Int.tdiv_nonneg (by omega) (by decide)
  · cases ok
    exact le_rfl

/-- A ve has tickets for two fifths of its deposit at least, and for all of it at most. -/
theorem derivedTickets_bounds {env : Env} {store : Store} {denom : Denom} {veId : ℕ} {derived : ℤ}
    (totalNonneg : 0 ≤ store.getTotalDepositedAmount ⟨denom, true⟩)
    (nonneg : 0 ≤ store.getDepositedAmountByUser ⟨denom, true⟩ veId)
    (ok : derivedTickets env store ⟨denom, true⟩ veId = .ok derived) :
    40 * store.getDepositedAmountByUser ⟨denom, true⟩ veId / 100 ≤ derived ∧
      derived ≤ store.getDepositedAmountByUser ⟨denom, true⟩ veId := by
  rw [derivedTickets, if_neg Bool.noConfusion] at ok
  simp only [ok_iffs] at ok
  obtain ⟨totalPower, _, adjusted, adjust, rfl⟩ := ok
  have some := adjustedTickets_nonneg totalNonneg adjust
  rw [Int.tdiv_eq_ediv_of_nonneg (by omega)]
  omega

/-! ## Accounts of all pools -/

/-- Totals are sums, and tickets lie within their bounds. -/
structure Accounted (store : Store) : Prop where
  nonneg : ∀ pool, ∀ ve < 2 ^ 64, 0 ≤ store.getDepositedAmountByUser pool ve
  totalDeposited : ∀ pool, store.getTotalDepositedAmount pool = ∑ ve ∈ veIds, store.getDepositedAmountByUser pool ve
  totalDerived : ∀ denom, store.getTotalDerivedAmount ⟨denom, true⟩ =
    ∑ ve ∈ veIds, store.getDerivedAmountByUser ⟨denom, true⟩ ve
  bounds : ∀ denom, ∀ ve < 2 ^ 64, 40 * store.getDepositedAmountByUser ⟨denom, true⟩ ve / 100 ≤
    store.getDerivedAmountByUser ⟨denom, true⟩ ve ∧
      store.getDerivedAmountByUser ⟨denom, true⟩ ve ≤ store.getDepositedAmountByUser ⟨denom, true⟩ ve

section Accounted

variable {base : Base} {denom : Denom} {veId : ℕ} {amount : ℤ} {before after : Store}

theorem accounted_empty : Accounted .empty :=
  ⟨fun _ _ _ => le_rfl, fun _ => Finset.sum_const_zero.symm, fun _ => Finset.sum_const_zero.symm,
    fun _ _ _ => ⟨le_rfl, le_rfl⟩⟩

section

variable (accounted : Accounted before)
include accounted

theorem Accounted.keeps (kept : Keeps before after) : Accounted after := by
  have deposited (pool : Base) (ve : ℕ) : after.getDepositedAmountByUser pool ve =
      before.getDepositedAmountByUser pool ve := congrFun kept.deposited _
  have derived (pool : Base) (ve : ℕ) : after.getDerivedAmountByUser pool ve =
      before.getDerivedAmountByUser pool ve := congrFun kept.derived _
  refine ⟨?_, ?_, ?_, ?_⟩
  · simpa only [deposited] using accounted.nonneg
  · intro pool
    simp only [deposited]
    exact (congrFun kept.totalDeposited _).trans (accounted.totalDeposited pool)
  · intro denom
    simp only [derived]
    exact (congrFun kept.totalDerived _).trans (accounted.totalDerived denom)
  · simpa only [deposited, derived] using accounted.bounds

theorem moved_nonneg (moved : Moved base veId amount before after)
    (covered : 0 ≤ before.getDepositedAmountByUser base veId + amount) (pool : Base) (ve : ℕ) (fits : ve < 2 ^ 64) :
    0 ≤ after.getDepositedAmountByUser pool ve := by
  rw [moved.deposited pool ve fits]
  split
  · next here =>
    rw [here.1, here.2]
    exact covered
  · rw [add_zero]
    exact accounted.nonneg pool ve fits

theorem moved_totalDeposited (moved : Moved base veId amount before after) (fits : veId < 2 ^ 64) (pool : Base) :
    after.getTotalDepositedAmount pool = ∑ ve ∈ veIds, after.getDepositedAmountByUser pool ve := by
  rw [moved.totalDeposited, accounted.totalDeposited, sum_deposited moved fits]

/-- Tickets that are derived for one ve keep the accounts. -/
theorem accounted_derives {env : Env} {derived : ℤ} (fits : veId < 2 ^ 64)
    (moved : Moved ⟨denom, true⟩ veId amount before after)
    (covered : 0 ≤ before.getDepositedAmountByUser ⟨denom, true⟩ veId + amount)
    (tickets : derivedTickets env after ⟨denom, true⟩ veId = .ok derived)
    (derives : Derives ⟨denom, true⟩ veId derived before after) : Accounted after := by
  have nonneg := moved_nonneg accounted moved covered
  have total := moved_totalDeposited accounted moved fits
  refine ⟨nonneg, total, fun gauge => ?_, fun gauge ve veFits => ?_⟩
  · rw [derives.totalDerived, accounted.totalDerived, sum_derived derives fits]
  · rw [derives.derived _ ve veFits]
    split
    · next here =>
      obtain ⟨same, rfl⟩ := here
      cases same
      refine derivedTickets_bounds ?_ (nonneg _ ve veFits) tickets
      rw [total]
      exact Finset.sum_nonneg fun other inside => nonneg _ other (mem_veIds.mp inside)
    · next other =>
      rw [moved.deposited _ ve veFits, if_neg other, add_zero]
      exact accounted.bounds gauge ve veFits

/-- Votes that are counted in a bribe do not concern tickets. -/
theorem accounted_bribe (fits : veId < 2 ^ 64) (moved : Moved ⟨denom, false⟩ veId amount before after)
    (covered : 0 ≤ before.getDepositedAmountByUser ⟨denom, false⟩ veId + amount)
    (totalDerived : after.totalDerivedAmount = before.totalDerivedAmount)
    (derived : after.derivedAmountByUser = before.derivedAmountByUser) : Accounted after := by
  have same (pool : Base) (ve : ℕ) : after.getDerivedAmountByUser pool ve = before.getDerivedAmountByUser pool ve :=
    congrFun derived _
  refine ⟨moved_nonneg accounted moved covered, moved_totalDeposited accounted moved fits, fun gauge => ?_,
    fun gauge ve veFits => ?_⟩
  · simp only [same]
    exact (congrFun totalDerived _).trans (accounted.totalDerived gauge)
  · have other : ¬ ((⟨gauge, true⟩ : Base) = ⟨denom, false⟩ ∧ ve = veId) := by simp
    rw [same, moved.deposited _ ve veFits, if_neg other, add_zero]
    exact accounted.bounds gauge ve veFits

end

theorem SameDeposits.moved (same : SameDeposits before after) (base : Base) (veId : ℕ) : Moved base veId 0 before after where
  gauges := same.gauges
  totalDeposited pool := by
    rw [ite_self, add_zero, Store.getTotalDepositedAmount, same.totalDeposited]
    rfl
  deposited pool ve _ := by
    rw [ite_self, add_zero, Store.getDepositedAmountByUser, same.deposited]
    rfl

/-- Amounts are positive and ids are 64-bit numbers. -/
def PositiveCall : Call → Prop
  | .deposit _ veId amount | .withdraw _ veId amount | .bribeDeposit _ veId amount | .bribeWithdraw _ veId amount =>
    veId < 2 ^ 64 ∧ 0 < amount
  | .claimReward _ veId => veId < 2 ^ 64
  | .createGauge _ | .depositReward .. => True

theorem step_accounted {moduleAddress : String → Address} {state next : State} {event : Event}
    (positive : PositiveCall event.call) (accounted : Accounted state.store)
    (ok : step moduleAddress state event = .ok next) : Accounted next.store := by
  obtain ⟨env, call⟩ := event
  cases call with
  | createGauge denom =>
    obtain ⟨_, rfl⟩ := step_createGauge_iff.mp ok
    exact ⟨accounted.nonneg, accounted.totalDeposited, accounted.totalDerived, accounted.bounds⟩
  | deposit denom veId amount =>
    obtain ⟨fits, positive⟩ := positive
    have shifted := deposit_shifted rfl fits (step_deposit_iff.mp ok).2
    obtain ⟨derived, tickets, derives⟩ := shifted.tickets
    have nonneg := accounted.nonneg ⟨denom, true⟩ veId fits
    exact accounted_derives accounted fits shifted.moved (by omega) tickets derives
  | withdraw denom veId amount =>
    obtain ⟨fits, positive⟩ := positive
    obtain ⟨enough, shifted⟩ := withdraw_shifted rfl fits (step_withdraw_iff.mp ok).2
    obtain ⟨derived, tickets, derives⟩ := shifted.tickets
    exact accounted_derives accounted fits shifted.moved (by omega) tickets derives
  | bribeDeposit denom veId amount =>
    obtain ⟨fits, positive⟩ := positive
    obtain ⟨_, rfl⟩ := step_bribeDeposit_iff.mp ok
    have nonneg := accounted.nonneg ⟨denom, false⟩ veId fits
    exact accounted_bribe accounted fits (bribeDeposit_moved _ _ fits _) (by omega) rfl rfl
  | bribeWithdraw denom veId amount =>
    obtain ⟨fits, positive⟩ := positive
    obtain ⟨_, store, withdrawn, rfl⟩ := step_bribeWithdraw_iff.mp ok
    obtain ⟨enough, rfl⟩ := bribeWithdraw_ok withdrawn
    exact accounted_bribe accounted fits (bribeDeposit_moved _ _ fits _) (by omega) rfl rfl
  | claimReward base veId =>
    obtain ⟨claimed, kept, _, derive⟩ := claimReward_parts (step_claimReward_iff.mp ok).2
    have claimedAccounts := accounted.keeps kept
    obtain ⟨denom, isGauge⟩ := base
    cases isGauge with
    | true =>
      obtain ⟨same, derived, tickets, derives⟩ := deriveAmountForUser_ok rfl positive derive
      have nonneg := claimedAccounts.nonneg ⟨denom, true⟩ veId positive
      exact accounted_derives claimedAccounts positive (same.moved _ veId) (by omega) tickets derives
    | false =>
      rw [deriveAmountForUser_bribe rfl derive]
      exact claimedAccounts
  | depositReward base sender rewardDenom amount =>
    exact accounted.keeps (touches_depositReward (step_depositReward_iff.mp ok).2).keeps

end Accounted

end Rotofury.Soundness.Gauge
