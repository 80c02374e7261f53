import Rotofury.Soundness.Staking.Completion
import Rotofury.Soundness.Staking.Drawing
import Rotofury.Soundness.Ve.Commuting

/-! # Slashing does not depend on the order of the ves

The map of burned amounts has one amount for each ve, and slashes of different ves commute. So the slashing of unbondings and
of redelegations reaches the same state in every order, or fails in every order.
-/

namespace Rotofury.Soundness.Staking

open Model.Sdk Model.App Model.Staking Except
open Rotofury.Soundness.Ve (EndsSoon)

variable {state next : State} {amount : ℤ} {delAddr : Address}

section Burning

variable {ctx : Ctx}

/-- All locks of the state are timely. -/
def TimelyLocks (ctx : Ctx) (state : State) : Prop := EndsSoon ctx.ve.blockTime state.ve.store.lockedAmountByUser

theorem Burned.timely {burned : ℕ → ℤ} (effect : Burned state next burned) (timely : TimelyLocks ctx state) :
    TimelyLocks ctx next := by
  intro veId
  rw [effect.endTime veId]
  exact timely veId

theorem burnEntry_burned {entry : Sigma fun _ : ℕ => ℤ} (ok : burnEntry ctx state entry = .ok next) :
    ∃ burned, Burned state next burned := by
  unfold burnEntry at ok
  split at ok
  · exact ⟨_, slashVeDelegatedAmount_burned ok⟩
  · cases ok
    exact ⟨_, Burned.refl state⟩

theorem slashVeDelegatedAmount_ok_iff {veId : ℕ} (positive : 0 < amount) :
    slashVeDelegatedAmount ctx state veId amount = .ok next ↔
      ∃ ve, Model.Ve.slashLockedAmountByUser ctx.ve state.ve veId amount = .ok ve ∧
        next = { state with holdings := state.holdings.subVeDelegatedAmount veId amount, ve := ve } := by
  simp only [slashVeDelegatedAmount, if_pos positive, ok_iffs, eq_comm (b := next)]

/-- Slashes of different ves can be swapped. -/
theorem burnEntry_swaps {first second : Sigma fun _ : ℕ => ℤ} (different : first.1 ≠ second.1) :
    Except.Swaps (TimelyLocks ctx) (burnEntry ctx) first second := by
  intro before middle after timely one two
  by_cases positive : 0 < first.2
  · by_cases morePositive : 0 < second.2
    · simp only [burnEntry, if_pos positive, if_pos morePositive] at one two ⊢
      obtain ⟨ve, slashedFirst, rfl⟩ := (slashVeDelegatedAmount_ok_iff positive).mp one
      obtain ⟨final, slashedSecond, rfl⟩ := (slashVeDelegatedAmount_ok_iff morePositive).mp two
      obtain ⟨other, swappedFirst, swappedSecond⟩ :=
        Ve.slash_swap different positive morePositive timely slashedFirst slashedSecond
      refine ⟨_, (slashVeDelegatedAmount_ok_iff morePositive).mpr ⟨other, swappedFirst, rfl⟩,
        (slashVeDelegatedAmount_ok_iff positive).mpr ⟨final, swappedSecond, ?_⟩⟩
      simp only [Holdings.subVeDelegatedAmount, Holdings.setVeDelegatedAmount, Function.update_of_ne different,
        Function.update_of_ne different.symm, Function.update_comm different]
    · simp only [burnEntry, if_neg morePositive] at two ⊢
      cases two
      exact ⟨before, rfl, one⟩
  · simp only [burnEntry, if_neg positive] at one ⊢
    cases one
    exact ⟨after, two, rfl⟩

theorem burnFromVesIn_congr (first second : BurnOrder) (timely : TimelyLocks ctx state) (burned : BurnedAmounts) :
    burnFromVesIn first ctx state burned = .ok next ↔ burnFromVesIn second ctx state burned = .ok next := by
  have distinct : burned.entries.Pairwise fun one two => one.1 ≠ two.1 := List.pairwise_map.mp burned.nodupKeys
  have commutes : (first.visit burned).Pairwise (Except.Commutes (TimelyLocks ctx) (burnEntry ctx)) := by
    refine ((first.perm burned).pairwise_iff Except.Commutes.symm).mpr (distinct.imp fun different => ?_)
    exact ⟨burnEntry_swaps different, burnEntry_swaps different.symm⟩
  refine foldlM_perm (fun before entry after held turn => ?_) ((first.perm burned).trans (second.perm burned).symm)
    commutes timely
  obtain ⟨_, effect⟩ := burnEntry_burned turn
  exact effect.timely held

end Burning

/-! ## The two calls -/

section Calls

variable {ctx : Ctx}

theorem unbond_timely {valAddr : Address} {shares : Dec} {updateVeAmt : Bool} {veTokens : List VeTokens}
    (timely : TimelyLocks ctx state)
    (ok : unbond ctx state delAddr valAddr shares updateVeAmt = .ok (next, amount, veTokens)) :
    TimelyLocks ctx next := by
  cases unbond_unbonded ok with
  | coins _ holdings reached _ _ =>
    rw [reached]
    exact timely
  | ves _ delegation validator settled burnt settledAt drawnAt holdings left _ _ _ settling reached _ =>
    rw [reached, settling.written]
    exact settling.burned.timely timely

theorem slashRedelegationEntry_timely {valDstAddr : Address} {infractionHeight : ℤ} {slashFactor : Dec}
    {tally next : RedelegationTally} {entry : RedelegationEntry} (timely : TimelyLocks ctx tally.state)
    (ok : slashRedelegationEntry ctx delAddr valDstAddr infractionHeight slashFactor tally entry = .ok next) :
    TimelyLocks ctx next.state := by
  unfold slashRedelegationEntry at ok
  split at ok
  · dsimp only at ok
    split at ok
    · cases ok
      exact timely
    · simp only [bind_ok_iff, mustSucceed_ok_iff] at ok
      obtain ⟨⟨state, amount, veTokens⟩, unbonded, dstValidator, _, burned⟩ := ok
      have kept : next.state = state := by
        unfold RedelegationTally.burn at burned
        split at burned <;> cases burned <;> rfl
      rw [kept]
      exact unbond_timely timely unbonded
  · cases ok
    exact timely

theorem slashUnbondingDelegationIn_congr (first second : BurnOrder) (timely : TimelyLocks ctx state)
    (infractionHeight : ℤ) (slashFactor : Dec) (delAddr valAddr : Address)
    (unbondingDelegation : List UnbondingDelegationEntry) (result : State × ℤ) :
    slashUnbondingDelegationIn first ctx state delAddr valAddr unbondingDelegation infractionHeight slashFactor = .ok result ↔
      slashUnbondingDelegationIn second ctx state delAddr valAddr unbondingDelegation infractionHeight slashFactor =
        .ok result := by
  simp only [slashUnbondingDelegationIn, ok_iffs]
  refine exists_congr fun veUbd => and_congr_right fun _ => exists_congr fun tally => and_congr_right fun _ => ?_
  refine exists_congr fun bank => and_congr_right fun _ => exists_congr fun next => and_congr_left fun _ => ?_
  apply burnFromVesIn_congr first second
  exact timely

theorem slashRedelegationIn_congr (first second : BurnOrder) (timely : TimelyLocks ctx state) (infractionHeight : ℤ)
    (slashFactor : Dec) (delAddr valSrcAddr valDstAddr : Address) (redelegation : List RedelegationEntry)
    (result : State × ℤ) :
    slashRedelegationIn first ctx state delAddr valSrcAddr valDstAddr redelegation infractionHeight slashFactor = .ok result ↔
      slashRedelegationIn second ctx state delAddr valSrcAddr valDstAddr redelegation infractionHeight slashFactor =
        .ok result := by
  simp only [slashRedelegationIn, ok_iffs]
  refine exists_congr fun _ => and_congr_right fun _ => exists_congr fun tally => and_congr_right fun loop => ?_
  -- the shares that were unbonded on the way have left the ends of the locks as they were
  have reached : TimelyLocks ctx tally.state :=
    foldlM_invariant (fun tally => TimelyLocks ctx tally.state) timely
      (fun _ _ _ _ held turn => slashRedelegationEntry_timely held turn) loop
  refine exists_congr fun _ => and_congr_right fun _ => exists_congr fun bank => and_congr_right fun _ => ?_
  refine exists_congr fun next => and_congr_left fun _ => ?_
  apply burnFromVesIn_congr first second
  exact reached

end Calls

/-- The state after a slash of an unbonding or of a redelegation is the same in every order in which the burned amounts
are visited, and a slash that fails in one order fails in all. The locks are timely in every state of the ve module. -/
theorem slashing_deterministic :
    (∀ (first second : BurnOrder) (ctx : Ctx) (state : State), TimelyLocks ctx state →
      ∀ (infractionHeight : ℤ) (slashFactor : Dec),
        (∀ delAddr valAddr unbondingDelegation result,
          slashUnbondingDelegationIn first ctx state delAddr valAddr unbondingDelegation infractionHeight slashFactor =
              .ok result ↔
            slashUnbondingDelegationIn second ctx state delAddr valAddr unbondingDelegation infractionHeight slashFactor =
              .ok result) ∧
        ∀ delAddr valSrcAddr valDstAddr redelegation result,
          slashRedelegationIn first ctx state delAddr valSrcAddr valDstAddr redelegation infractionHeight slashFactor =
              .ok result ↔
            slashRedelegationIn second ctx state delAddr valSrcAddr valDstAddr redelegation infractionHeight slashFactor =
              .ok result) ∧
      ∀ (bank : Bank) (events : List Model.Ve.Event) (ctx : Ctx) (state : State),
        Machine.Chronological Model.Ve.Event.time events → (∀ event ∈ events, event.time ≤ ctx.ve.blockTime) →
        state.ve.store = (Model.Ve.run bank events).store → TimelyLocks ctx state := by
  constructor
  · intro first second ctx state timely infractionHeight slashFactor
    exact ⟨slashUnbondingDelegationIn_congr first second timely infractionHeight slashFactor,
      slashRedelegationIn_congr first second timely infractionHeight slashFactor⟩
  · intro bank events ctx state chronological elapsed reached
    rw [TimelyLocks, reached]
    exact (Ve.run_sound bank chronological elapsed).endsSoon

/-! ## A sample -/

/-- An entry of ten units of which two ves have four each; their locks end at the same time. -/
def sampleShared : State where
  holdings := delegatedBy fun veId => if veId = 1 ∨ veId = 2 then 4 * Model.Ve.maxLockTime else 0
  entries := { Entries.empty with
    unbondingDelegations := AList.singleton (1, 9)
      [⟨5, 150 * 10 ^ 9, 10 * Model.Ve.maxLockTime, 10 * Model.Ve.maxLockTime⟩]
    veUnbondingDelegations := AList.singleton (1, 9) [⟨[⟨1, 4 * Model.Ve.maxLockTime, 4 * Model.Ve.maxLockTime⟩,
      ⟨2, 4 * Model.Ve.maxLockTime, 4 * Model.Ve.maxLockTime⟩]⟩] }
  ve := ⟨{ Model.Ve.Store.genesis with
      lockedAmountByUser := fun veId =>
        if veId = 1 ∨ veId = 2 then ⟨4 * Model.Ve.maxLockTime, Model.Ve.regulatedPeriod⟩ else .empty
      totalLockedAmount := 8 * Model.Ve.maxLockTime },
    ⟨fun _ _ => 10 * Model.Ve.maxLockTime, fun _ => 100 * Model.Ve.maxLockTime⟩⟩

def sampleReversed : BurnOrder := ⟨fun burned => burned.entries.reverse, fun burned => burned.entries.reverse_perm⟩

theorem sampleShared_timely : TimelyLocks sampleCtx sampleShared := by
  intro veId
  simp only [sampleShared]
  split <;> decide

/-- Visited the other way round, both ves lose the same, and one epoch follows for each. -/
theorem slashing_deterministic_sample :
    TimelyLocks sampleCtx sampleShared ∧ ∃ next,
      slashUnbondingDelegation sampleCtx sampleShared 1 9
        [⟨5, 150 * 10 ^ 9, 10 * Model.Ve.maxLockTime, 10 * Model.Ve.maxLockTime⟩] 5 ⟨5 * 10 ^ 17⟩ = .ok next ∧
      slashUnbondingDelegationIn sampleReversed sampleCtx sampleShared 1 9
        [⟨5, 150 * 10 ^ 9, 10 * Model.Ve.maxLockTime, 10 * Model.Ve.maxLockTime⟩] 5 ⟨5 * 10 ^ 17⟩ = .ok next ∧
      next.1.ve.store.history.epoch = 2 ∧ next.1.ve.store.history.slopeChange Model.Ve.regulatedPeriod = 4 := by
  have run : (fun next : State × ℤ => (next.1.ve.store.history.epoch,
      next.1.ve.store.history.slopeChange Model.Ve.regulatedPeriod)) <$>
        slashUnbondingDelegation sampleCtx sampleShared 1 9
          [⟨5, 150 * 10 ^ 9, 10 * Model.Ve.maxLockTime, 10 * Model.Ve.maxLockTime⟩] 5 ⟨5 * 10 ^ 17⟩ = .ok (2, 4) := by
    decide +kernel
  obtain ⟨next, success, shown⟩ := map_ok_iff.mp run
  have deterministic := slashing_deterministic.1 .listed sampleReversed sampleCtx sampleShared sampleShared_timely 5
    ⟨5 * 10 ^ 17⟩
  exact ⟨sampleShared_timely, next, success, (deterministic.1 1 9 _ next).mp success, congrArg Prod.fst shown,
    congrArg Prod.snd shown⟩

end Rotofury.Soundness.Staking
