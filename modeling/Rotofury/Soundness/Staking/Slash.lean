import Rotofury.Soundness.Staking.Balance

/-! # The slash of a validator

`Slash` goes through the records that left a validator since the infraction, and settles and burns on the way. From a lock
it takes only what the ve has delegated.
-/

namespace Rotofury.Soundness.Staking

open Model.Sdk Model.App Model.Staking Except

variable {ctx : Ctx} {state next : State} {delAddr valAddr : Address} {infractionHeight amount : ℤ} {slashFactor : Dec}
  {veId : ℕ}

/-- What a lock has lost, its ve has less delegated. The lock has gained nothing and ends when it did. -/
def Absorbed (veId : ℕ) (before after : State) : Prop :=
  let old := before.ve.store.lockedAmountByUser veId
  let new := after.ve.store.lockedAmountByUser veId
  new.endTime = old.endTime ∧ new.amount ≤ old.amount ∧
    old.amount - new.amount = before.holdings.veDelegatedAmount veId - after.holdings.veDelegatedAmount veId

theorem Absorbed.refl : Absorbed veId state state := ⟨rfl, le_rfl, by simp⟩

theorem Absorbed.trans {middle : State} (first : Absorbed veId state middle) (second : Absorbed veId middle next) :
    Absorbed veId state next := by
  obtain ⟨sameEnd, less, delegated⟩ := first
  obtain ⟨sameEnd', less', delegated'⟩ := second
  exact ⟨sameEnd'.trans sameEnd, less'.trans less, by omega⟩

theorem Burned.absorbed {burned : ℕ → ℤ} (effect : Burned state next burned) : Absorbed veId state next := by
  have nonneg := effect.nonneg veId
  have locked := effect.locked veId
  have amount := effect.amount veId
  exact ⟨effect.endTime veId, by omega, by omega⟩

/-- Losses are burned when the record is settled; the shares that are then drawn are left to the caller. -/
theorem Unbonded.absorbed {shares : Dec} {veTokens : List VeTokens}
    (unbonded : Unbonded ctx state delAddr valAddr shares false next veTokens) : Absorbed veId state next := by
  cases unbonded with
  | coins _ holdings reached _ ves =>
    refine reached ▸ ⟨rfl, le_rfl, ?_⟩
    simp [State.setHoldings, ves.veDelegatedAmount]
  | ves _ delegation validator settled burnt settledAt drawnAt holdings left _ _ _ settling reached drawing =>
    refine settling.burned.absorbed.trans (reached ▸ settling.written ▸ ⟨rfl, le_rfl, ?_⟩)
    have amounts := drawing.amounts veId
    simp only [settling.written, State.setHoldings] at amounts ⊢
    simp [amounts]

theorem slashUnbondingDelegation_absorbed {unbondingDelegation : List UnbondingDelegationEntry}
    (ok : slashUnbondingDelegation ctx state delAddr valAddr unbondingDelegation infractionHeight slashFactor =
      .ok (next, amount)) : Absorbed veId state next := by
  simp only [slashUnbondingDelegation, slashUnbondingDelegationIn, ok_iffs, Prod.mk.injEq] at ok
  obtain ⟨_, _, ⟨tally, slashed⟩, _, bank, _, _, burning, rfl, _⟩ := ok
  exact (burnFromVes_burned burning).absorbed

theorem slashRedelegation_absorbed {valSrcAddr valDstAddr : Address} {redelegation : List RedelegationEntry}
    (ok : slashRedelegation ctx state delAddr valSrcAddr valDstAddr redelegation infractionHeight slashFactor =
      .ok (next, amount)) : Absorbed veId state next := by
  simp only [slashRedelegation, slashRedelegationIn, ok_iffs, Prod.mk.injEq] at ok
  obtain ⟨_, _, tally, loop, _, _, bank, _, _, burning, rfl, _⟩ := ok
  have reached : Absorbed veId state tally.state := by
    refine foldlM_invariant (fun tally => Absorbed veId state tally.state) .refl
      (fun before entry after _ absorbed turn => ?_) loop
    cases slashRedelegationEntry_ok turn with
    | spared _ same _ => exact same ▸ absorbed
    | unbonded _ _ _ _ unbonded _ => exact absorbed.trans (unbond_unbonded unbonded).absorbed
  exact reached.trans (burnFromVes_burned burning).absorbed

/-- Both loops over records. -/
theorem slashLoop_absorbed (veId : ℕ) {α : Type} {body : State × ℤ → α → Except Fault (State × ℤ)} {records : List α}
    {start last : State × ℤ}
    (ok : records.foldlM (fun reached record => do
      let slashed ← body reached record
      pure (slashed.1, reached.2 - slashed.2)) start = .ok last)
    (turn : ∀ {before record after amount}, body before record = .ok (after, amount) → Absorbed veId before.1 after) :
    Absorbed veId start.1 last.1 := by
  refine foldlM_invariant (fun reached => Absorbed veId start.1 reached.1) .refl
    (fun before record after _ absorbed slashed => ?_) ok
  simp only [ok_iffs] at slashed
  obtain ⟨⟨_, amount⟩, slashed, rfl⟩ := slashed
  exact absorbed.trans (turn slashed)

/-- No slash reaches what is locked and not delegated. -/
theorem slash_absorbed {power : ℤ} (ok : slash ctx state valAddr infractionHeight power slashFactor = .ok next)
    (veId : ℕ) : Absorbed veId state next := by
  simp only [slash, ok_iffs] at ok
  obtain ⟨_, _, ok⟩ := ok
  split at ok
  · exact Except.ok.inj ok ▸ .refl
  · simp only [bind_ok_iff] at ok
    obtain ⟨_, _, _, _, ok⟩ := ok
    -- an infraction in this block leaves no records to slash
    split at ok
    · simp only [ok_iffs] at ok
      obtain ⟨_, rfl, _, _, _, _, _, _, _, _, rfl⟩ := ok
      exact .refl
    · simp only [slashRecords, ok_iffs] at ok
      obtain ⟨last, ⟨middle, unbondings, redelegations⟩, _, _, _, _, _, _, _, _, rfl⟩ := ok
      have unbonded := slashLoop_absorbed veId unbondings slashUnbondingDelegation_absorbed
      have redelegated := slashLoop_absorbed veId redelegations slashRedelegation_absorbed
      exact unbonded.trans redelegated

/-- The validator that the coins of a ve are leaving. -/
def sampleLeft : State :=
  (sampleSlash 4).setHoldings ((sampleSlash 4).holdings.setValidator
    ⟨9, .bonded, false, 10, ⟨10 ^ 19⟩, 0, 0, 0, .inr (by decide)⟩)

theorem slash_absorbed_sample :
    ∃ next, slash sampleCtx sampleLeft 9 4 10 ⟨5 * 10 ^ 17⟩ = .ok next ∧ Absorbed 1 sampleLeft next := by
  have run : (·.holdings.veDelegatedAmount 1) <$> slash sampleCtx sampleLeft 9 4 10 ⟨5 * 10 ^ 17⟩ = .ok 2 := by
    decide +kernel
  obtain ⟨next, success, _⟩ := map_ok_iff.mp run
  exact ⟨next, success, slash_absorbed success 1⟩

end Rotofury.Soundness.Staking
