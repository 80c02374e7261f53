import Rotofury.Soundness.Maker.Payouts

/-! # Iron, and the stablecoin passing through

The module mints and burns iron only against its record of burned iron, so the two add up to a constant. It never
keeps any of the stablecoin: whatever a message mints or takes in leaves the module account in the same message.
Both are read off the effects, as long as the stablecoin itself is not registered as backing or collateral.
-/

namespace Rotofury.Soundness.Maker

open Model.Sdk Model.App Model.Maker Except

variable {state next : State} {event : Event}

/-- The supply of iron together with what the module has recorded as burned. -/
def ironMirror (state : State) : ℤ :=
  state.bank.supply attoIronDenom + recorded state.store.totalBacking (·.ironBurned.amount)

/-- The event registers the denomination. -/
def Registers (event : Event) (denom : Denom) : Prop :=
  (∃ params, event.action = .registerBacking params ∧ params.backingDenom = denom) ∨
    ∃ params, event.action = .registerCollateral params ∧ params.collateralDenom = denom

/-- The denomination is neither backing nor collateral. -/
structure Unregistered (store : Store) (denom : Denom) : Prop where
  backing : store.backingParams.lookup denom = none
  collateral : store.collateralParams.lookup denom = none

/-- Only a registration of the denomination registers it. -/
theorem unregistered_step {denom : Denom} (free : Unregistered state.store denom) (spared : ¬ Registers event denom)
    (ok : step state event = .ok next) : Unregistered next.store denom := by
  unfold step at ok
  split at ok
  · next msg action =>
    obtain ⟨valid, ops, planned, executed⟩ := Msg.deliver_ok ok
    rcases planned_effect planned valid (accepted_of_execOps executed) with
      ⟨_, _, effect, _⟩ | ⟨_, _, _, _, effect, _⟩
    · obtain ⟨_, _, _, stored, _⟩ := effect.records
      rw [stored]
      exact ⟨free.backing, free.collateral⟩
    · obtain ⟨_, _, _, _, stored, _⟩ := effect.records
      rw [stored]
      exact ⟨free.backing, free.collateral⟩
  · next params action =>
    have other : denom ≠ params.backingDenom := fun same => spared (.inl ⟨params, action, same.symm⟩)
    simp only [handleRegisterBackingProposal, ok_iffs] at ok
    obtain ⟨_, _, _, _, _, _, _, _, rfl⟩ := ok
    exact ⟨(AList.lookup_insert_ne other).trans free.backing, free.collateral⟩
  · next params action =>
    have other : denom ≠ params.collateralDenom := fun same => spared (.inr ⟨params, action, same.symm⟩)
    simp only [handleRegisterCollateralProposal, ok_iffs] at ok
    obtain ⟨_, _, _, _, _, _, _, _, rfl⟩ := ok
    exact ⟨free.backing, (AList.lookup_insert_ne other).trans free.collateral⟩
  · cases ok
    exact ⟨free.backing, free.collateral⟩
  · next params action =>
    simp only [ok_iffs] at ok
    obtain ⟨_, present, rfl⟩ := ok
    have other : denom ≠ params.backingDenom := by
      rintro rfl
      simp [free.backing] at present
    exact ⟨(AList.lookup_insert_ne other).trans free.backing, free.collateral⟩
  · next params action =>
    simp only [ok_iffs] at ok
    obtain ⟨_, present, rfl⟩ := ok
    have other : denom ≠ params.collateralDenom := by
      rintro rfl
      simp [free.collateral] at present
    exact ⟨free.backing, (AList.lookup_insert_ne other).trans free.collateral⟩

/-- Iron is minted or burned only together with its record. -/
theorem ironMirror_step (ok : step state event = .ok next) :
    ironMirror next = ironMirror state := by
  cases step_cases ok with
  | backing _ executed effect =>
    obtain ⟨total, pool, base, stored, _⟩ := effect.records
    have supply := (execOps_ok executed).2.1 attoIronDenom
    rw [← mintedChange, effect.supply, onDenom_self, onDenom_of_ne (by decide)] at supply
    simp only [ironMirror, supply, stored, base.total, shiftBacking, Store.setTotalBacking, Store.setPoolBacking,
      shiftTotalBacking, recorded, Option.map_some, Option.getD_some, Coin.addAmount_amount]
    ring
  | collateral _ executed effect =>
    obtain ⟨total, pool, record, base, stored, _⟩ := effect.records
    have supply := (execOps_ok executed).2.1 attoIronDenom
    rw [← mintedChange, effect.supply, onDenom_of_ne (by decide), add_zero] at supply
    rw [ironMirror, supply, stored]
    rfl
  | registerBacking params _ _ bank stored =>
    rw [ironMirror, ironMirror, bank, stored]
    cases total : state.store.totalBacking <;>
      simp [registeredBacking, Store.setPoolBacking, Store.setTotalBacking, Store.setBackingRiskParams, recorded,
        total, zeroTotalBacking]
  | registerCollateral params _ _ bank stored =>
    rw [ironMirror, ironMirror, bank, stored]
    rfl
  | tune _ bank records => rw [ironMirror, ironMirror, bank, records.totalBacking]

/-- The module keeps none of the stablecoin that passes through a message. -/
theorem stableHoldings_step (ok : step state event = .ok next) (signed : Signed event)
    (keyed : Keyed state.store) (free : Unregistered state.store microUSMDenom) :
    holdings next microUSMDenom = holdings state microUSMDenom := by
  cases step_cases ok with
  | @backing _ _ denom _ action executed effect =>
    obtain ⟨total, pool, base, _, _⟩ := effect.records
    have other : denom ≠ microUSMDenom := by
      rintro rfl
      exact absurd ((keyed.poolBacking_absent free.backing).symm.trans base.pool) (by simp)
    rw [holdings_of_execOps executed, effect.holdings (signed _ action), onDenom_of_ne other, add_zero]
  | @collateral _ _ _ denom _ _ action executed effect =>
    obtain ⟨total, pool, record, base, _, _⟩ := effect.records
    have other : denom ≠ microUSMDenom := by
      rintro rfl
      exact absurd ((keyed.poolCollateral_absent free.collateral).symm.trans base.pool) (by simp)
    rw [holdings_of_execOps executed, effect.holdings (signed _ action), onDenom_of_ne other,
      onDenom_of_ne (by decide), add_zero, add_zero]
  | registerBacking _ _ _ bank => rw [holdings, holdings, bank]
  | registerCollateral _ _ _ bank => rw [holdings, holdings, bank]
  | tune _ bank => rw [holdings, holdings, bank]

/-- What a run over a bank keeps. -/
structure Kept (bank : Bank) (state : State) : Prop where
  iron : ironMirror state = bank.supply attoIronDenom
  stable : holdings state microUSMDenom = bank.balance ModuleAccount.maker.address microUSMDenom
  keyed : Keyed state.store
  free : Unregistered state.store microUSMDenom

theorem kept_fresh (bank : Bank) : Kept bank (fresh bank) := ⟨add_zero _, rfl, keyed_empty, rfl, rfl⟩

/-- In every run that does not register the stablecoin, the supply of iron and the record of burned iron add up to
what the supply was at the start, and the module's own balance of the stablecoin is what it was at the start. -/
theorem iron_and_stable_kept (bank : Bank) {events : List Event} (signed : ∀ event ∈ events, Signed event)
    (spared : ∀ event ∈ events, ¬ Registers event microUSMDenom) :
    ironMirror (run bank events) = bank.supply attoIronDenom ∧
      holdings (run bank events) microUSMDenom = bank.balance ModuleAccount.maker.address microUSMDenom := by
  have kept : Kept bank (run bank events) := by
    refine Machine.replay_invariant (Kept bank) (fun event => Signed event ∧ ¬ Registers event microUSMDenom) ?_
      (kept_fresh bank) (fun event member => ⟨signed event member, spared event member⟩)
    rintro state event next kept ⟨signedEvent, sparedEvent⟩ success
    refine ⟨?_, ?_, keyed_step (step_cases success) kept.keyed, unregistered_step kept.free sparedEvent success⟩
    · rw [ironMirror_step success, kept.iron]
    · rw [stableHoldings_step success signedEvent kept.keyed kept.free, kept.stable]
  exact ⟨kept.iron, kept.stable⟩

theorem iron_and_stable_kept_sample :
    (run sampleBank sampleEvents).bank.supply microUSMDenom = 310 ∧
      ironMirror (run sampleBank sampleEvents) = 0 ∧ holdings (run sampleBank sampleEvents) microUSMDenom = 0 := by
  have spared : ∀ event ∈ sampleEvents, ¬ Registers event microUSMDenom := by
    simp [sampleEvents, Registers, sampleCollateral, microUSMDenom]
  refine ⟨by decide +kernel, ?_⟩
  exact iron_and_stable_kept sampleBank sampleEvents_signed spared

end Rotofury.Soundness.Maker
