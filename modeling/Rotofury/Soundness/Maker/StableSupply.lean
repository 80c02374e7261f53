import Rotofury.Soundness.Maker.Payouts

/-! # The stablecoin supply and the records

Outside of interest, every unit of the stablecoin in circulation is recorded: as minted against backing or as
principal of a collateral debt. Accrued interest is not minted, so repaying it must not burn anything either.
A repayment by the debtor hands the interest on; a liquidation burns it together with the principal. The
supply therefore keeps step with the records in exactly those runs in which no liquidation repays interest.
-/

namespace Rotofury.Soundness.Maker

open Model.Sdk Model.App Model.Maker Machine

variable {ctx : Ctx} {store : Store} {record : AccountCollateral} {state next : State} {event : Event}

/-- The supply of the stablecoin less what the records account for: what was minted against backing, and the
debts without the interest they contain. -/
def stableImbalance (state : State) : ℤ :=
  state.bank.supply microUSMDenom - recorded state.store.totalBacking (·.gridMinted.amount) -
    state.store.accountCollateral.total (fun _ record => record.gridDebt.amount - record.lastInterest.amount)

/-- The principal of all accounts moves by what one account's debt moves beyond its interest. -/
theorem principal_shiftCollateral {account : Address} {denom : Denom} {height : ℤ} {total : TotalCollateral}
    {pool : PoolCollateral} (keyed : Keyed store) (base : CollateralBase ctx store account denom total pool record)
    (delta : CollateralDelta) :
    (shiftCollateral store account height total pool record delta).accountCollateral.total
        (fun _ record => record.gridDebt.amount - record.lastInterest.amount) =
      store.accountCollateral.total (fun _ record => record.gridDebt.amount - record.lastInterest.amount) +
        (delta.gridDebt - delta.lastInterest) := by
  refine AList.total_insert_of_share ?_
  simp only [shiftAccountCollateral, Coin.addAmount_denom, Coin.addAmount_amount, (base.keys keyed).1]
  rcases base.record with found | ⟨absent, rfl⟩
  · rw [AList.share_of_lookup found]
    ring
  · rw [AList.share_of_absent absent]
    simp only [Store.newAccountCollateral]
    ring

/-- One event moves the imbalance by the interest it burns. -/
theorem stableImbalance_step (ok : step state event = .ok next) (keyed : Keyed state.store) :
    ∃ burned, stableImbalance next = stableImbalance state - burned ∧
      ((∃ msg, event.action = .msg msg ∧ BurnsInterest event.ctx state.store msg burned) ∨
        burned = 0 ∧ ∀ msg, event.action ≠ .msg msg) := by
  cases step_cases ok with
  | backing action executed effect burning =>
    obtain ⟨total, pool, base, stored, _⟩ := effect.records
    refine ⟨0, ?_, .inl ⟨_, action, burning⟩⟩
    have supply := (execOps_ok executed).2.1 microUSMDenom
    rw [← mintedChange, effect.supply, onDenom_self, onDenom_of_ne (by decide)] at supply
    simp only [stableImbalance, supply, stored, base.total, shiftBacking, Store.setTotalBacking,
      Store.setPoolBacking, shiftTotalBacking, recorded, Option.map_some, Option.getD_some, Coin.addAmount_amount]
    ring
  | @collateral _ _ _ _ delta burned action executed effect burning =>
    obtain ⟨total, pool, record, base, stored, _⟩ := effect.records
    refine ⟨burned, ?_, .inl ⟨_, action, burning⟩⟩
    have supply := (execOps_ok executed).2.1 microUSMDenom
    rw [← mintedChange, effect.supply, onDenom_self] at supply
    rw [stableImbalance, supply, stored, principal_shiftCollateral keyed base]
    change _ - recorded state.store.totalBacking _ - _ = _
    rw [stableImbalance]
    ring
  | registerBacking params action _ bank stored =>
    refine ⟨0, ?_, .inr ⟨rfl, action⟩⟩
    rw [stableImbalance, stableImbalance, bank, stored]
    cases total : state.store.totalBacking <;>
      simp [registeredBacking, Store.setPoolBacking, Store.setTotalBacking, Store.setBackingRiskParams, recorded,
        total, zeroTotalBacking]
  | registerCollateral params action _ bank stored =>
    refine ⟨0, ?_, .inr ⟨rfl, action⟩⟩
    rw [stableImbalance, stableImbalance, bank, stored]
    simp [registeredCollateral, Store.setPoolCollateral, Store.setTotalCollateral, Store.setCollateralRiskParams]
  | tune action bank records =>
    refine ⟨0, ?_, .inr ⟨rfl, action⟩⟩
    rw [stableImbalance, stableImbalance, bank, records.totalBacking, records.accountCollateral, sub_zero]

/-- A liquidation would pay off interest: the debtor, settled at this height, owes some, and the collateral to
seize, less the liquidation fee, is worth at least one unit of the stablecoin. -/
def PaysInterest (ctx : Ctx) (store : Store) (msg : MsgLiquidateCollateral) : Prop :=
  ∃ params total pool record price liquidationFee,
    store.getAvailableCollateralParams msg.collateral.denom = .ok params ∧
    settledCollateral ctx store msg.debtor msg.collateral.denom false params = .ok (total, pool, record) ∧
    ctx.exchangeRate msg.collateral.denom = some price ∧ params.liquidationFee = some liquidationFee ∧
    0 < record.lastInterest.amount ∧ 0 < record.gridDebt.amount ∧
    Dec.one ≤ (Dec.ofInt msg.collateral.amount - (Dec.ofInt msg.collateral.amount).mul liquidationFee).mul price

/-- The repayment asked for seized collateral, as a condition on the price. -/
theorem liquidationAmounts_repayIn {params : CollateralRiskParams} {price : Dec}
    {collateral commissionFee collateralOut repayIn : Coin}
    (ok : liquidationAmounts ctx params price collateral = .ok (commissionFee, collateralOut, repayIn)) :
    ∃ liquidationFee, params.liquidationFee = some liquidationFee ∧ 0 ≤ repayIn.amount ∧
      (0 < repayIn.amount ↔ Dec.one ≤
        (Dec.ofInt collateral.amount - (Dec.ofInt collateral.amount).mul liquidationFee).mul price) := by
  simp only [liquidationAmounts, microUSMTarget, Dec.quo_one, Except.ok_iffs, Prod.mk.injEq, newCoin_ok_iff,
    deref_ok_iff, Except.ok.injEq] at ok
  obtain ⟨liquidationFee, fee, _, _, _, _, _, rfl, _, ⟨nonnegative, rfl⟩, _, _, rfl⟩ := ok
  exact ⟨liquidationFee, fee, nonnegative, Dec.truncateInt_pos_iff _⟩

theorem LiquidationQuote.interest_eq_zero_iff {msg : MsgLiquidateCollateral} {repayIn repayDebt repayInterest : ℤ}
    (quote : LiquidationQuote ctx store msg record repayIn repayDebt repayInterest) :
    repayInterest = 0 ↔ ¬ PaysInterest ctx store msg := by
  obtain ⟨params, total, pool, available, settle⟩ := quote.settled
  obtain ⟨_, price, _, _, sameParams, priced, amounts⟩ := quote.priced
  cases available.symm.trans sameParams
  obtain ⟨liquidationFee, fee, _, worth⟩ := liquidationAmounts_repayIn amounts
  have paying : PaysInterest ctx store msg ↔
      0 < record.lastInterest.amount ∧ 0 < record.gridDebt.amount ∧ 0 < repayIn := by
    rw [worth]
    constructor
    · rintro ⟨_, _, _, _, _, _, available', settle', priced', fee', owed⟩
      cases available.symm.trans available'
      cases settle.symm.trans settle'
      cases priced.symm.trans priced'
      cases fee.symm.trans fee'
      exact owed
    · exact fun owed => ⟨params, total, pool, record, price, liquidationFee, available, settle, priced, fee, owed⟩
  rw [paying]
  have := quote.debt
  have := quote.interest
  have := quote.interest_nonneg
  omega

/-- The event is not a liquidation that goes through and pays off interest. -/
def SparesInterest (state : State) (event : Event) : Prop :=
  ∀ msg next, event.action = .msg (.liquidateCollateral msg) → step state event = .ok next →
    ¬ PaysInterest event.ctx state.store msg

/-- A successful event leaves the imbalance alone exactly when it pays off no interest by liquidation. -/
theorem stableImbalance_step_iff (ok : step state event = .ok next) (keyed : Keyed state.store) :
    stableImbalance next = stableImbalance state ↔ SparesInterest state event := by
  obtain ⟨burned, moved, ⟨msg, action, burning⟩ | ⟨rfl, notMsg⟩⟩ := stableImbalance_step ok keyed
  · have spares : burned = 0 ↔ SparesInterest state event := by
      cases msg with
      | liquidateCollateral msg =>
        obtain ⟨record, repayIn, repayDebt, quote⟩ := burning
        simp [SparesInterest, action, ok, quote.interest_eq_zero_iff]
      | _ => simpa [SparesInterest, action, BurnsInterest] using burning
    rw [← spares]
    omega
  · simp [SparesInterest, notMsg, moved]

/-- Along a run from a fresh state the supply of the stablecoin moves in step with the records, up to any point,
exactly when no liquidation in the run pays off interest. -/
theorem stableImbalance_constant_iff (bank : Bank) (events : List Event) :
    (∀ visited, visited <+: events → stableImbalance (run bank visited) = stableImbalance (fresh bank)) ↔
      ∀ before event, before ++ [event] <+: events → SparesInterest (run bank before) event := by
  constructor
  · intro constant before event reached msg next action success
    have same : stableImbalance next = stableImbalance (run bank before) := by
      rw [constant before ((List.prefix_append ..).trans reached), ← constant _ reached, run,
        replay_concat, ← run, advance_of_ok success]
    exact (stableImbalance_step_iff success (run_keyed_agreement bank before).1).mp same msg next action success
  · intro spares visited reached
    induction visited using List.reverseRecOn with
    | nil => rfl
    | append_singleton before event ih =>
      rw [← ih ((List.prefix_append ..).trans reached), run, replay_concat, ← run]
      rcases advance_cases step (run bank before) event with success | unchanged
      · exact (stableImbalance_step_iff success (run_keyed_agreement bank before).1).mpr (spares _ _ reached)
      · rw [unchanged]

/-- The partial liquidation of the sample run, in which the stablecoin is neither backing nor collateral, burns
the interest it repays. -/
theorem stableImbalance_sample :
    (run sampleBank sampleEvents).store.backingParams.lookup microUSMDenom = none ∧
      (run sampleBank sampleEvents).store.collateralParams.lookup microUSMDenom = none ∧
      stableImbalance (fresh sampleBank) = 0 ∧ stableImbalance (run sampleBank sampleEvents) = -90 := by
  decide +kernel

end Rotofury.Soundness.Maker
