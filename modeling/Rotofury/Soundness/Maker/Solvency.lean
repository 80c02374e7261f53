import Rotofury.Soundness.Maker.LedgerAgreement

/-! # The maker can pay what it owes

For every denomination the module account holds at least what the records say it keeps: the backing of the
pool, the collateral of the accounts and, for iron, the iron they put up. Every effect moves both sides by
the same amount. With the sums in hand, each payout of an accepted message is covered when its turn comes,
so no accepted message fails because the module is short of funds.
-/

namespace Rotofury.Soundness.Maker

open Model.Sdk Model.App Model.Maker

variable {state next : State} {ops : List BankOp} {store : Store} {denom : Denom} {ctx : Ctx} {account signer : Address}

/-- What the records say the module keeps of a denomination. Unregistered coins count as zero. -/
def obligations (store : Store) (denom : Denom) : ℤ :=
  store.poolBacking.share (fun _ pool => pool.backing.amount) denom +
    store.poolCollateral.share (fun _ pool => pool.collateral.amount) denom +
    onDenom attoIronDenom (recorded store.totalCollateral (·.ironCollateralized.amount)) denom

/-- The module's balance of a denomination. -/
def holdings (state : State) (denom : Denom) : ℤ := state.bank.balance ModuleAccount.maker.address denom

/-- Solvency, with the signs of the amounts it is made of. -/
structure Solvent (state : State) : Prop where
  covered : ∀ denom, obligations state.store denom ≤ holdings state denom
  backing : ∀ denom pool, state.store.poolBacking.lookup denom = some pool → 0 ≤ pool.backing.amount
  collateral : ∀ denom pool, state.store.poolCollateral.lookup denom = some pool → 0 ≤ pool.collateral.amount
  iron : ∀ total, state.store.totalCollateral = some total → 0 ≤ total.ironCollateralized.amount

theorem solvent_fresh (bank : Bank) : Solvent (fresh bank) := by
  refine ⟨fun denom => ?_, by simp [fresh, Store.empty], by simp [fresh, Store.empty], by simp [fresh, Store.empty]⟩
  simp [obligations, holdings, fresh, Store.empty, recorded, AList.share]

theorem holdings_of_execOps (executed : execOps state.bank ops = .ok next.bank) (denom : Denom) :
    holdings next denom = holdings state denom + holdingsChange ops denom :=
  (execOps_ok executed).1 _ denom

theorem obligations_shiftBacking {total : TotalBacking} {pool : PoolBacking} (keyed : Keyed store)
    (base : BackingBase store denom total pool) (delta : BackingDelta) (query : Denom) :
    obligations (shiftBacking store total pool delta) query =
      obligations store query + onDenom denom delta.backing query := by
  have shares : (shiftBacking store total pool delta).poolBacking.share (fun _ pool => pool.backing.amount) query =
      store.poolBacking.share (fun _ pool => pool.backing.amount) query + onDenom denom delta.backing query := by
    refine (AList.share_insert ..).trans ?_
    rw [shiftPoolBacking, Coin.addAmount_denom, (keyed.backing denom pool base.pool).1]
    split
    · next same =>
      subst same
      rw [AList.share_of_lookup base.pool, onDenom_self]
      rfl
    · next other => rw [onDenom_of_ne (Ne.symm other), add_zero]
  rw [obligations, shares, obligations]
  simp only [shiftBacking, Store.setTotalBacking, Store.setPoolBacking]
  ring

theorem obligations_shiftCollateral {height : ℤ} {total : TotalCollateral} {pool : PoolCollateral}
    {record : AccountCollateral} (keyed : Keyed store)
    (base : CollateralBase ctx store account denom total pool record) (delta : CollateralDelta) (query : Denom) :
    obligations (shiftCollateral store account height total pool record delta) query =
      obligations store query + onDenom denom delta.collateral query +
        onDenom attoIronDenom delta.ironCollateralized query := by
  rw [obligations, share_poolCollateral keyed base (·.collateral.amount) rfl, obligations]
  simp only [shiftCollateral, setCollateral, Store.setAccountCollateral, Store.setPoolCollateral,
    Store.setTotalCollateral, shiftTotalCollateral, base.total, recorded, Option.map_some, Option.getD_some,
    Coin.addAmount_amount, onDenom_add]
  ring

/-- A fresh zero record owes nothing. -/
private theorem share_insert_zero {β : Type} {records : AList fun _ : Denom => β} {quantity : β → ℤ}
    {key : Denom} {value : β} (absent : records.lookup key = none) (zero : quantity value = 0) (query : Denom) :
    (records.insert key value).share (fun _ record => quantity record) query =
      records.share (fun _ record => quantity record) query := by
  rw [AList.share_insert]
  split
  · next same => rw [same, AList.share_of_absent absent, zero]
  · rfl

theorem obligations_registeredBacking {params : BackingRiskParams} (keyed : Keyed store)
    (unregistered : store.backingParams.lookup params.backingDenom = none) (query : Denom) :
    obligations (registeredBacking store params) query = obligations store query := by
  have shares : (registeredBacking store params).poolBacking.share (fun _ pool => pool.backing.amount) query =
      store.poolBacking.share (fun _ pool => pool.backing.amount) query :=
    share_insert_zero (keyed.poolBacking_absent unregistered) rfl query
  rw [obligations, shares]
  rfl

theorem obligations_registeredCollateral {params : CollateralRiskParams} (keyed : Keyed store)
    (unregistered : store.collateralParams.lookup params.collateralDenom = none) (query : Denom) :
    obligations (registeredCollateral store params) query = obligations store query := by
  have shares : (registeredCollateral store params).poolCollateral.share
      (fun _ pool => pool.collateral.amount) query =
      store.poolCollateral.share (fun _ pool => pool.collateral.amount) query :=
    share_insert_zero (keyed.poolCollateral_absent unregistered) rfl query
  rw [obligations, shares, obligations]
  cases total : store.totalCollateral <;>
    simp [registeredCollateral, Store.setPoolCollateral, Store.setTotalCollateral, Store.setCollateralRiskParams,
      recorded, total, zeroTotalCollateral]

theorem solvent_backing {delta : BackingDelta} (keyed : Keyed state.store) (solvent : Solvent state)
    (executed : execOps state.bank ops = .ok next.bank)
    (effect : BackingEffect state.store next.store ops signer denom delta)
    (signed : signer ≠ ModuleAccount.maker.address) : Solvent next := by
  obtain ⟨total, pool, base, stored, sign⟩ := effect.records
  have poolNonneg := solvent.backing denom pool base.pool
  refine ⟨fun query => ?_, ?_, ?_, ?_⟩
  · rw [stored, obligations_shiftBacking keyed base, holdings_of_execOps executed, effect.holdings signed]
    exact add_le_add_left (solvent.covered query) _
  · rw [stored]
    refine AList.forall_lookup_insert ?_ solvent.backing
    simp only [shiftPoolBacking, Coin.addAmount_amount]
    omega
  · rw [stored]
    exact solvent.collateral
  · rw [stored]
    exact solvent.iron

theorem solvent_collateral {delta : CollateralDelta} {burned : ℤ} (keyed : Keyed state.store)
    (solvent : Solvent state) (executed : execOps state.bank ops = .ok next.bank)
    (effect : CollateralEffect ctx state.store next.store ops signer account denom delta burned)
    (signed : signer ≠ ModuleAccount.maker.address) : Solvent next := by
  obtain ⟨total, pool, record, base, stored, poolSign, ironSign⟩ := effect.records
  have poolNonneg := solvent.collateral denom pool base.pool
  have ironNonneg := solvent.iron total base.total
  refine ⟨fun query => ?_, ?_, ?_, fun total found => ?_⟩
  · rw [stored, obligations_shiftCollateral keyed base, holdings_of_execOps executed, effect.holdings signed, add_assoc]
    exact add_le_add_left (solvent.covered query) _
  · rw [stored]
    exact solvent.backing
  · rw [stored]
    refine AList.forall_lookup_insert ?_ solvent.collateral
    simp only [shiftPoolCollateral, Coin.addAmount_amount]
    omega
  · rw [stored] at found
    cases found
    simp only [shiftTotalCollateral, Coin.addAmount_amount]
    omega

theorem solvent_step {event : Event} (change : StepChange event state next) (signed : Signed event)
    (keyed : Keyed state.store) (solvent : Solvent state) : Solvent next := by
  cases change with
  | backing action executed effect _ => exact solvent_backing keyed solvent executed effect (signed _ action)
  | collateral action executed effect _ => exact solvent_collateral keyed solvent executed effect (signed _ action)
  | registerBacking params _ unregistered bank stored =>
    refine ⟨fun query => ?_, ?_, ?_, ?_⟩
    · rw [stored, obligations_registeredBacking keyed unregistered, holdings, bank]
      exact solvent.covered query
    · rw [stored]
      exact AList.forall_lookup_insert le_rfl solvent.backing
    · rw [stored]
      exact solvent.collateral
    · rw [stored]
      exact solvent.iron
  | registerCollateral params _ unregistered bank stored =>
    refine ⟨fun query => ?_, ?_, ?_, fun total found => ?_⟩
    · rw [stored, obligations_registeredCollateral keyed unregistered, holdings, bank]
      exact solvent.covered query
    · rw [stored]
      exact solvent.backing
    · rw [stored]
      exact AList.forall_lookup_insert le_rfl solvent.collateral
    · rw [stored] at found
      cases found
      cases known : state.store.totalCollateral with
      | none => exact le_rfl
      | some total => exact solvent.iron total known
  | tune _ bank records =>
    obtain ⟨_, poolBacking, totalCollateral, poolCollateral, _, _, _⟩ := records
    refine ⟨fun query => ?_, poolBacking ▸ solvent.backing, poolCollateral ▸ solvent.collateral,
      totalCollateral ▸ solvent.iron⟩
    rw [obligations, poolBacking, poolCollateral, totalCollateral, holdings, bank]
    exact solvent.covered query

theorem run_solvent (bank : Bank) {events : List Event} (signed : ∀ event ∈ events, Signed event) :
    Solvent (run bank events) := by
  refine (Machine.replay_invariant (fun state : State => Keyed state.store ∧ Solvent state) Signed ?_
    ⟨keyed_empty, solvent_fresh bank⟩ signed).2
  intro state event next ⟨keyed, solvent⟩ signed ok
  have change := step_cases ok
  exact ⟨keyed_step change keyed, solvent_step change signed keyed solvent⟩

end Rotofury.Soundness.Maker
