import Rotofury.Soundness.Maker.Effects

/-! # The maker's ledgers agree

The module keeps every quantity at two or three levels: per pool and in total for backing, and per account,
per pool and in total for collateral. The levels agree in every state a run can reach, whatever the prices,
the ratios and the order of the messages.
-/

namespace Rotofury.Soundness.Maker

open Model.Sdk Model.App Model.Maker

variable {store : Store} {denom : Denom} {total : TotalBacking} {pool : PoolBacking} {ctx : Ctx} {account : Address}
  {record : AccountCollateral} {state next : State} {event : Event}

/-- Records lie under their own denomination, and only registered denominations have records. -/
structure Keyed (store : Store) : Prop where
  backing : ∀ denom pool, store.poolBacking.lookup denom = some pool →
    pool.backing.denom = denom ∧ (store.backingParams.lookup denom).isSome = true
  collateral : ∀ denom pool, store.poolCollateral.lookup denom = some pool →
    pool.collateral.denom = denom ∧ (store.collateralParams.lookup denom).isSome = true
  account : ∀ owner denom record, store.accountCollateral.lookup (owner, denom) = some record →
    record.collateral.denom = denom ∧ (store.collateralParams.lookup denom).isSome = true

theorem keyed_empty : Keyed Store.empty := by
  constructor <;> simp [Store.empty]

theorem keyed_shiftBacking (keyed : Keyed store) (base : BackingBase store denom total pool) (delta : BackingDelta) :
    Keyed (shiftBacking store total pool delta) := by
  obtain ⟨rfl, registered⟩ := keyed.backing denom pool base.pool
  exact ⟨AList.forall_lookup_insert ⟨rfl, registered⟩ keyed.backing, keyed.collateral, keyed.account⟩

/-- The record a collateral plan starts from carries the denomination it was asked for. -/
theorem CollateralBase.keys {total : TotalCollateral} {pool : PoolCollateral}
    (base : CollateralBase ctx store account denom total pool record) (keyed : Keyed store) :
    record.collateral.denom = denom ∧ pool.collateral.denom = denom ∧
      (store.collateralParams.lookup denom).isSome = true := by
  obtain ⟨poolDenom, registered⟩ := keyed.collateral denom pool base.pool
  refine ⟨?_, poolDenom, registered⟩
  rcases base.record with found | ⟨_, rfl⟩
  · exact (keyed.account account denom record found).1
  · rfl

theorem keyed_shiftCollateral {height : ℤ} {total : TotalCollateral} {pool : PoolCollateral} (keyed : Keyed store)
    (base : CollateralBase ctx store account denom total pool record) (delta : CollateralDelta) :
    Keyed (shiftCollateral store account height total pool record delta) := by
  obtain ⟨recordDenom, poolDenom, registered⟩ := base.keys keyed
  refine ⟨keyed.backing, AList.forall_lookup_insert ⟨rfl, poolDenom ▸ registered⟩ keyed.collateral,
    fun owner query found lookup => ?_⟩
  simp only [shiftCollateral, setCollateral, Store.setAccountCollateral, Store.setPoolCollateral,
    Store.setTotalCollateral, shiftAccountCollateral, Coin.addAmount_denom, recordDenom,
    AList.lookup_insert_eq_ite, Prod.mk.injEq] at lookup
  split at lookup
  · next same =>
    cases lookup
    exact ⟨recordDenom.trans same.2.symm, same.2 ▸ registered⟩
  · exact keyed.account owner query found lookup

theorem keyed_step (change : StepChange event state next) (keyed : Keyed state.store) : Keyed next.store := by
  cases change with
  | backing _ _ effect _ =>
    obtain ⟨total, pool, base, stored, _⟩ := effect.records
    exact stored ▸ keyed_shiftBacking keyed base _
  | collateral _ _ effect _ =>
    obtain ⟨total, pool, record, base, stored, _⟩ := effect.records
    exact stored ▸ keyed_shiftCollateral keyed base _
  | registerBacking params _ _ _ stored =>
    rw [stored]
    refine ⟨fun denom pool found => ?_, keyed.collateral, keyed.account⟩
    simp only [registeredBacking, Store.setPoolBacking, Store.setTotalBacking, Store.setBackingRiskParams,
      zeroPoolBacking, AList.lookup_insert_eq_ite] at found ⊢
    split at found
    · next same =>
      cases found
      exact ⟨same.symm, by simp [same]⟩
    · next other =>
      rw [if_neg other]
      exact keyed.backing denom pool found
  | registerCollateral params _ _ _ stored =>
    rw [stored]
    refine ⟨keyed.backing, fun denom pool found => ?_, fun owner denom record found => ?_⟩
    · simp only [registeredCollateral, Store.setPoolCollateral, Store.setTotalCollateral,
        Store.setCollateralRiskParams, zeroPoolCollateral, AList.lookup_insert_eq_ite] at found ⊢
      split at found
      · next same =>
        cases found
        exact ⟨same.symm, by simp [same]⟩
      · next other =>
        rw [if_neg other]
        exact keyed.collateral denom pool found
    · obtain ⟨same, registered⟩ := keyed.account owner denom record found
      refine ⟨same, ?_⟩
      simp only [registeredCollateral, Store.setPoolCollateral, Store.setTotalCollateral,
        Store.setCollateralRiskParams, AList.lookup_insert_eq_ite]
      split
      · rfl
      · exact registered
  | tune _ _ records =>
    refine ⟨fun denom pool found => ?_, fun denom pool found => ?_, fun owner denom record found => ?_⟩
    · rw [records.poolBacking] at found
      rw [records.backingParams]
      exact keyed.backing denom pool found
    · rw [records.poolCollateral] at found
      rw [records.collateralParams]
      exact keyed.collateral denom pool found
    · rw [records.accountCollateral] at found
      rw [records.collateralParams]
      exact keyed.account owner denom record found

/-- An unregistered denomination has no pool. -/
theorem Keyed.poolBacking_absent (keyed : Keyed store) (unregistered : store.backingParams.lookup denom = none) :
    store.poolBacking.lookup denom = none := by
  rcases found : store.poolBacking.lookup denom with _ | pool
  · rfl
  · have registered := (keyed.backing _ pool found).2
    rw [unregistered] at registered
    cases registered

theorem Keyed.poolCollateral_absent (keyed : Keyed store) (unregistered : store.collateralParams.lookup denom = none) :
    store.poolCollateral.lookup denom = none := by
  rcases found : store.poolCollateral.lookup denom with _ | pool
  · rfl
  · have registered := (keyed.collateral _ pool found).2
    rw [unregistered] at registered
    cases registered

/-- The amount a total records; there is none before the first registration. -/
def recorded {α : Type} (total : Option α) (quantity : α → ℤ) : ℤ := (total.map quantity).getD 0

/-- The levels of every quantity agree. A pool without a record counts as zero. -/
structure Agreement (store : Store) : Prop where
  gridMinted : recorded store.totalBacking (·.gridMinted.amount) =
    store.poolBacking.total fun _ pool => pool.gridMinted.amount
  ironBurned : recorded store.totalBacking (·.ironBurned.amount) =
    store.poolBacking.total fun _ pool => pool.ironBurned.amount
  collateral : ∀ denom, store.poolCollateral.share (fun _ pool => pool.collateral.amount) denom =
    store.accountCollateral.total fun key record => onDenom key.2 record.collateral.amount denom
  poolDebt : ∀ denom, store.poolCollateral.share (fun _ pool => pool.gridDebt.amount) denom =
    store.accountCollateral.total fun key record => onDenom key.2 record.gridDebt.amount denom
  poolIron : ∀ denom, store.poolCollateral.share (fun _ pool => pool.ironCollateralized.amount) denom =
    store.accountCollateral.total fun key record => onDenom key.2 record.ironCollateralized.amount denom
  gridDebt : recorded store.totalCollateral (·.gridDebt.amount) =
    store.poolCollateral.total fun _ pool => pool.gridDebt.amount
  ironCollateralized : recorded store.totalCollateral (·.ironCollateralized.amount) =
    store.poolCollateral.total fun _ pool => pool.ironCollateralized.amount

theorem agreement_empty : Agreement Store.empty := by
  constructor <;> simp [Store.empty, recorded, AList.share]

/-- A total and its pools both move by the change of one pool. -/
private theorem total_poolBacking {delta : BackingDelta} (keyed : Keyed store)
    (base : BackingBase store denom total pool) (quantity : PoolBacking → ℤ) {change : ℤ}
    (changed : quantity (shiftPoolBacking pool delta) = quantity pool + change) :
    (shiftBacking store total pool delta).poolBacking.total (fun _ pool => quantity pool) =
      store.poolBacking.total (fun _ pool => quantity pool) + change := by
  refine AList.total_insert_of_share ?_
  rw [changed, shiftPoolBacking, Coin.addAmount_denom, (keyed.backing denom pool base.pool).1,
    AList.share_of_lookup base.pool]

theorem agreement_shiftBacking (keyed : Keyed store) (agreement : Agreement store)
    (base : BackingBase store denom total pool) (delta : BackingDelta) :
    Agreement (shiftBacking store total pool delta) := by
  refine ⟨?_, ?_, agreement.collateral, agreement.poolDebt, agreement.poolIron, agreement.gridDebt,
    agreement.ironCollateralized⟩
  · have before := agreement.gridMinted
    simp only [base.total, recorded, Option.map_some, Option.getD_some] at before
    rw [total_poolBacking keyed base (·.gridMinted.amount) rfl, ← before]
    rfl
  · have before := agreement.ironBurned
    simp only [base.total, recorded, Option.map_some, Option.getD_some] at before
    rw [total_poolBacking keyed base (·.ironBurned.amount) rfl, ← before]
    rfl

section Collateral

variable {ctx : Ctx} {store : Store} {account : Address} {denom : Denom} {height : ℤ} {total : TotalCollateral}
  {pool : PoolCollateral} {record : AccountCollateral} {delta : CollateralDelta} {change : ℤ}

variable (keyed : Keyed store)
include keyed

section

variable (base : CollateralBase ctx store account denom total pool record)
include base

/-- The sum over the accounts of one denomination moves by the change of one account. -/
theorem total_accountCollateral (quantity : AccountCollateral → ℤ)
    (changed : quantity (shiftAccountCollateral record delta height) = quantity record + change)
    (zero : quantity (Store.newAccountCollateral ctx account denom) = 0) (query : Denom) :
    (shiftCollateral store account height total pool record delta).accountCollateral.total
        (fun key record => onDenom key.2 (quantity record) query) =
      store.accountCollateral.total (fun key record => onDenom key.2 (quantity record) query) +
        onDenom denom change query := by
  refine AList.total_insert_of_share ?_
  rw [changed, shiftAccountCollateral, Coin.addAmount_denom, (base.keys keyed).1, onDenom_add]
  congr 1
  rcases base.record with found | ⟨absent, rfl⟩
  · rw [AList.share_of_lookup found]
  · rw [AList.share_of_absent absent, zero, onDenom_zero]

theorem share_poolCollateral (quantity : PoolCollateral → ℤ)
    (changed : quantity (shiftPoolCollateral pool delta) = quantity pool + change) (query : Denom) :
    (shiftCollateral store account height total pool record delta).poolCollateral.share
        (fun _ pool => quantity pool) query =
      store.poolCollateral.share (fun _ pool => quantity pool) query + onDenom denom change query := by
  refine (AList.share_insert ..).trans ?_
  rw [changed, shiftPoolCollateral, Coin.addAmount_denom, (base.keys keyed).2.1]
  split
  · next same =>
    subst same
    rw [AList.share_of_lookup base.pool, onDenom_self]
  · next other =>
    rw [onDenom_of_ne (Ne.symm other), add_zero]
    rfl

theorem total_poolCollateral (quantity : PoolCollateral → ℤ)
    (changed : quantity (shiftPoolCollateral pool delta) = quantity pool + change) :
    (shiftCollateral store account height total pool record delta).poolCollateral.total
        (fun _ pool => quantity pool) =
      store.poolCollateral.total (fun _ pool => quantity pool) + change := by
  refine AList.total_insert_of_share ?_
  rw [changed, shiftPoolCollateral, Coin.addAmount_denom, (base.keys keyed).2.1]
  change _ = store.poolCollateral.share _ denom + change
  rw [AList.share_of_lookup base.pool]

end

theorem agreement_shiftCollateral (agreement : Agreement store)
    (base : CollateralBase ctx store account denom total pool record) (delta : CollateralDelta) :
    Agreement (shiftCollateral store account height total pool record delta) := by
  refine ⟨agreement.gridMinted, agreement.ironBurned, fun query => ?_, fun query => ?_, fun query => ?_, ?_, ?_⟩
  · rw [share_poolCollateral keyed base (·.collateral.amount) rfl,
      total_accountCollateral keyed base (·.collateral.amount) rfl rfl, agreement.collateral]
  · rw [share_poolCollateral keyed base (·.gridDebt.amount) rfl,
      total_accountCollateral keyed base (·.gridDebt.amount) rfl rfl, agreement.poolDebt]
  · rw [share_poolCollateral keyed base (·.ironCollateralized.amount) rfl,
      total_accountCollateral keyed base (·.ironCollateralized.amount) rfl rfl, agreement.poolIron]
  · have before := agreement.gridDebt
    simp only [base.total, recorded, Option.map_some, Option.getD_some] at before
    rw [total_poolCollateral keyed base (·.gridDebt.amount) rfl, ← before]
    rfl
  · have before := agreement.ironCollateralized
    simp only [base.total, recorded, Option.map_some, Option.getD_some] at before
    rw [total_poolCollateral keyed base (·.ironCollateralized.amount) rfl, ← before]
    rfl

end Collateral

/-- A registered coin starts with zero records, and there were none under its denomination. -/
theorem agreement_registeredBacking {params : BackingRiskParams} (keyed : Keyed store) (agreement : Agreement store)
    (unregistered : store.backingParams.lookup params.backingDenom = none) :
    Agreement (registeredBacking store params) := by
  have absent := keyed.poolBacking_absent unregistered
  have unchanged : ∀ quantity : PoolBacking → ℤ, quantity (zeroPoolBacking params.backingDenom) = 0 →
      (registeredBacking store params).poolBacking.total (fun _ pool => quantity pool) =
        store.poolBacking.total (fun _ pool => quantity pool) := by
    intro quantity zero
    refine (AList.total_insert ..).trans ?_
    change _ - store.poolBacking.share _ params.backingDenom + quantity (zeroPoolBacking params.backingDenom) = _
    rw [AList.share_of_absent absent, zero, sub_zero, add_zero]
    rfl
  refine ⟨?_, ?_, agreement.collateral, agreement.poolDebt, agreement.poolIron, agreement.gridDebt,
    agreement.ironCollateralized⟩
  · rw [unchanged (·.gridMinted.amount) rfl, ← agreement.gridMinted]
    cases total : store.totalBacking <;>
      simp [registeredBacking, Store.setPoolBacking, Store.setTotalBacking, recorded, total, zeroTotalBacking]
  · rw [unchanged (·.ironBurned.amount) rfl, ← agreement.ironBurned]
    cases total : store.totalBacking <;>
      simp [registeredBacking, Store.setPoolBacking, Store.setTotalBacking, recorded, total, zeroTotalBacking]

theorem agreement_registeredCollateral {params : CollateralRiskParams} (keyed : Keyed store)
    (agreement : Agreement store) (unregistered : store.collateralParams.lookup params.collateralDenom = none) :
    Agreement (registeredCollateral store params) := by
  have absent := keyed.poolCollateral_absent unregistered
  have shares : ∀ quantity : PoolCollateral → ℤ, quantity (zeroPoolCollateral params.collateralDenom) = 0 →
      ∀ denom, (registeredCollateral store params).poolCollateral.share (fun _ pool => quantity pool) denom =
        store.poolCollateral.share (fun _ pool => quantity pool) denom := by
    intro quantity zero denom
    refine (AList.share_insert ..).trans ?_
    split
    · next same =>
      subst same
      rw [zero]
      exact (AList.share_of_absent absent).symm
    · rfl
  have unchanged : ∀ quantity : PoolCollateral → ℤ, quantity (zeroPoolCollateral params.collateralDenom) = 0 →
      (registeredCollateral store params).poolCollateral.total (fun _ pool => quantity pool) =
        store.poolCollateral.total (fun _ pool => quantity pool) := by
    intro quantity zero
    refine (AList.total_insert ..).trans ?_
    change _ - store.poolCollateral.share _ params.collateralDenom +
      quantity (zeroPoolCollateral params.collateralDenom) = _
    rw [AList.share_of_absent absent, zero, sub_zero, add_zero]
    rfl
  refine ⟨agreement.gridMinted, agreement.ironBurned, fun denom => ?_, fun denom => ?_, fun denom => ?_, ?_, ?_⟩
  · rw [shares (·.collateral.amount) rfl]
    exact agreement.collateral denom
  · rw [shares (·.gridDebt.amount) rfl]
    exact agreement.poolDebt denom
  · rw [shares (·.ironCollateralized.amount) rfl]
    exact agreement.poolIron denom
  · rw [unchanged (·.gridDebt.amount) rfl, ← agreement.gridDebt]
    cases total : store.totalCollateral <;>
      simp [registeredCollateral, Store.setPoolCollateral, Store.setTotalCollateral, recorded, total,
        zeroTotalCollateral]
  · rw [unchanged (·.ironCollateralized.amount) rfl, ← agreement.ironCollateralized]
    cases total : store.totalCollateral <;>
      simp [registeredCollateral, Store.setPoolCollateral, Store.setTotalCollateral, recorded, total,
        zeroTotalCollateral]

/-- Every successful event keeps the ledgers in agreement. -/
theorem agreement_step (change : StepChange event state next) (keyed : Keyed state.store)
    (agreement : Agreement state.store) : Agreement next.store := by
  cases change with
  | backing _ _ effect _ =>
    obtain ⟨total, pool, base, stored, _⟩ := effect.records
    exact stored ▸ agreement_shiftBacking keyed agreement base _
  | collateral _ _ effect _ =>
    obtain ⟨total, pool, record, base, stored, _⟩ := effect.records
    exact stored ▸ agreement_shiftCollateral keyed agreement base _
  | registerBacking params _ unregistered _ stored =>
    exact stored ▸ agreement_registeredBacking keyed agreement unregistered
  | registerCollateral params _ unregistered _ stored =>
    exact stored ▸ agreement_registeredCollateral keyed agreement unregistered
  | tune _ _ records =>
    obtain ⟨totalBacking, poolBacking, totalCollateral, poolCollateral, accountCollateral, _, _⟩ := records
    constructor <;> simp only [totalBacking, poolBacking, totalCollateral, poolCollateral, accountCollateral]
    · exact agreement.gridMinted
    · exact agreement.ironBurned
    · exact agreement.collateral
    · exact agreement.poolDebt
    · exact agreement.poolIron
    · exact agreement.gridDebt
    · exact agreement.ironCollateralized

/-- Keys and ledgers hold together in every reachable state. -/
theorem run_keyed_agreement (bank : Bank) (events : List Event) :
    Keyed (run bank events).store ∧ Agreement (run bank events).store := by
  refine Machine.replay_always (fun state : State => Keyed state.store ∧ Agreement state.store) ?_
    ⟨keyed_empty, agreement_empty⟩ events
  intro state event next ⟨keyed, agreement⟩ ok
  have change := step_cases ok
  exact ⟨keyed_step change keyed, agreement_step change keyed agreement⟩

/-- In every reachable state the backing total equals the sum over the backing pools, every collateral pool
equals the sum over the accounts of its denomination, and the collateral total equals the sum over the
collateral pools. -/
theorem ledgers_agree (bank : Bank) (events : List Event) :
    let store := (run bank events).store
    (∀ total, store.totalBacking = some total →
      total.gridMinted.amount = store.poolBacking.total (fun _ pool => pool.gridMinted.amount) ∧
      total.ironBurned.amount = store.poolBacking.total (fun _ pool => pool.ironBurned.amount)) ∧
    (∀ denom pool, store.poolCollateral.lookup denom = some pool →
      pool.collateral.amount = store.accountCollateral.total
        (fun key record => if key.2 = denom then record.collateral.amount else 0) ∧
      pool.gridDebt.amount = store.accountCollateral.total
        (fun key record => if key.2 = denom then record.gridDebt.amount else 0) ∧
      pool.ironCollateralized.amount = store.accountCollateral.total
        (fun key record => if key.2 = denom then record.ironCollateralized.amount else 0)) ∧
    (∀ total, store.totalCollateral = some total →
      total.gridDebt.amount = store.poolCollateral.total (fun _ pool => pool.gridDebt.amount) ∧
      total.ironCollateralized.amount = store.poolCollateral.total (fun _ pool => pool.ironCollateralized.amount)) := by
  obtain ⟨_, agreement⟩ := run_keyed_agreement bank events
  refine ⟨fun total found => ?_, fun denom pool found => ?_, fun total found => ?_⟩
  · have minted := agreement.gridMinted
    have burned := agreement.ironBurned
    rw [found] at minted burned
    exact ⟨minted, burned⟩
  · have collateral := agreement.collateral denom
    have debt := agreement.poolDebt denom
    have iron := agreement.poolIron denom
    rw [AList.share_of_lookup found] at collateral debt iron
    exact ⟨collateral, debt, iron⟩
  · have debt := agreement.gridDebt
    have iron := agreement.ironCollateralized
    rw [found] at debt iron
    exact ⟨debt, iron⟩

end Rotofury.Soundness.Maker
