import Rotofury.Soundness.Maker.Solvency

/-! # Every payout is covered

For each handler: starting from what the module holds in a solvent state, each of its bank calls that debits
the module finds its coins there. What comes in from the sender or is minted first pays for what is burned
or paid out in the same coin; backing and collateral are paid from what the records promise.
-/

namespace Rotofury.Soundness.Maker

open Model.Sdk Model.App Model.Maker
open ModuleAccount (maker)

variable {funds : Denom → ℤ} {coins : List Coin} {rest : List BankOp} {denom : Denom} {state : State} {ctx : Ctx}
  {plan : Plan Coin}

/-- The module's calls are covered from the given funds. -/
abbrev ModuleCovered (funds : Denom → ℤ) (ops : List BankOp) : Prop :=
  Covered maker.address funds ops

theorem covered_in {sender : Address} (outside : sender ≠ maker.address)
    (received : (∀ coin ∈ coins, 0 ≤ coin.amount) → ModuleCovered (fun d => funds d + amountOf coins d) rest) :
    ModuleCovered funds (.sendCoinsFromAccountToModule sender .maker coins :: rest) :=
  covered_receive rfl (fun same => outside (Option.some.inj same)) received

theorem covered_mint
    (minted : (∀ coin ∈ coins, 0 ≤ coin.amount) → ModuleCovered (fun d => funds d + amountOf coins d) rest) :
    ModuleCovered funds (.mintCoins .maker coins :: rest) :=
  covered_receive rfl (by simp [BankOp.debited]) minted

/-- A call skipped because its only coin is zero needs nothing. -/
theorem covered_whenPositive {coin : Coin} {op : BankOp} (only : op.coins = [coin]) (nonneg : 0 ≤ coin.amount)
    (covered : ModuleCovered funds (op :: rest)) :
    ModuleCovered funds (whenPositive coin op ++ rest) := by
  unfold whenPositive
  split
  · exact covered
  · next zero =>
    have amount : coin.amount = 0 := by omega
    obtain ⟨_, later⟩ := covered (by simp [only, nonneg])
    exact later.mono fun d => by simp [BankOp.netChange, only, amount]

theorem holdings_nonneg (state : State) (denom : Denom) : 0 ≤ holdings state denom := Int.natCast_nonneg _

private theorem onDenom_le_share {β : Type} {records : AList fun _ : Denom => β} (quantity : β → ℤ)
    (nonneg : ∀ denom record, records.lookup denom = some record → 0 ≤ quantity record) {record : β}
    (found : records.lookup denom = some record) (query : Denom) :
    onDenom denom (quantity record) query ≤ records.share (fun _ record => quantity record) query := by
  by_cases same : denom = query
  · subst same
    rw [onDenom_self, AList.share_of_lookup found]
  · rw [onDenom_of_ne same]
    exact AList.share_nonneg (fun _ => quantity) nonneg query

theorem ironCollateralized_nonneg (solvent : Solvent state) :
    0 ≤ recorded state.store.totalCollateral (·.ironCollateralized.amount) := by
  cases known : state.store.totalCollateral with
  | none => exact le_rfl
  | some total => exact solvent.iron total known

/-- A solvent module holds the backing of each pool. -/
theorem backing_reserved (solvent : Solvent state) {total : TotalBacking} {pool : PoolBacking}
    (base : BackingBase state.store denom total pool) (d : Denom) :
    onDenom denom pool.backing.amount d ≤ holdings state d := by
  have owed := solvent.covered d
  have pooled := onDenom_le_share (fun pool : PoolBacking => pool.backing.amount) solvent.backing base.pool d
  have collateral := AList.share_nonneg (fun _ (pool : PoolCollateral) => pool.collateral.amount) solvent.collateral d
  have iron := onDenom_nonneg attoIronDenom (ironCollateralized_nonneg solvent) d
  rw [obligations] at owed
  omega

/-- A solvent module holds the collateral of each pool together with all iron put up. -/
theorem collateral_reserved (solvent : Solvent state) {account : Address} {total : TotalCollateral}
    {pool : PoolCollateral} {record : AccountCollateral}
    (base : CollateralBase ctx state.store account denom total pool record) (d : Denom) :
    onDenom denom pool.collateral.amount d + onDenom attoIronDenom total.ironCollateralized.amount d ≤
      holdings state d := by
  have owed := solvent.covered d
  have pooled := onDenom_le_share (fun pool : PoolCollateral => pool.collateral.amount) solvent.collateral base.pool d
  have backing := AList.share_nonneg (fun _ (pool : PoolBacking) => pool.backing.amount) solvent.backing d
  rw [obligations, base.total] at owed
  simp only [recorded, Option.map_some, Option.getD_some] at owed
  omega

theorem mintBySwap_covered {msg : MsgMintBySwap} {plan : Plan MintBySwapResponse}
    (ok : mintBySwapPlan ctx state msg = .ok plan) (signed : msg.sender ≠ maker.address) :
    ModuleCovered (holdings state) plan.ops := by
  obtain ⟨total, pool, backingIn, ironIn, mintOut, mintFee, _, feeNonneg, _, ops⟩ := mintBySwapPlan_ok ok
  have held := holdings_nonneg state
  rw [ops]
  simp only [List.append_assoc, List.cons_append, List.nil_append]
  refine covered_in signed fun taken => ?_
  simp only [List.forall_mem_cons] at taken
  have backingNonneg := onDenom_nonneg msg.backingInMax.denom taken.1
  have ironNonneg := onDenom_nonneg attoIronDenom taken.2.1
  have feePaid := onDenom_nonneg microUSMDenom feeNonneg
  refine covered_whenPositive rfl taken.2.1 (covered_pay rfl fun _ => ⟨fun d => ?_, ?_⟩)
  · have := held d
    have := backingNonneg d
    simp only [BankOp.coins, coin_amounts]
    omega
  refine covered_mint fun _ => covered_pay rfl fun _ => ⟨fun d => ?_, ?_⟩
  · have := held d
    have := backingNonneg d
    have := feePaid d
    simp only [BankOp.coins, coin_amounts]
    omega
  rw [← List.append_nil (whenPositive _ _)]
  refine covered_whenPositive rfl feeNonneg (covered_pay rfl fun _ => ⟨fun d => ?_, trivial⟩)
  have := held d
  have := backingNonneg d
  simp only [BankOp.coins, coin_amounts]
  omega

theorem burnBySwap_covered {msg : MsgBurnBySwap} {plan : Plan BurnBySwapResponse}
    (ok : burnBySwapPlan ctx state msg = .ok plan) (valid : msg.validateBasic = .ok ()) (solvent : Solvent state)
    (signed : msg.sender ≠ maker.address) :
    ModuleCovered (holdings state) plan.ops := by
  obtain ⟨total, pool, backingOut, ironOut, burnActual, burnFee, base, enough, feeNonneg, _, ops⟩ :=
    burnBySwapPlan_ok ok valid
  have held := holdings_nonneg state
  have feePaid := onDenom_nonneg microUSMDenom feeNonneg
  have reserved := backing_reserved solvent base
  have paidOut := onDenom_le msg.backingOutMin.denom enough
  rw [ops]
  refine covered_in signed fun _ => covered_pay rfl fun _ => ⟨fun d => ?_, ?_⟩
  · have := held d
    have := feePaid d
    simp only [BankOp.coins, coin_amounts]
    omega
  refine covered_pay rfl fun _ => ⟨fun d => ?_, ?_⟩
  · have := held d
    simp only [BankOp.coins, coin_amounts]
    omega
  refine covered_mint fun _ => covered_pay rfl fun _ => ⟨fun d => ?_, trivial⟩
  have := reserved d
  have := paidOut d
  simp only [BankOp.coins, coin_amounts]
  omega

theorem buyBacking_covered {msg : MsgBuyBacking} {plan : Plan BuyBackingResponse}
    (ok : buyBackingPlan ctx state msg = .ok plan) (valid : msg.validateBasic = .ok ()) (solvent : Solvent state)
    (signed : msg.sender ≠ maker.address) :
    ModuleCovered (holdings state) plan.ops := by
  obtain ⟨total, pool, ironIn, backingOut, buybackFee, base, enough, feeNonneg, _, ops⟩ :=
    buyBackingPlan_ok ok valid
  have held := holdings_nonneg state
  have feePaid := onDenom_nonneg msg.backingOutMin.denom feeNonneg
  have reserved := backing_reserved solvent base
  have paidOut := onDenom_le msg.backingOutMin.denom enough
  simp only [onDenom_add] at paidOut
  rw [ops]
  refine covered_in signed fun _ => covered_pay rfl fun _ => ⟨fun d => ?_, ?_⟩
  · have := held d
    simp only [BankOp.coins]
    omega
  refine covered_pay rfl fun _ => ⟨fun d => ?_, covered_pay rfl fun _ => ⟨fun d => ?_, trivial⟩⟩
  · have := reserved d
    have := paidOut d
    have := feePaid d
    simp only [BankOp.coins, coin_amounts]
    omega
  · have := reserved d
    have := paidOut d
    simp only [BankOp.coins, coin_amounts]
    omega

theorem sellBacking_covered {msg : MsgSellBacking} {plan : Plan SellBackingResponse}
    (ok : sellBackingPlan ctx state msg = .ok plan) (signed : msg.sender ≠ maker.address) :
    ModuleCovered (holdings state) plan.ops := by
  obtain ⟨total, pool, ironOut, rebackFee, _, feeNonneg, _, ops⟩ := sellBackingPlan_ok ok
  have held := holdings_nonneg state
  have feePaid := onDenom_nonneg attoIronDenom feeNonneg
  rw [ops]
  refine covered_in signed fun taken => covered_mint fun _ => covered_pay rfl fun _ =>
    ⟨fun d => ?_, covered_pay rfl fun _ => ⟨fun d => ?_, trivial⟩⟩
  · have := held d
    have := feePaid d
    have := amountOf_nonneg taken d
    simp only [BankOp.coins, coin_amounts] at this ⊢
    omega
  · have := held d
    have := amountOf_nonneg taken d
    simp only [BankOp.coins, coin_amounts] at this ⊢
    omega

theorem mintByCollateral_covered {msg : MsgMintByCollateral} (ok : mintByCollateralPlan ctx state msg = .ok plan)
    (valid : msg.validateBasic = .ok ()) :
    ModuleCovered (holdings state) plan.ops := by
  obtain ⟨total, pool, record, interest, mintFee, _, feeNonneg, ops⟩ := mintByCollateralPlan_ok ok valid
  have held := holdings_nonneg state
  have feePaid := onDenom_nonneg microUSMDenom feeNonneg
  rw [ops]
  simp only [List.cons_append, List.nil_append]
  refine covered_mint fun _ => covered_pay rfl fun _ => ⟨fun d => ?_, ?_⟩
  · have := held d
    have := feePaid d
    simp only [BankOp.coins, coin_amounts]
    omega
  rw [← List.append_nil (whenPositive _ _)]
  refine covered_whenPositive rfl feeNonneg (covered_pay rfl fun _ => ⟨fun d => ?_, trivial⟩)
  have := held d
  simp only [BankOp.coins, coin_amounts]
  omega

theorem burnByCollateral_covered {msg : MsgBurnByCollateral} (ok : burnByCollateralPlan ctx state msg = .ok plan)
    (valid : msg.validateBasic = .ok ()) (signed : msg.sender ≠ maker.address) :
    ModuleCovered (holdings state) plan.ops := by
  obtain ⟨total, pool, record, interest, repayIn, repayInterest, _, interestNonneg, atMost, ops⟩ :=
    burnByCollateralPlan_ok ok valid
  have held := holdings_nonneg state
  have burnNonneg : 0 ≤ repayIn - repayInterest := by omega
  have interestPaid := onDenom_nonneg microUSMDenom interestNonneg
  rw [ops]
  simp only [List.cons_append, List.nil_append]
  refine covered_in signed fun _ => covered_whenPositive rfl burnNonneg (covered_pay rfl fun _ =>
    ⟨fun d => ?_, ?_⟩)
  · have := held d
    have := interestPaid d
    simp only [BankOp.coins, coin_amounts]
    omega
  rw [← List.append_nil (whenPositive _ _)]
  refine covered_whenPositive rfl interestNonneg (covered_pay rfl fun _ => ⟨fun d => ?_, trivial⟩)
  have := held d
  simp only [BankOp.coins, coin_amounts]
  omega

theorem depositCollateral_covered {msg : MsgDepositCollateral} {plan : Plan Unit}
    (ok : depositCollateralPlan ctx state msg = .ok plan) (valid : msg.validateBasic = .ok ())
    (signed : msg.sender ≠ maker.address) : ModuleCovered (holdings state) plan.ops := by
  obtain ⟨total, pool, record, interest, _, _, _, ops⟩ := depositCollateralPlan_ok ok valid
  rw [ops]
  exact covered_in signed fun _ => trivial

theorem redeemCollateral_covered {msg : MsgRedeemCollateral} {plan : Plan Unit}
    (ok : redeemCollateralPlan ctx state msg = .ok plan) (valid : msg.validateBasic = .ok ())
    (solvent : Solvent state) : ModuleCovered (holdings state) plan.ops := by
  obtain ⟨total, pool, record, interest, planned, poolEnough, totalEnough, ops⟩ :=
    redeemCollateralPlan_ok ok valid
  have reserved := collateral_reserved solvent planned.base
  have collateralOut := onDenom_le msg.collateralOut.denom poolEnough
  have ironOut := onDenom_le attoIronDenom totalEnough
  rw [ops]
  refine covered_pay rfl fun _ => ⟨fun d => ?_, trivial⟩
  have := reserved d
  have := collateralOut d
  have := ironOut d
  simp only [BankOp.coins, coin_amounts]
  omega

theorem liquidateCollateral_covered {msg : MsgLiquidateCollateral} {plan : Plan LiquidateCollateralResponse}
    (ok : liquidateCollateralPlan ctx state msg = .ok plan) (solvent : Solvent state)
    (signed : msg.sender ≠ maker.address) :
    ModuleCovered (holdings state) plan.ops := by
  obtain ⟨total, pool, record, interest, repayDebt, repayInterest, gridRefund, commissionFee, planned, _,
    poolEnough, refundNonneg, feeNonneg, ops⟩ := liquidateCollateralPlan_ok ok
  have held := holdings_nonneg state
  have reserved := collateral_reserved solvent planned.base
  have ironReserved := onDenom_nonneg attoIronDenom (solvent.iron total planned.base.total)
  have seized := onDenom_le msg.collateral.denom poolEnough
  have refunded := onDenom_nonneg microUSMDenom refundNonneg
  have feePaid := onDenom_nonneg msg.collateral.denom feeNonneg
  rw [ops]
  simp only [List.cons_append, List.nil_append]
  refine covered_in signed fun _ => covered_pay rfl fun _ => ⟨fun d => ?_, ?_⟩
  · have := held d
    have := refunded d
    simp only [BankOp.coins, coin_amounts]
    omega
  refine covered_whenPositive rfl refundNonneg (covered_pay rfl fun _ => ⟨fun d => ?_, ?_⟩)
  · have := held d
    simp only [BankOp.coins, coin_amounts]
    omega
  refine covered_pay rfl fun _ => ⟨fun d => ?_, covered_pay rfl fun _ => ⟨fun d => ?_, trivial⟩⟩
  · have := reserved d
    have := ironReserved d
    have := seized d
    have := feePaid d
    simp only [BankOp.coins, coin_amounts]
    omega
  · have := reserved d
    have := ironReserved d
    have := seized d
    simp only [BankOp.coins, coin_amounts]
    omega

/-- In a solvent state the bank calls of every accepted message are covered. -/
theorem planned_covered {msg : Msg} {store : Store} {ops : List BankOp}
    (planned : msg.planned ctx state = .ok (store, ops)) (valid : msg.validateBasic = .ok ())
    (solvent : Solvent state) (signed : msg.signer ≠ maker.address) :
    ModuleCovered (holdings state) ops := by
  cases msg <;> obtain ⟨plan, ok, rfl, rfl⟩ := by simpa [Msg.planned] using planned
  case mintBySwap => exact mintBySwap_covered ok signed
  case burnBySwap => exact burnBySwap_covered ok valid solvent signed
  case buyBacking => exact buyBacking_covered ok valid solvent signed
  case sellBacking => exact sellBacking_covered ok signed
  case mintByCollateral => exact mintByCollateral_covered ok valid
  case burnByCollateral => exact burnByCollateral_covered ok valid signed
  case depositCollateral => exact depositCollateral_covered ok valid signed
  case redeemCollateral => exact redeemCollateral_covered ok valid solvent
  case liquidateCollateral => exact liquidateCollateral_covered ok solvent signed

/-- In every reachable state the module holds, of every denomination, at least the backing and the collateral
recorded under it and, of iron, all iron put up on top; and no bank call of an accepted message fails because
the module lacks the funds. -/
theorem module_solvent (bank : Bank) {events : List Event} (signed : ∀ event ∈ events, Signed event) :
    (∀ denom, obligations (run bank events).store denom ≤
      (run bank events).bank.balance maker.address denom) ∧
    ∀ (ctx : Ctx) (msg : Msg) (store : Store) (ops : List BankOp) (denom : Denom),
      msg.signer ≠ maker.address → msg.validateBasic = .ok () →
      msg.planned ctx (run bank events) = .ok (store, ops) →
        execOps (run bank events).bank ops ≠ .error (.insufficientFunds maker.address denom) := by
  have solvent := run_solvent bank signed
  refine ⟨solvent.covered, fun ctx msg store ops denom sender valid planned => ?_⟩
  exact execOps_ne_shortage (planned_covered planned valid solvent sender)

/-- A bank in which one account holds all of a coin. -/
def sampleBank : Bank where
  balance := fun account denom => if account = 1 ∧ denom = "ucoll" then 1000 else 0
  supply := fun denom => if denom = "ucoll" then 1000 else 0

/-- The default parameters, every price at one. -/
def sampleCtx (height : ℤ) : Ctx where
  blockHeight := height
  params := ⟨Dec.withPrec 25 4, Dec.withPrec 5 3, 600, Dec.withPrec 1 2, Dec.withPrec 1 2, Dec.withPrec 75 4,
    Dec.withPrec 10 2⟩
  exchangeRate := fun _ => some Dec.one

/-- Default risk parameters but for the fees: no mint fee, and interest of 100 percent a year. -/
def sampleCollateral : CollateralRiskParams :=
  ⟨"ucoll", true, none, none, none, none, none, none, none, some Dec.zero, some Dec.one⟩

/-- Register a collateral, deposit it, borrow against it, and be liquidated in part a year later. -/
def sampleEvents : List Event := [
  ⟨sampleCtx 1, .registerCollateral sampleCollateral⟩,
  ⟨sampleCtx 1, .msg (.depositCollateral ⟨1, none, ⟨"ucoll", 1000⟩, ⟨"airon", 0⟩⟩)⟩,
  ⟨sampleCtx 1, .msg (.mintByCollateral ⟨1, none, "ucoll", ⟨"uusm", 400⟩⟩)⟩,
  ⟨sampleCtx 5256001, .msg (.liquidateCollateral ⟨1, none, 1, ⟨"ucoll", 100⟩, ⟨"uusm", 400⟩⟩)⟩]

theorem sampleEvents_signed : ∀ event ∈ sampleEvents, Signed event := by
  simp [sampleEvents, Signed, Msg.signer, ModuleAccount.address]

theorem module_solvent_sample :
    obligations (run sampleBank sampleEvents).store "ucoll" = 900 ∧
      900 ≤ ((run sampleBank sampleEvents).bank.balance maker.address "ucoll" : ℤ) := by
  have owed : obligations (run sampleBank sampleEvents).store "ucoll" = 900 := by decide +kernel
  exact ⟨owed, owed ▸ (module_solvent sampleBank sampleEvents_signed).1 "ucoll"⟩

end Rotofury.Soundness.Maker
