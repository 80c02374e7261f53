import Rotofury.Soundness.Maker.Plans

/-! # What a delivered message does

A delivered message is one of two effects. A backing effect moves a pool and the backing total together,
and the module's holdings of the backing coin with the pool. A collateral effect moves an account's record,
its pool and the collateral total together, and the module's holdings of the collateral coin and of iron
with them. In both, supply follows what the records count as minted and burned; the one exception, interest
that a liquidation burns, is a number of its own.
-/

namespace Rotofury.Soundness.Maker

open Model.Sdk Model.App Model.Maker Except
open ModuleAccount (maker)

variable {ops : List BankOp} {ctx : Ctx} {state : State} {plan : Plan Coin}

/-- The module's change of one balance over a list of bank calls. -/
def holdingsChange (ops : List BankOp) (denom : Denom) : ℤ :=
  (ops.map (·.netChange maker.address denom)).sum

/-- The change of one supply over a list of bank calls. -/
def mintedChange (ops : List BankOp) (denom : Denom) : ℤ := (ops.map (·.supplyChange denom)).sum

section Calls

variable (op : BankOp) (ops more : List BankOp) (coins : List Coin) (d : Denom)

@[simp] theorem holdingsChange_nil : holdingsChange [] d = 0 := rfl
@[simp] theorem mintedChange_nil : mintedChange [] d = 0 := rfl

@[simp]
theorem holdingsChange_cons :
    holdingsChange (op :: ops) d = op.netChange maker.address d + holdingsChange ops d := by
  simp [holdingsChange]

@[simp]
theorem mintedChange_cons : mintedChange (op :: ops) d = op.supplyChange d + mintedChange ops d := by
  simp [mintedChange]

@[simp]
theorem holdingsChange_append : holdingsChange (ops ++ more) d = holdingsChange ops d + holdingsChange more d := by
  simp [holdingsChange]

@[simp]
theorem mintedChange_append : mintedChange (ops ++ more) d = mintedChange ops d + mintedChange more d := by
  simp [mintedChange]

theorem netChange_in {sender : Address} (outside : sender ≠ maker.address) :
    (BankOp.sendCoinsFromAccountToModule sender .maker coins).netChange maker.address d =
      amountOf coins d := by
  simp [BankOp.netChange, BankOp.credited, BankOp.debited, BankOp.coins, outside]

theorem netChange_out {recipient : Address} (outside : recipient ≠ maker.address) :
    (BankOp.sendCoinsFromModuleToAccount .maker recipient coins).netChange maker.address d =
      -amountOf coins d := by
  simp [BankOp.netChange, BankOp.credited, BankOp.debited, BankOp.coins, outside]

@[simp]
theorem netChange_oracle :
    (BankOp.sendCoinsFromModuleToModule .maker .oracle coins).netChange maker.address d =
      -amountOf coins d := by
  simp [BankOp.netChange, BankOp.credited, BankOp.debited, BankOp.coins, oracle_ne_maker]

@[simp]
theorem netChange_mint :
    (BankOp.mintCoins .maker coins).netChange maker.address d = amountOf coins d := by
  simp [BankOp.netChange, BankOp.credited, BankOp.debited, BankOp.coins]

@[simp]
theorem netChange_burn :
    (BankOp.burnCoins .maker coins).netChange maker.address d = -amountOf coins d := by
  simp [BankOp.netChange, BankOp.credited, BankOp.debited, BankOp.coins]

variable {op} {coin : Coin}

/-- A call skipped because its only coin is zero would not have changed anything. -/
theorem holdingsChange_whenPositive (only : op.coins = [coin]) (nonneg : 0 ≤ coin.amount) :
    holdingsChange (whenPositive coin op) d = op.netChange maker.address d := by
  unfold whenPositive
  split
  · simp
  · next zero =>
    have amount : coin.amount = 0 := by omega
    simp [BankOp.netChange, only, amount]

theorem mintedChange_whenPositive (only : op.coins = [coin]) (nonneg : 0 ≤ coin.amount) :
    mintedChange (whenPositive coin op) d = op.supplyChange d := by
  unfold whenPositive
  split
  · simp
  · next zero =>
    have amount : coin.amount = 0 := by omega
    cases op <;> simp_all [BankOp.supplyChange, BankOp.coins]

end Calls

/-- What the bank's acceptance of a list of calls tells about it: no coin was negative, and no payout
went to the module itself. -/
structure Accepted (ops : List BankOp) : Prop where
  nonneg : ∀ op ∈ ops, ∀ coin ∈ op.coins, 0 ≤ coin.amount
  outward : ∀ sender recipient coins, .sendCoinsFromModuleToAccount sender recipient coins ∈ ops →
    recipient ≠ maker.address

theorem accepted_of_execOps {bank next : Bank} (ok : execOps bank ops = .ok next) :
    Accepted ops := by
  refine ⟨(execOps_ok ok).2.2, fun sender recipient coins member => ?_⟩
  unfold execOps at ok
  induction ops generalizing bank with
  | nil => cases member
  | cons op rest ih =>
    rw [List.foldlM_cons, bind_ok_iff] at ok
    obtain ⟨middle, first, ok⟩ := ok
    rcases List.mem_cons.mp member with rfl | later
    · simp only [execOp, Bank.sendCoinsFromModuleToAccount, ok_iffs] at first
      obtain ⟨_, _, _, free, _⟩ := first
      exact ne_maker_of_not_blocked free
    · exact ih ok later

/-- The plan of a message on the backing side. -/
structure BackingEffect (store next : Store) (ops : List BankOp) (signer : Address) (denom : Denom)
    (delta : BackingDelta) : Prop where
  records : ∃ total pool, BackingBase store denom total pool ∧ next = shiftBacking store total pool delta ∧
    (0 ≤ delta.backing ∨ 0 ≤ pool.backing.amount + delta.backing)
  holdings : signer ≠ maker.address → ∀ d, holdingsChange ops d = onDenom denom delta.backing d
  supply : ∀ d, mintedChange ops d =
    onDenom microUSMDenom delta.gridMinted d - onDenom attoIronDenom delta.ironBurned d

/-- The plan of a message on the collateral side. -/
structure CollateralEffect (ctx : Ctx) (store next : Store) (ops : List BankOp) (signer account : Address)
    (denom : Denom) (delta : CollateralDelta) (burnedInterest : ℤ) : Prop where
  records : ∃ total pool record, CollateralBase ctx store account denom total pool record ∧
    next = shiftCollateral store account ctx.blockHeight total pool record delta ∧
    (0 ≤ delta.collateral ∨ 0 ≤ pool.collateral.amount + delta.collateral) ∧
    (0 ≤ delta.ironCollateralized ∨ 0 ≤ total.ironCollateralized.amount + delta.ironCollateralized)
  holdings : signer ≠ maker.address → ∀ d, holdingsChange ops d =
    onDenom denom delta.collateral d + onDenom attoIronDenom delta.ironCollateralized d
  supply : ∀ d, mintedChange ops d =
    onDenom microUSMDenom (delta.gridDebt - delta.lastInterest - burnedInterest) d

theorem mintBySwap_effect {msg : MsgMintBySwap} {plan : Plan MintBySwapResponse}
    (ok : mintBySwapPlan ctx state msg = .ok plan) (accepted : Accepted plan.ops) :
    ∃ delta, BackingEffect state.store plan.store plan.ops msg.sender msg.backingInMax.denom delta := by
  obtain ⟨total, pool, backingIn, ironIn, mintOut, mintFee, base, feeNonneg, stored, ops⟩ :=
    mintBySwapPlan_ok ok
  have taken := accepted.nonneg _ (ops ▸ List.mem_append_left _ (List.mem_append_left _
    (List.mem_append_left _ (List.mem_singleton_self _))))
  have receiver := accepted.outward .maker (msg.receiver.getD msg.sender) [⟨microUSMDenom, mintOut⟩]
    (by rw [ops]; simp)
  simp only [BankOp.coins, List.forall_mem_cons] at taken
  refine ⟨⟨mintOut + mintFee, backingIn, ironIn⟩, ⟨total, pool, base, stored, .inl taken.1⟩, fun signed d => ?_,
    fun d => ?_⟩
  · rw [ops, holdingsChange_append, holdingsChange_append, holdingsChange_append,
      holdingsChange_whenPositive d rfl taken.2.1, holdingsChange_whenPositive d rfl feeNonneg]
    simp only [holdingsChange_cons, holdingsChange_nil, netChange_in _ _ signed, netChange_out _ _ receiver,
      netChange_mint, netChange_burn, netChange_oracle, coin_amounts]
    ring
  · rw [ops, mintedChange_append, mintedChange_append, mintedChange_append,
      mintedChange_whenPositive d rfl taken.2.1, mintedChange_whenPositive d rfl feeNonneg]
    simp only [mintedChange_cons, mintedChange_nil, BankOp.supplyChange, coin_amounts]
    ring

theorem burnBySwap_effect {msg : MsgBurnBySwap} {plan : Plan BurnBySwapResponse}
    (ok : burnBySwapPlan ctx state msg = .ok plan) (valid : msg.validateBasic = .ok ()) (accepted : Accepted plan.ops) :
    ∃ delta, BackingEffect state.store plan.store plan.ops msg.sender msg.backingOutMin.denom delta := by
  obtain ⟨total, pool, backingOut, ironOut, burnActual, burnFee, base, enough, _, stored, ops⟩ :=
    burnBySwapPlan_ok ok valid
  have receiver := accepted.outward .maker (msg.receiver.getD msg.sender)
    [⟨msg.backingOutMin.denom, backingOut⟩, ⟨attoIronDenom, ironOut⟩] (by rw [ops]; simp)
  refine ⟨⟨-burnActual, -backingOut, -ironOut⟩, ⟨total, pool, base, stored, .inr (by dsimp only; omega)⟩, fun signed d => ?_,
    fun d => ?_⟩
  · rw [ops]
    simp only [holdingsChange_cons, holdingsChange_nil, netChange_in _ _ signed, netChange_out _ _ receiver,
      netChange_mint, netChange_burn, netChange_oracle, coin_amounts]
    ring
  · rw [ops]
    simp only [mintedChange_cons, mintedChange_nil, BankOp.supplyChange, coin_amounts]
    ring

theorem buyBacking_effect {msg : MsgBuyBacking} {plan : Plan BuyBackingResponse}
    (ok : buyBackingPlan ctx state msg = .ok plan) (valid : msg.validateBasic = .ok ()) (accepted : Accepted plan.ops) :
    ∃ delta, BackingEffect state.store plan.store plan.ops msg.sender msg.backingOutMin.denom delta := by
  obtain ⟨total, pool, ironIn, backingOut, buybackFee, base, enough, _, stored, ops⟩ :=
    buyBackingPlan_ok ok valid
  have receiver := accepted.outward .maker (msg.receiver.getD msg.sender)
    [⟨msg.backingOutMin.denom, backingOut⟩] (by rw [ops]; simp)
  refine ⟨⟨0, -(backingOut + buybackFee), ironIn⟩, ⟨total, pool, base, stored, .inr (by dsimp only; omega)⟩, fun signed d => ?_,
    fun d => ?_⟩
  · rw [ops]
    simp only [holdingsChange_cons, holdingsChange_nil, netChange_in _ _ signed, netChange_out _ _ receiver,
      netChange_burn, netChange_oracle, coin_amounts]
    ring
  · rw [ops]
    simp only [mintedChange_cons, mintedChange_nil, BankOp.supplyChange, coin_amounts, onDenom_zero]
    ring

theorem sellBacking_effect {msg : MsgSellBacking} {plan : Plan SellBackingResponse}
    (ok : sellBackingPlan ctx state msg = .ok plan) (accepted : Accepted plan.ops) :
    ∃ delta, BackingEffect state.store plan.store plan.ops msg.sender msg.backingIn.denom delta := by
  obtain ⟨total, pool, ironOut, rebackFee, base, _, stored, ops⟩ := sellBackingPlan_ok ok
  have taken := accepted.nonneg (.sendCoinsFromAccountToModule msg.sender .maker [msg.backingIn])
    (by rw [ops]; simp) msg.backingIn (List.mem_singleton_self _)
  have receiver := accepted.outward .maker (msg.receiver.getD msg.sender) [⟨attoIronDenom, ironOut⟩]
    (by rw [ops]; simp)
  refine ⟨⟨0, msg.backingIn.amount, -(ironOut + rebackFee)⟩, ⟨total, pool, base, stored, .inl taken⟩, fun signed d => ?_,
    fun d => ?_⟩
  · rw [ops]
    simp only [holdingsChange_cons, holdingsChange_nil, netChange_in _ _ signed, netChange_out _ _ receiver,
      netChange_mint, netChange_oracle, coin_amounts]
    ring
  · rw [ops]
    simp only [mintedChange_cons, mintedChange_nil, BankOp.supplyChange, coin_amounts, onDenom_zero]
    ring

theorem mintByCollateral_effect {msg : MsgMintByCollateral} (ok : mintByCollateralPlan ctx state msg = .ok plan)
    (valid : msg.validateBasic = .ok ()) (accepted : Accepted plan.ops) :
    ∃ delta, CollateralEffect ctx state.store plan.store plan.ops msg.sender msg.sender msg.collateralDenom delta 0 := by
  obtain ⟨total, pool, record, interest, mintFee, planned, feeNonneg, ops⟩ :=
    mintByCollateralPlan_ok ok valid
  have receiver := accepted.outward .maker (msg.receiver.getD msg.sender) [⟨microUSMDenom, msg.mintOut.amount⟩]
    (by rw [ops]; simp)
  refine ⟨_, ⟨total, pool, record, planned.base, planned.shifted, .inl le_rfl, .inl le_rfl⟩, fun signed d => ?_,
    fun d => ?_⟩
  · rw [ops, holdingsChange_append, holdingsChange_whenPositive d rfl feeNonneg]
    simp only [holdingsChange_cons, holdingsChange_nil, netChange_out _ _ receiver, netChange_mint,
      netChange_oracle, coin_amounts, onDenom_zero]
    ring
  · rw [ops, mintedChange_append, mintedChange_whenPositive d rfl feeNonneg]
    simp only [mintedChange_cons, mintedChange_nil, BankOp.supplyChange, amountOf_cons, amountOf_nil, add_zero]
    congr 1
    ring

theorem burnByCollateral_effect {msg : MsgBurnByCollateral} (ok : burnByCollateralPlan ctx state msg = .ok plan)
    (valid : msg.validateBasic = .ok ()) :
    ∃ delta, CollateralEffect ctx state.store plan.store plan.ops msg.sender msg.sender msg.collateralDenom delta 0 := by
  obtain ⟨total, pool, record, interest, repayIn, repayInterest, planned, interestNonneg, atMost, ops⟩ :=
    burnByCollateralPlan_ok ok valid
  have burnNonneg : 0 ≤ repayIn - repayInterest := by omega
  refine ⟨_, ⟨total, pool, record, planned.base, planned.shifted, .inl le_rfl, .inl le_rfl⟩, fun signed d => ?_,
    fun d => ?_⟩
  · rw [ops, holdingsChange_append, holdingsChange_append, holdingsChange_whenPositive d rfl burnNonneg,
      holdingsChange_whenPositive d rfl interestNonneg]
    simp only [holdingsChange_cons, holdingsChange_nil, netChange_in _ _ signed, netChange_burn,
      netChange_oracle, coin_amounts, onDenom_zero]
    ring
  · rw [ops, mintedChange_append, mintedChange_append, mintedChange_whenPositive d rfl burnNonneg,
      mintedChange_whenPositive d rfl interestNonneg]
    simp only [mintedChange_cons, mintedChange_nil, BankOp.supplyChange, amountOf_cons, amountOf_nil, add_zero,
      zero_add, ← onDenom_neg]
    congr 1
    ring

theorem depositCollateral_effect {msg : MsgDepositCollateral} {plan : Plan Unit}
    (ok : depositCollateralPlan ctx state msg = .ok plan) (valid : msg.validateBasic = .ok ()) :
    ∃ delta, CollateralEffect ctx state.store plan.store plan.ops msg.sender (msg.receiver.getD msg.sender)
      msg.collateralIn.denom delta 0 := by
  obtain ⟨total, pool, record, interest, planned, collateralNonneg, ironNonneg, ops⟩ :=
    depositCollateralPlan_ok ok valid
  refine ⟨_, ⟨total, pool, record, planned.base, planned.shifted, .inl collateralNonneg, .inl ironNonneg⟩,
    fun signed d => ?_, fun d => ?_⟩
  · rw [ops]
    simp only [holdingsChange_cons, holdingsChange_nil, netChange_in _ _ signed, coin_amounts]
    ring
  · rw [ops]
    simp [BankOp.supplyChange]

theorem redeemCollateral_effect {msg : MsgRedeemCollateral} {plan : Plan Unit}
    (ok : redeemCollateralPlan ctx state msg = .ok plan) (valid : msg.validateBasic = .ok ())
    (accepted : Accepted plan.ops) :
    ∃ delta, CollateralEffect ctx state.store plan.store plan.ops msg.sender msg.sender msg.collateralOut.denom delta 0 := by
  obtain ⟨total, pool, record, interest, planned, poolEnough, totalEnough, ops⟩ :=
    redeemCollateralPlan_ok ok valid
  have receiver := accepted.outward .maker (msg.receiver.getD msg.sender)
    [msg.collateralOut, ⟨attoIronDenom, msg.ironOut.amount⟩] (by rw [ops]; simp)
  refine ⟨_, ⟨total, pool, record, planned.base, planned.shifted, .inr (by dsimp only; omega),
    .inr (by dsimp only; omega)⟩, fun signed d => ?_, fun d => ?_⟩
  · rw [ops]
    simp only [holdingsChange_cons, holdingsChange_nil, netChange_out _ _ receiver, coin_amounts]
    ring
  · rw [ops]
    simp [BankOp.supplyChange]

/-- A liquidation also burns the interest it repays, which no record counts as minted. -/
theorem liquidateCollateral_effect {msg : MsgLiquidateCollateral} {plan : Plan LiquidateCollateralResponse}
    (ok : liquidateCollateralPlan ctx state msg = .ok plan) (accepted : Accepted plan.ops) :
    ∃ delta record repayIn repayDebt repayInterest,
      LiquidationQuote ctx state.store msg record repayIn repayDebt repayInterest ∧
      CollateralEffect ctx state.store plan.store plan.ops msg.sender msg.debtor msg.collateral.denom delta
        repayInterest := by
  obtain ⟨total, pool, record, interest, repayDebt, repayInterest, gridRefund, commissionFee, planned, quote,
    poolEnough, refundNonneg, _, ops⟩ := liquidateCollateralPlan_ok ok
  have receiver := accepted.outward .maker (msg.receiver.getD msg.sender)
    [⟨msg.collateral.denom, msg.collateral.amount - commissionFee⟩] (by rw [ops]; simp)
  refine ⟨_, _, _, _, _, quote, ⟨total, pool, record, planned.base, planned.shifted, .inr (by dsimp only; omega),
    .inl le_rfl⟩, fun signed d => ?_, fun d => ?_⟩
  · have refunded : holdingsChange (whenPositive ⟨microUSMDenom, gridRefund⟩
        (.sendCoinsFromModuleToAccount .maker msg.debtor [⟨microUSMDenom, gridRefund⟩])) d =
        -onDenom microUSMDenom gridRefund d := by
      by_cases positive : 0 < gridRefund
      · have debtor := accepted.outward .maker msg.debtor [⟨microUSMDenom, gridRefund⟩]
          (by rw [ops]; simp [whenPositive, positive])
        simp [whenPositive, positive, netChange_out _ _ debtor]
      · have zero : gridRefund = 0 := by omega
        simp [whenPositive, zero]
    rw [ops, holdingsChange_append, holdingsChange_append, refunded]
    simp only [holdingsChange_cons, holdingsChange_nil, netChange_in _ _ signed, netChange_out _ _ receiver,
      netChange_burn, netChange_oracle, coin_amounts,
      onDenom_zero]
    ring
  · rw [ops, mintedChange_append, mintedChange_append, mintedChange_whenPositive d rfl refundNonneg]
    simp only [mintedChange_cons, mintedChange_nil, BankOp.supplyChange, amountOf_cons, amountOf_nil, add_zero,
      zero_add, ← onDenom_neg]
    congr 1
    ring

/-- The interest a message burns: a liquidation what it repays of it, any other message none. -/
def BurnsInterest (ctx : Ctx) (store : Store) : Msg → ℤ → Prop
  | .liquidateCollateral msg, burned => ∃ record repayIn repayDebt,
      LiquidationQuote ctx store msg record repayIn repayDebt burned
  | _, burned => burned = 0

/-- Every planned message is a backing effect or a collateral effect. -/
theorem planned_effect {msg : Msg} {store : Store} (planned : msg.planned ctx state = .ok (store, ops))
    (valid : msg.validateBasic = .ok ()) (accepted : Accepted ops) :
    (∃ denom delta, BackingEffect state.store store ops msg.signer denom delta ∧
        BurnsInterest ctx state.store msg 0) ∨
      ∃ account denom delta burned,
        CollateralEffect ctx state.store store ops msg.signer account denom delta burned ∧
        BurnsInterest ctx state.store msg burned := by
  cases msg <;> obtain ⟨plan, ok, rfl, rfl⟩ := by simpa [Msg.planned] using planned
  case mintBySwap =>
    obtain ⟨delta, effect⟩ := mintBySwap_effect ok accepted
    exact .inl ⟨_, delta, effect, rfl⟩
  case burnBySwap =>
    obtain ⟨delta, effect⟩ := burnBySwap_effect ok valid accepted
    exact .inl ⟨_, delta, effect, rfl⟩
  case buyBacking =>
    obtain ⟨delta, effect⟩ := buyBacking_effect ok valid accepted
    exact .inl ⟨_, delta, effect, rfl⟩
  case sellBacking =>
    obtain ⟨delta, effect⟩ := sellBacking_effect ok accepted
    exact .inl ⟨_, delta, effect, rfl⟩
  case mintByCollateral =>
    obtain ⟨delta, effect⟩ := mintByCollateral_effect ok valid accepted
    exact .inr ⟨_, _, delta, 0, effect, rfl⟩
  case burnByCollateral =>
    obtain ⟨delta, effect⟩ := burnByCollateral_effect ok valid
    exact .inr ⟨_, _, delta, 0, effect, rfl⟩
  case depositCollateral =>
    obtain ⟨delta, effect⟩ := depositCollateral_effect ok valid
    exact .inr ⟨_, _, delta, 0, effect, rfl⟩
  case redeemCollateral =>
    obtain ⟨delta, effect⟩ := redeemCollateral_effect ok valid accepted
    exact .inr ⟨_, _, delta, 0, effect, rfl⟩
  case liquidateCollateral =>
    obtain ⟨delta, record, repayIn, repayDebt, repayInterest, quote, effect⟩ :=
      liquidateCollateral_effect ok accepted
    exact .inr ⟨_, _, delta, repayInterest, effect, record, repayIn, repayDebt, quote⟩

/-! ## The steps of a maker run

One inversion lemma says everything a successful event can do: a backing effect, a collateral effect, a
registration, or a change of ratio or parameters that leaves every record alone.
-/

/-- Two stores with the same records and the same registered denominations. -/
structure SameRecords (store next : Store) : Prop where
  totalBacking : next.totalBacking = store.totalBacking
  poolBacking : next.poolBacking = store.poolBacking
  totalCollateral : next.totalCollateral = store.totalCollateral
  poolCollateral : next.poolCollateral = store.poolCollateral
  accountCollateral : next.accountCollateral = store.accountCollateral
  backingParams : ∀ denom, (next.backingParams.lookup denom).isSome = (store.backingParams.lookup denom).isSome
  collateralParams : ∀ denom,
    (next.collateralParams.lookup denom).isSome = (store.collateralParams.lookup denom).isSome

/-- The store after a backing coin is registered. -/
def registeredBacking (store : Store) (params : BackingRiskParams) : Store :=
  ((store.setBackingRiskParams params).setTotalBacking (store.totalBacking.getD zeroTotalBacking)).setPoolBacking
    (zeroPoolBacking params.backingDenom)

/-- The store after a collateral coin is registered. -/
def registeredCollateral (store : Store) (params : CollateralRiskParams) : Store :=
  ((store.setCollateralRiskParams params).setTotalCollateral
    (store.totalCollateral.getD zeroTotalCollateral)).setPoolCollateral (zeroPoolCollateral params.collateralDenom)

/-- What a successful event did. -/
inductive StepChange (event : Event) (state next : State) : Prop
  | backing {msg : Msg} {ops : List BankOp} {denom : Denom} {delta : BackingDelta}
      (action : event.action = .msg msg) (executed : execOps state.bank ops = .ok next.bank)
      (effect : BackingEffect state.store next.store ops msg.signer denom delta)
      (burning : BurnsInterest event.ctx state.store msg 0)
  | collateral {msg : Msg} {ops : List BankOp} {account : Address} {denom : Denom} {delta : CollateralDelta}
      {burned : ℤ} (action : event.action = .msg msg) (executed : execOps state.bank ops = .ok next.bank)
      (effect : CollateralEffect event.ctx state.store next.store ops msg.signer account denom delta burned)
      (burning : BurnsInterest event.ctx state.store msg burned)
  | registerBacking (params : BackingRiskParams) (action : ∀ msg, event.action ≠ .msg msg)
      (unregistered : state.store.backingParams.lookup params.backingDenom = none) (bank : next.bank = state.bank)
      (stored : next.store = registeredBacking state.store params)
  | registerCollateral (params : CollateralRiskParams) (action : ∀ msg, event.action ≠ .msg msg)
      (unregistered : state.store.collateralParams.lookup params.collateralDenom = none)
      (bank : next.bank = state.bank) (stored : next.store = registeredCollateral state.store params)
  | tune (action : ∀ msg, event.action ≠ .msg msg) (bank : next.bank = state.bank) (records : SameRecords state.store next.store)

private theorem isSome_insert {β : Type} (records : AList fun _ : Denom => β) {key : Denom} (value : β)
    (present : (records.lookup key).isSome = true) (denom : Denom) :
    ((records.insert key value).lookup denom).isSome = (records.lookup denom).isSome := by
  rw [AList.lookup_insert_eq_ite]
  split
  · next same => subst same; exact present.symm
  · rfl

theorem step_cases {state next : State} {event : Event} (ok : step state event = .ok next) :
    StepChange event state next := by
  unfold step at ok
  split at ok
  · next msg action =>
    obtain ⟨valid, ops, planned, executed⟩ := Msg.deliver_ok ok
    rcases planned_effect planned valid (accepted_of_execOps executed) with
      ⟨denom, delta, effect, burning⟩ | ⟨account, denom, delta, burned, effect, burning⟩
    · exact .backing action executed effect burning
    · exact .collateral action executed effect burning
  · next params action =>
    simp only [handleRegisterBackingProposal, ok_iffs, Option.isNone_iff_eq_none] at ok
    obtain ⟨_, _, _, unregistered, _, _, _, _, rfl⟩ := ok
    exact .registerBacking params.withDefaults (by simp [action]) unregistered rfl rfl
  · next params action =>
    simp only [handleRegisterCollateralProposal, ok_iffs, Option.isNone_iff_eq_none] at ok
    obtain ⟨_, _, _, unregistered, _, _, _, _, rfl⟩ := ok
    exact .registerCollateral params.withDefaults (by simp [action]) unregistered rfl rfl
  · next ratio action =>
    simp only [pure_ok_iff] at ok
    subst ok
    exact .tune (by simp [action]) rfl ⟨rfl, rfl, rfl, rfl, rfl, fun _ => rfl, fun _ => rfl⟩
  · next params action =>
    simp only [ok_iffs] at ok
    obtain ⟨_, present, rfl⟩ := ok
    exact .tune (by simp [action]) rfl ⟨rfl, rfl, rfl, rfl, rfl, isSome_insert _ params present, fun _ => rfl⟩
  · next params action =>
    simp only [ok_iffs] at ok
    obtain ⟨_, present, rfl⟩ := ok
    exact .tune (by simp [action]) rfl ⟨rfl, rfl, rfl, rfl, rfl, fun _ => rfl, isSome_insert _ params present⟩

end Rotofury.Soundness.Maker
