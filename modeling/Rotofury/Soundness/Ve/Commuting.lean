import Rotofury.Soundness.Ve.Runs

/-! # Slashes of different ves commute

A slash regulates the system checkpoint, moves the slope change due at the end of the lock and records the user's
checkpoint. Since only an increase of a user's power is added to the system checkpoint, a slash regulates it as the end of
a block does; and the regulation reads slope changes up to now while slashes change those due later. So the system
checkpoints that two slashes append do not depend on which of the two is first.
-/

namespace Rotofury.Soundness.Ve

open Model.Sdk Model.App Model.Ve Except Function

variable {now veId : ℕ} {store : Store} {next : History} {slopeChange biasChange : ℤ}

/-- No lock ends so late that the time left does not fit a signed 64-bit integer. -/
def EndsSoon (now : ℕ) (locks : ℕ → LockedBalance) : Prop := ∀ veId, (locks veId).endTime < now + 2 ^ 63

/-- All locks that the module makes end soon. -/
theorem Sound.endsSoon (sound : Sound now store) : EndsSoon now store.lockedAmountByUser := by
  intro veId
  have longest : maxLockTime < 2 ^ 62 := by decide
  by_cases member : veId ∈ veIds store
  · have := sound.tracks.bounded veId member
    omega
  · have none : (store.lockedAmountByUser veId).endTime = 0 := congrArg Math.Line.stop (sound.fresh veId member).1
    omega

/-! ## The system checkpoint apart from the rest -/

/-- The history with the system checkpoints of another. -/
def withSystem (history system : History) : History :=
  { history with epoch := system.epoch, checkpoint := system.checkpoint }

/-- The slope changes up to now are the same. -/
def SamePast (now : ℕ) (first second : History) : Prop := ∀ t ≤ now, first.slopeChange t = second.slopeChange t

section Regulation

variable {ctx : Ctx} {rest history : History}

theorem regulateRounds_withSystem (past : SamePast ctx.blockTime rest history) (initial : Checkpoint) (slope : Dec)
    (rounds epoch ti : ℕ) (point : Checkpoint) :
    regulateRounds ctx initial slope rounds (withSystem rest history) epoch ti point =
      (fun result => (withSystem rest result.1, result.2)) <$>
        regulateRounds ctx initial slope rounds history epoch ti point := by
  induction rounds generalizing history epoch ti point with
  | zero => rfl
  | succ rounds ih =>
    have change : ∀ next, (if ctx.blockTime < next then 0 else (withSystem rest history).slopeChange next) =
        if ctx.blockTime < next then 0 else history.slopeChange next := by
      intro next
      split
      · rfl
      · next passed => exact past _ (not_lt.mp passed)
    simp only [regulateRounds, change, map_bind]
    refine bind_congr fun next => ?_
    generalize (if ctx.blockTime < next then ctx.blockTime else next) = reached
    refine bind_congr fun elapsed => ?_
    split
    · rfl
    · exact @ih (history.setCheckpoint _ _) past _ _ _

/-- The regulation acts on the system checkpoints alone. -/
theorem regulateCheckpoint_withSystem (past : SamePast ctx.blockTime rest history) (slopeChange biasChange : ℤ) :
    regulateCheckpoint ctx (withSystem rest history) slopeChange biasChange =
      withSystem rest <$> regulateCheckpoint ctx history slopeChange biasChange := by
  have start : (withSystem rest history).regulationStart ctx = history.regulationStart ctx := rfl
  simp only [regulateCheckpoint, start, regulateRounds_withSystem past, map_bind, bind_map_left]
  rfl

theorem regulateCheckpoint_rest (ok : regulateCheckpoint ctx history slopeChange biasChange = .ok next) :
    next = withSystem history next := by
  have same := @regulateCheckpoint_withSystem ctx history history (fun _ _ => rfl) slopeChange biasChange
  rw [show withSystem history history = history from rfl, ok] at same
  exact Except.ok.inj same

end Regulation

/-! ## What a slash records -/

/-- The slope change that a lock leaves behind at its end, where its amount has changed. -/
def movedSlope (ctx : Ctx) (lockedOld lockedNew : LockedBalance) (t : ℕ) : ℤ :=
  if ctx.blockTime < lockedOld.endTime ∧ t = lockedOld.endTime then
    (userPoint ctx lockedOld).slope - (userPoint ctx lockedNew).slope
  else 0

/-- The history with the slope change moved and the checkpoint of the user. -/
def mark (ctx : Ctx) (veId : ℕ) (lockedOld lockedNew : LockedBalance) (history : History) : History :=
  { history with slopeChange := fun t => history.slopeChange t + movedSlope ctx lockedOld lockedNew t }.pushUserCheckpoint
    veId (userPoint ctx lockedNew)

section Marks

variable {ctx : Ctx} {lockedOld lockedNew : LockedBalance}

theorem scheduleSlopeChanges_sameEnd (sameEnd : lockedNew.endTime = lockedOld.endTime) (history : History) :
    history.scheduleSlopeChanges ctx lockedOld lockedNew (userPoint ctx lockedOld).slope (userPoint ctx lockedNew).slope =
      { history with slopeChange := fun t => history.slopeChange t + movedSlope ctx lockedOld lockedNew t } := by
  have second : ¬ (ctx.blockTime < lockedNew.endTime ∧ lockedOld.endTime < lockedNew.endTime) := by omega
  simp only [History.scheduleSlopeChanges, if_neg second, if_pos sameEnd, History.setSlopeChange]
  split
  · next running =>
    congr 1
    funext t
    simp only [update_apply, movedSlope, running, true_and]
    split
    · next same =>
      rw [same]
      ring
    · ring
  · next ended => simp [movedSlope, ended]

theorem mark_samePast (veId : ℕ) (history : History) :
    SamePast ctx.blockTime (mark ctx veId lockedOld lockedNew history) history := by
  intro t past
  change history.slopeChange t + movedSlope ctx lockedOld lockedNew t = history.slopeChange t
  rw [movedSlope, if_neg (by omega), add_zero]

/-- Marks of different ves commute, also where they end at the same time. -/
theorem mark_comm {other : ℕ} (different : veId ≠ other) {otherOld otherNew : LockedBalance} (history : History) :
    mark ctx veId lockedOld lockedNew (mark ctx other otherOld otherNew history) =
      mark ctx other otherOld otherNew (mark ctx veId lockedOld lockedNew history) := by
  simp only [mark, History.pushUserCheckpoint, History.setUserCheckpoint, update_of_ne different,
    update_of_ne different.symm, update_comm different, add_right_comm]

end Marks

section Slashes

variable {ctx : Ctx} {locked : LockedBalance} {amount : ℤ}

/-- The lock of which an amount is slashed. -/
def reduced (locked : LockedBalance) (amount : ℤ) : LockedBalance := { locked with amount := locked.amount - amount }

theorem userPoint_bias (ctx : Ctx) (locked : LockedBalance) : (userPoint ctx locked).bias =
    (userPoint ctx locked).slope * toInt64 (subUint64 locked.endTime ctx.blockTime) := by
  unfold userPoint
  split
  · rfl
  · exact (zero_mul _).symm

theorem userPoint_slope (ctx : Ctx) (locked : LockedBalance) : (userPoint ctx locked).slope =
    if ctx.blockTime < locked.endTime ∧ 0 < locked.amount then locked.amount.tdiv maxLockTime else 0 := by
  unfold userPoint
  split <;> rfl

theorem userPoint_slope_reduced (ctx : Ctx) (locked : LockedBalance) (nonneg : 0 ≤ amount) :
    (userPoint ctx (reduced locked amount)).slope ≤ (userPoint ctx locked).slope := by
  have seconds : (0 : ℤ) < maxLockTime := by decide
  rw [userPoint_slope, userPoint_slope]
  have less : (reduced locked amount).amount ≤ locked.amount := sub_le_self _ nonneg
  by_cases left : ctx.blockTime < (reduced locked amount).endTime ∧ 0 < (reduced locked amount).amount
  · rw [if_pos left, if_pos ⟨left.1, by omega⟩]
    exact Int.tdiv_le_tdiv seconds less
  · rw [if_neg left]
    by_cases whole : ctx.blockTime < locked.endTime ∧ 0 < locked.amount
    · rw [if_pos whole]
      exact Int.tdiv_nonneg whole.2.le seconds.le
    · rw [if_neg whole]

theorem userPoint_bias_reduced (nonneg : 0 ≤ amount) (soon : locked.endTime < ctx.blockTime + 2 ^ 63) :
    (userPoint ctx (reduced locked amount)).bias ≤ (userPoint ctx locked).bias := by
  rw [userPoint_bias, userPoint_bias]
  by_cases running : ctx.blockTime < locked.endTime
  · have left : toInt64 (subUint64 locked.endTime ctx.blockTime) = (locked.endTime - ctx.blockTime : ℕ) := by
      have := ctx.time_lt
      exact toInt64_subUint64 running.le (by omega) (by omega)
    change _ * toInt64 (subUint64 locked.endTime ctx.blockTime) ≤ _
    rw [left]
    exact mul_le_mul_of_nonneg_right (userPoint_slope_reduced ctx locked nonneg) (Int.natCast_nonneg _)
  · rw [userPoint_slope, userPoint_slope, if_neg (fun both => running both.1), if_neg (fun both => running both.1),
      zero_mul, zero_mul]

/-- A slash regulates the system checkpoint as if nothing had changed. -/
theorem regulateCheckpoint_decrease (slope : slopeChange ≤ 0) (bias : biasChange ≤ 0) (history : History) :
    regulateCheckpoint ctx history slopeChange biasChange = regulateCheckpoint ctx history 0 0 := by
  have same : ∀ point : Checkpoint, point.addUserChange slopeChange biasChange = point.addUserChange 0 0 := by
    intro point
    simp only [Checkpoint.addUserChange, if_neg (not_lt.mpr slope), if_neg (not_lt.mpr bias), lt_irrefl, if_false]
  simp only [regulateCheckpoint, same]

theorem regulateUserCheckpoint_reduced (nonneg : 0 ≤ amount) (soon : locked.endTime < ctx.blockTime + 2 ^ 63)
    {history : History} :
    regulateUserCheckpoint ctx history veId locked (reduced locked amount) = .ok next ↔
      regulatedPeriod ∣ locked.endTime ∧ ∃ system, regulateCheckpoint ctx history 0 0 = .ok system ∧
        next = withSystem (mark ctx veId locked (reduced locked amount) history) system := by
  have slope := userPoint_slope_reduced ctx locked nonneg
  have bias := userPoint_bias_reduced nonneg soon
  have sameEnd : (reduced locked amount).endTime = locked.endTime := rfl
  simp only [regulateUserCheckpoint, sameEnd, checkRegulatedUnixTime,
    regulateCheckpoint_decrease (sub_nonpos.mpr slope) (sub_nonpos.mpr bias), scheduleSlopeChanges_sameEnd sameEnd,
    ok_iffs, regulatedUnixTime_eq_iff, exists_const, ← and_assoc, and_self]
  refine and_congr_right fun _ => exists_congr fun system => and_congr_right fun regulated => ?_
  -- the regulation has left everything but the system checkpoints as it was
  rw [regulateCheckpoint_rest regulated]
  exact eq_comm

end Slashes

/-! ## Burning -/

/-- The bank with an amount less on one account and in the supply. -/
def burnt (bank : Bank) (account : Address) (denom : Denom) (amount : ℤ) : Bank :=
  (bank.setBalance account denom (bank.balance account denom - amount).toNat).setSupply denom
    (bank.supply denom - amount).toNat

section Burning

variable {bank next : Bank} {module : ModuleAccount} {denom : Denom} {amount more : ℤ}

theorem burnCoins_ok_iff (positive : 0 < amount) : execOp bank (.burnCoins module [⟨denom, amount⟩]) = .ok next ↔
    module.canBurn = true ∧ amount ≤ bank.balance module.address denom ∧ amount ≤ bank.supply denom ∧
      next = burnt bank module.address denom amount := by
  have coins : newCoins [⟨denom, amount⟩] = .ok [⟨denom, amount⟩] := by
    have some : amount ≠ 0 := positive.ne'
    simp [newCoins, sanitizeCoins, some, validCoins, positive]
  have valid : validCoins [⟨denom, amount⟩] := by simp [validCoins, positive]
  simp only [execOp, coins, ok_bind, Bank.burnCoins, Bank.subUnlockedCoins, Bank.subCoin, Bank.shrinkSupply,
    List.foldlM_cons, List.foldlM_nil, bind_pure, ok_iffs, exists_const]
  constructor
  · rintro ⟨allowed, _, ⟨_, enough, rfl⟩, covered, rfl⟩
    exact ⟨allowed, enough, covered, rfl⟩
  · rintro ⟨allowed, enough, covered, rfl⟩
    exact ⟨allowed, _, ⟨valid, enough, rfl⟩, covered, rfl⟩

theorem burnt_balance (account : Address) : (burnt bank account denom amount).balance account denom =
    (bank.balance account denom - amount).toNat := by
  simp [burnt, Bank.setBalance, Bank.setSupply]

theorem burnt_supply (account : Address) : (burnt bank account denom amount).supply denom =
    (bank.supply denom - amount).toNat := by
  simp [burnt, Bank.setSupply]

theorem burnt_burnt (account : Address) (enough : amount ≤ bank.balance account denom)
    (covered : amount ≤ bank.supply denom) :
    burnt (burnt bank account denom amount) account denom more = burnt bank account denom (amount + more) := by
  have balance : ((bank.balance account denom - amount).toNat - more : ℤ).toNat =
      (bank.balance account denom - (amount + more)).toNat := by omega
  have supply : ((bank.supply denom - amount).toNat - more : ℤ).toNat = (bank.supply denom - (amount + more)).toNat := by
    omega
  rw [burnt, burnt_balance, burnt_supply, balance, supply, burnt]
  simp only [burnt, Bank.setBalance, Bank.setSupply, Bank.mk.injEq]
  constructor
  · funext query other
    split <;> rfl
  · funext other
    split <;> rfl

/-- Two amounts are burned in either order. -/
theorem burnCoins_swap {middle : Bank} (positive : 0 < amount) (morePositive : 0 < more)
    (first : execOp bank (.burnCoins module [⟨denom, amount⟩]) = .ok middle)
    (second : execOp middle (.burnCoins module [⟨denom, more⟩]) = .ok next) :
    ∃ other, execOp bank (.burnCoins module [⟨denom, more⟩]) = .ok other ∧
      execOp other (.burnCoins module [⟨denom, amount⟩]) = .ok next := by
  obtain ⟨allowed, enough, covered, rfl⟩ := (burnCoins_ok_iff positive).mp first
  obtain ⟨_, moreEnough, moreCovered, rfl⟩ := (burnCoins_ok_iff morePositive).mp second
  rw [burnt_balance] at moreEnough
  rw [burnt_supply] at moreCovered
  refine ⟨_, (burnCoins_ok_iff morePositive).mpr ⟨allowed, by omega, by omega, rfl⟩,
    (burnCoins_ok_iff positive).mpr ⟨allowed, ?_, ?_, ?_⟩⟩
  · rw [burnt_balance]
    omega
  · rw [burnt_supply]
    omega
  · rw [burnt_burnt _ enough covered, burnt_burnt _ (by omega) (by omega), add_comm]

end Burning

/-! ## Two slashes -/

/-- The store after a slash, but for the system checkpoints. -/
def slashed (ctx : Ctx) (store : Store) (veId : ℕ) (amount : ℤ) : Store :=
  { store with
    totalLockedAmount := store.totalLockedAmount - amount
    lockedAmountByUser := update store.lockedAmountByUser veId (reduced (store.lockedAmountByUser veId) amount)
    history := mark ctx veId (store.lockedAmountByUser veId) (reduced (store.lockedAmountByUser veId) amount) store.history }

section Swap

variable {ctx : Ctx} {state next : State} {veId other : ℕ} {amount more : ℤ}

/-- The store with other system checkpoints. -/
def setSystem (store : Store) (system : History) : Store := { store with history := withSystem store.history system }

theorem slashLockedAmountByUser_ok_iff (positive : 0 < amount)
    (soon : EndsSoon ctx.blockTime state.store.lockedAmountByUser) :
    slashLockedAmountByUser ctx state veId amount = .ok next ↔
      execOp state.bank (.burnCoins .ve [⟨ctx.lockDenom, amount⟩]) = .ok next.bank ∧
      regulatedPeriod ∣ (state.store.lockedAmountByUser veId).endTime ∧
      ∃ system, regulateCheckpoint ctx state.store.history 0 0 = .ok system ∧
        next.store = setSystem (slashed ctx state.store veId amount) system := by
  have coin : newCoin ctx.lockDenom amount = .ok ⟨ctx.lockDenom, amount⟩ := newCoin_ok_iff.mpr ⟨positive.le, rfl⟩
  simp only [slashLockedAmountByUser, coin, ok_bind, ok_iffs]
  constructor
  · rintro ⟨bank, burned, history, recorded, rfl⟩
    obtain ⟨week, system, regulated, rfl⟩ := (regulateUserCheckpoint_reduced positive.le (soon veId)).mp recorded
    exact ⟨burned, week, system, regulated, rfl⟩
  · rintro ⟨burned, week, system, regulated, reached⟩
    refine ⟨next.bank, burned, _,
      (regulateUserCheckpoint_reduced positive.le (soon veId)).mpr ⟨week, system, regulated, rfl⟩, ?_⟩
    cases next
    cases reached
    rfl

theorem EndsSoon.slashed (soon : EndsSoon now store.lockedAmountByUser) (ctx : Ctx) (veId : ℕ) (amount : ℤ) :
    EndsSoon now (slashed ctx store veId amount).lockedAmountByUser := by
  intro query
  have end' : ((Ve.slashed ctx store veId amount).lockedAmountByUser query).endTime =
      (store.lockedAmountByUser query).endTime := by
    simp only [Ve.slashed, update_apply]
    split
    · next same => rw [same, reduced]
    · rfl
  rw [end']
  exact soon query

/-- Slashes of different ves leave the same tables in either order. -/
theorem slashed_comm (different : veId ≠ other) (store : Store) :
    slashed ctx (slashed ctx store veId amount) other more = slashed ctx (slashed ctx store other more) veId amount := by
  simp only [slashed, update_of_ne different, update_of_ne different.symm,
    update_comm different, sub_right_comm, mark_comm different]

/-- The regulation of a slash after another one. -/
theorem regulateCheckpoint_slashed {system : History}
    (regulated : regulateCheckpoint ctx store.history 0 0 = .ok system) (veId : ℕ) (amount : ℤ) :
    regulateCheckpoint ctx (setSystem (slashed ctx store veId amount) system).history 0 0 =
      withSystem (slashed ctx store veId amount).history <$> regulateCheckpoint ctx system 0 0 := by
  refine regulateCheckpoint_withSystem (fun t past => ?_) 0 0
  rw [regulateCheckpoint_rest regulated]
  exact mark_samePast veId store.history t past

theorem slash_swap {middle : State} (different : veId ≠ other) (positive : 0 < amount) (morePositive : 0 < more)
    (soon : EndsSoon ctx.blockTime state.store.lockedAmountByUser)
    (first : slashLockedAmountByUser ctx state veId amount = .ok middle)
    (second : slashLockedAmountByUser ctx middle other more = .ok next) :
    ∃ swapped, slashLockedAmountByUser ctx state other more = .ok swapped ∧
      slashLockedAmountByUser ctx swapped veId amount = .ok next := by
  obtain ⟨burned, week, system, regulated, reached⟩ := (slashLockedAmountByUser_ok_iff positive soon).mp first
  have middleSoon : EndsSoon ctx.blockTime middle.store.lockedAmountByUser := by
    rw [reached]
    exact soon.slashed ctx veId amount
  obtain ⟨moreBurned, otherWeek, last, regulatedLast, final⟩ :=
    (slashLockedAmountByUser_ok_iff morePositive middleSoon).mp second
  rw [reached, regulateCheckpoint_slashed regulated, map_ok_iff] at regulatedLast
  obtain ⟨systemLast, regulatedTwice, rfl⟩ := regulatedLast
  obtain ⟨bank, swappedBurned, swappedMore⟩ := burnCoins_swap positive morePositive burned moreBurned
  have sameOther : (middle.store.lockedAmountByUser other).endTime = (state.store.lockedAmountByUser other).endTime := by
    rw [reached]
    exact congrArg LockedBalance.endTime (update_of_ne different.symm _ _)
  let swapped : State := ⟨setSystem (slashed ctx state.store other more) system, bank⟩
  have swappedSoon : EndsSoon ctx.blockTime swapped.store.lockedAmountByUser := soon.slashed ctx other more
  have sameFirst : (swapped.store.lockedAmountByUser veId).endTime = (state.store.lockedAmountByUser veId).endTime :=
    congrArg LockedBalance.endTime (update_of_ne different _ _)
  refine ⟨swapped, (slashLockedAmountByUser_ok_iff morePositive soon).mpr
    ⟨swappedBurned, sameOther ▸ otherWeek, system, regulated, rfl⟩, ?_⟩
  refine (slashLockedAmountByUser_ok_iff positive swappedSoon).mpr ⟨swappedMore, sameFirst ▸ week, ?_⟩
  refine ⟨withSystem (slashed ctx state.store other more).history systemLast, ?_, ?_⟩
  · rw [regulateCheckpoint_slashed regulated, regulatedTwice]
    rfl
  · rw [final, reached]
    calc _ = setSystem (slashed ctx (slashed ctx state.store veId amount) other more) systemLast := rfl
      _ = setSystem (slashed ctx (slashed ctx state.store other more) veId amount) systemLast := by
          rw [slashed_comm different]
      _ = _ := rfl

end Swap

end Rotofury.Soundness.Ve
