import Rotofury.Soundness.Ve.Reduction

/-! # When a checkpoint can be regulated

The loop of `regulateCheckpoint` has two rounds, each of which reaches at most the end of a week. It gets to the
block's time exactly when that is no later than the end of the week after the one of the last checkpoint. The end
of a block regulates only a full week after the last checkpoint, so a checkpoint late in its week can be left
behind by more than that.
-/

namespace Rotofury.Soundness.Ve

open Model.Sdk Model.App Model.Ve Except Machine

/-- The panic of the loop that has run out of rounds. -/
def broken : Fault := .panic "broken checkpoint regulation"

/-- The other panics on the way: a time off the weeks or out of range, and arithmetic. -/
def carryFaults : List Fault :=
  [.panic "invalid regulated unix time", .panic "too large unix time", .panic "Int64() out of bound",
    .panic "division by zero"]

theorem broken_not_mem_carryFaults : broken ∉ carryFaults := by simp [broken, carryFaults]

/-- The block's time is within the two weeks that the loop can cover. -/
def WithinTwoWeeks (now : ℕ) (history : History) : Prop :=
  history.epoch = 0 ∨ now ≤ regulatedUnixTime history.last.timestamp + 2 * regulatedPeriod

section Loop

variable {ctx : Ctx} {history : History} {slopeChange biasChange : ℤ} {fault : Fault}

theorem require_avoids_carry {condition : Prop} [Decidable condition] {named : Fault} (listed : named ∈ carryFaults)
    (other : fault ∉ carryFaults) : Avoids fault (require condition named) := by
  rw [avoids_require]
  rintro rfl
  exact absurd listed other

section

variable (other : fault ∉ carryFaults)
include other

theorem nextRegulatedUnixTime_avoids (timestamp : ℕ) : Avoids fault (nextRegulatedUnixTime timestamp) := by
  apply Avoids.bind (require_avoids_carry (by simp [carryFaults]) other)
  intro _ _
  apply Avoids.bind (require_avoids_carry (by simp [carryFaults]) other)
  exact fun _ _ => avoids_pure _ _

theorem truncateInt64_avoids (value : Dec) : Avoids fault value.truncateInt64 := by
  apply Avoids.bind (require_avoids_carry (by simp [carryFaults]) other)
  exact fun _ _ => avoids_pure _ _

theorem quoInt_avoids (left : Dec) (right : ℤ) : Avoids fault (left.quoInt right) := by
  unfold Dec.quoInt
  split
  · rw [avoids_error]
    rintro rfl
    exact absurd (by simp [carryFaults]) other
  · exact avoids_ok _ _

/-- Rounds that suffice end without the panic of the loop. -/
theorem regulateRounds_avoids {initial pointLast : Checkpoint} {slope : Dec} {rounds epoch ti : ℕ}
    (enough : fault = broken → 0 < rounds ∧ ctx.blockTime ≤ ti + rounds * regulatedPeriod) :
    Avoids fault (regulateRounds ctx initial slope rounds history epoch ti pointLast) := by
  induction rounds generalizing history epoch ti pointLast with
  | zero =>
    rw [regulateRounds, avoids_error]
    intro same
    exact absurd (enough same.symm).1 (Nat.lt_irrefl 0)
  | succ rounds ih =>
    rw [regulateRounds]
    refine (nextRegulatedUnixTime_avoids other ti).bind fun next ok => ?_
    obtain ⟨_, _, rfl⟩ := nextRegulatedUnixTime_ok_iff.mp ok
    refine (truncateInt64_avoids other _).bind fun elapsed _ => ?_
    by_cases early : ctx.blockTime < ti + regulatedPeriod
    · simp [early]
    · simp only [early, if_false]
      split
      · exact avoids_pure _ _
      · next more =>
        apply ih
        intro same
        have covered := (enough same).2
        rw [Nat.add_mul, Nat.one_mul] at covered
        refine ⟨?_, by omega⟩
        rcases Nat.eq_zero_or_pos rounds with rfl | positive
        · omega
        · exact positive

end

/-- Rounds that end have covered the time to the block. -/
theorem regulateRounds_covered {initial pointLast : Checkpoint} {slope : Dec} {rounds epoch ti : ℕ}
    {result : History × ℕ × Checkpoint}
    (ok : regulateRounds ctx initial slope rounds history epoch ti pointLast = .ok result) :
    ctx.blockTime ≤ ti + rounds * regulatedPeriod ∧ result.2.2.timestamp = ctx.blockTime := by
  induction rounds generalizing history epoch ti pointLast with
  | zero => simp [regulateRounds] at ok
  | succ rounds ih =>
    simp only [regulateRounds, bind_ok_iff] at ok
    obtain ⟨next, weekOk, elapsed, _, ok⟩ := ok
    obtain ⟨_, _, rfl⟩ := nextRegulatedUnixTime_ok_iff.mp weekOk
    rw [Nat.add_mul, Nat.one_mul]
    by_cases early : ctx.blockTime < ti + regulatedPeriod
    · simp only [early, if_true, pure_ok_iff] at ok
      subst ok
      exact ⟨by omega, rfl⟩
    · simp only [early, if_false] at ok
      split at ok
      · next reached =>
        cases ok
        exact ⟨by omega, reached⟩
      · obtain ⟨covered, atNow⟩ := ih ok
        exact ⟨by omega, atNow⟩

theorem regulationStart_covered (within : WithinTwoWeeks ctx.blockTime history) :
    ctx.blockTime ≤ regulatedUnixTime (history.regulationStart ctx).timestamp + 2 * regulatedPeriod := by
  unfold History.regulationStart
  split
  · next started => exact within.resolve_left started.ne'
  · have := lt_regulatedUnixTime_add ctx.blockTime
    dsimp only
    omega

/-- Within two weeks of the last checkpoint the loop does not panic. -/
theorem regulateCheckpoint_avoids (other : fault ∉ carryFaults)
    (within : fault = broken → WithinTwoWeeks ctx.blockTime history) :
    Avoids fault (regulateCheckpoint ctx history slopeChange biasChange) := by
  refine Avoids.bind ?_ fun slope _ => ?_
  · unfold blockSlope
    split
    · exact quoInt_avoids other _ _
    · exact avoids_ok _ _
  · refine (regulateRounds_avoids other fun same => ?_).bind fun _ _ => avoids_pure _ _
    exact ⟨Nat.two_pos, regulationStart_covered (within same)⟩

/-- Later than that it does not succeed. -/
theorem regulateCheckpoint_covered {next : History}
    (ok : regulateCheckpoint ctx history slopeChange biasChange = .ok next) :
    WithinTwoWeeks ctx.blockTime history ∧ next.last.timestamp = ctx.blockTime := by
  simp only [regulateCheckpoint, ok_iffs, Prod.exists] at ok
  obtain ⟨slope, _, middle, epoch, point, rounds, rfl⟩ := ok
  obtain ⟨covered, atNow⟩ := regulateRounds_covered rounds
  constructor
  · rcases Nat.eq_zero_or_pos history.epoch with none | started
    · exact .inl none
    · rw [History.regulationStart, if_pos started] at covered
      exact .inr covered
  · simpa [History.last, History.setCheckpoint, Checkpoint.addUserChange] using atNow

theorem regulateUserCheckpoint_avoids {veId : ℕ} {lockedOld lockedNew : LockedBalance} (other : fault ∉ carryFaults)
    (within : fault = broken → WithinTwoWeeks ctx.blockTime history) :
    Avoids fault (regulateUserCheckpoint ctx history veId lockedOld lockedNew) := by
  apply Avoids.bind (require_avoids_carry (by simp [carryFaults]) other)
  intro _ _
  apply Avoids.bind (require_avoids_carry (by simp [carryFaults]) other)
  exact fun _ _ => (regulateCheckpoint_avoids other within).bind fun _ _ => avoids_pure _ _

theorem regulateUserCheckpoint_timestamp {veId : ℕ} {lockedOld lockedNew : LockedBalance} {next : History}
    (ok : regulateUserCheckpoint ctx history veId lockedOld lockedNew = .ok next) :
    next.last.timestamp = ctx.blockTime := by
  simp only [regulateUserCheckpoint, ok_iffs] at ok
  obtain ⟨_, _, _, _, middle, regulated, rfl⟩ := ok
  obtain ⟨epochEq, checkpointEq, _, _⟩ := scheduleSlopeChanges_frame middle ctx lockedOld lockedNew
    (userPoint ctx lockedOld).slope (userPoint ctx lockedNew).slope
  have last := (regulateCheckpoint_covered regulated).2
  simpa only [History.last, History.pushUserCheckpoint, History.setUserCheckpoint, epochEq, checkpointEq] using last

theorem withinTwoWeeks_of_now (atNow : history.last.timestamp = ctx.blockTime) :
    WithinTwoWeeks ctx.blockTime history := by
  have := lt_regulatedUnixTime_add ctx.blockTime
  exact .inr (by rw [atNow]; omega)

end Loop

section Success

variable {ctx : Ctx} {history : History}

/-- Rounds that suffice succeed, as long as the block numbers on the way are in range. -/
theorem regulateRounds_succeeds {initial point : Checkpoint} {slope : Dec} {rounds epoch ti : ℕ}
    (elapses : ∀ t, initial.timestamp ≤ t → t ≤ ctx.blockTime →
      ∃ blocks, (slope.mulInt (toInt64 (subUint64 t initial.timestamp))).truncateInt64 = .ok blocks)
    (started : initial.timestamp ≤ ctx.blockTime) (ahead : initial.timestamp ≤ ti + regulatedPeriod)
    (week : regulatedPeriod ∣ ti) (reached : ti ≤ regulatedUnixTime ctx.blockTime)
    (inRange : regulatedUnixTime ctx.blockTime + regulatedPeriod ≤ maxUnixTime) (some : 0 < rounds)
    (covered : ctx.blockTime ≤ ti + rounds * regulatedPeriod) :
    ∃ result, regulateRounds ctx initial slope rounds history epoch ti point = .ok result := by
  induction rounds generalizing history epoch ti point with
  | zero => omega
  | succ rounds ih =>
    have next : nextRegulatedUnixTime ti = .ok (ti + regulatedPeriod) :=
      nextRegulatedUnixTime_ok_iff.mpr ⟨week, by omega, rfl⟩
    rw [regulateRounds, next, ok_bind]
    by_cases early : ctx.blockTime < ti + regulatedPeriod
    · obtain ⟨blocks, elapsed⟩ := elapses ctx.blockTime started le_rfl
      simp only [early, if_true, elapsed, ok_bind]
      exact ⟨_, rfl⟩
    · obtain ⟨blocks, elapsed⟩ := elapses (ti + regulatedPeriod) ahead (not_lt.mp early)
      simp only [early, if_false, elapsed, ok_bind]
      split
      · exact ⟨_, rfl⟩
      · next more =>
        rw [Nat.add_mul, Nat.one_mul] at covered
        have rest : 0 < rounds := by
          rcases Nat.eq_zero_or_pos rounds with rfl | positive
          · omega
          · exact positive
        have onWeek : regulatedPeriod ∣ ti + regulatedPeriod := Dvd.dvd.add week dvd_rfl
        refine ih (by omega) onWeek ?_ rest (by omega)
        rw [← regulatedUnixTime_eq_iff.mpr onWeek]
        exact regulatedUnixTime_mono (not_lt.mp early)

/-- The blocks counted to a time on the way are at most those of the whole way. -/
theorem blockSlope_elapses {point : Checkpoint} (ordered : point.timestamp ≤ ctx.blockTime)
    (blocks : point.block ≤ ctx.blockHeight) (few : ctx.blockHeight - point.block < 2 ^ 63) :
    ∃ slope, blockSlope ctx point = .ok slope ∧ ∀ t, point.timestamp ≤ t → t ≤ ctx.blockTime →
      ∃ blocks, (slope.mulInt (toInt64 (subUint64 t point.timestamp))).truncateInt64 = .ok blocks := by
  have timeBound := ctx.time_lt
  unfold blockSlope
  split
  · next before =>
    have lapse : toInt64 (subUint64 ctx.blockTime point.timestamp) = (ctx.blockTime - point.timestamp : ℕ) :=
      toInt64_subUint64 ordered (by omega) (by omega)
    have lapsePos : (0 : ℤ) < (ctx.blockTime - point.timestamp : ℕ) := by omega
    rw [lapse, Dec.quoInt, if_neg lapsePos.ne']
    refine ⟨_, rfl, fun t reached past => ?_⟩
    have passed : toInt64 (subUint64 t point.timestamp) = (t - point.timestamp : ℕ) :=
      toInt64_subUint64 reached (by omega) (by omega)
    have countNonneg : 0 ≤ (ctx.blockHeight - point.block) * Dec.precision :=
      mul_nonneg (by omega) (Int.natCast_nonneg _)
    rw [passed]
    simp only [Dec.truncateInt64, Dec.truncateInt, Dec.mulInt, Dec.ofInt, Int.tdiv_eq_ediv_of_nonneg countNonneg]
    set perSecond := (ctx.blockHeight - point.block) * Dec.precision / (ctx.blockTime - point.timestamp : ℕ)
    have perSecondNonneg : 0 ≤ perSecond := Int.ediv_nonneg countNonneg lapsePos.le
    have share : perSecond * (t - point.timestamp : ℕ) ≤ (ctx.blockHeight - point.block) * Dec.precision :=
      (mul_le_mul_of_nonneg_left (by omega) perSecondNonneg).trans (Int.ediv_mul_le _ lapsePos.ne')
    have shareNonneg : 0 ≤ perSecond * (t - point.timestamp : ℕ) :=
      mul_nonneg perSecondNonneg (Int.natCast_nonneg _)
    have counted : perSecond * (t - point.timestamp : ℕ) / Dec.precision ≤ ctx.blockHeight - point.block :=
      Int.ediv_le_of_le_mul (by decide) share
    have countedNonneg : 0 ≤ perSecond * (t - point.timestamp : ℕ) / Dec.precision :=
      Int.ediv_nonneg shareNonneg (Int.natCast_nonneg _)
    rw [Int.tdiv_eq_ediv_of_nonneg shareNonneg, require, if_pos (by omega)]
    exact ⟨_, rfl⟩
  · next same =>
    refine ⟨_, rfl, fun t reached past => ⟨0, ?_⟩⟩
    simp [Dec.truncateInt64, Dec.truncateInt, Dec.mulInt, Dec.zero, require]

/-- Within two weeks of the last checkpoint, and of its block, regulating succeeds. -/
theorem regulateCheckpoint_succeeds (past : history.last.timestamp ≤ ctx.blockTime)
    (within : WithinTwoWeeks ctx.blockTime history)
    (inRange : regulatedUnixTime ctx.blockTime + regulatedPeriod ≤ maxUnixTime)
    (blocks : history.last.block ≤ ctx.blockHeight) (few : ctx.blockHeight - history.last.block < 2 ^ 63)
    (slopeChange biasChange : ℤ) : ∃ next, regulateCheckpoint ctx history slopeChange biasChange = .ok next := by
  have covered := regulationStart_covered within
  have start : (history.regulationStart ctx).timestamp ≤ ctx.blockTime ∧
      (history.regulationStart ctx).block ≤ ctx.blockHeight ∧
      ctx.blockHeight - (history.regulationStart ctx).block < 2 ^ 63 := by
    unfold History.regulationStart
    split
    · exact ⟨past, blocks, few⟩
    · exact ⟨le_rfl, le_rfl, by simp⟩
  obtain ⟨slope, sloped, elapses⟩ := blockSlope_elapses start.1 start.2.1 start.2.2
  obtain ⟨result, rounds⟩ := @regulateRounds_succeeds ctx history _ (history.regulationStart ctx) slope 2 history.epoch _
    elapses start.1 (lt_regulatedUnixTime_add _).le (Nat.dvd_mul_left _ _) (regulatedUnixTime_mono start.1) inRange
    Nat.two_pos covered
  simp only [regulateCheckpoint, sloped, rounds, ok_bind]
  exact ⟨_, rfl⟩

end Success

section Bank

/-- A payment of the module panics only over the coins it is given. -/
theorem payment_avoids {reason : String} (other : "invalid coins" ≠ reason) (bank : Bank) (module : ModuleAccount)
    (recipient : Address) (coins : List Coin) :
    Avoids (.panic reason) (execOp bank (.sendCoinsFromModuleToAccount module recipient coins)) := by
  refine (newCoins_avoids (by simpa using other) _).bind fun coins _ => ?_
  exact Avoids.bind (by simp) fun _ _ => sendCoins_avoids _ _ _ _ coins

theorem burnCoins_avoids (bank : Bank) (module : ModuleAccount) (coins : List Coin) :
    Avoids broken (bank.burnCoins module coins) := by
  refine Avoids.bind (by simp [broken]) fun _ _ => ?_
  refine (subUnlockedCoins_avoids _ bank _ coins).bind fun middle _ => Avoids.foldlM (fun bank coin => ?_) _ _
  exact Avoids.bind (by simp) fun _ _ => avoids_pure _ _

theorem takeLocked_avoids (ctx : Ctx) (bank : Bank) (sender : Address) (amount : ℤ) (sends : Bool) :
    Avoids broken (takeLocked ctx bank sender amount sends) := by
  unfold takeLocked
  split
  · exact (newCoins_avoids (by simp [broken]) _).bind fun coins _ => sendCoins_avoids _ _ _ _ coins
  · exact avoids_ok _ _

end Bank

section Messages

variable {ctx : Ctx} {state : State}

theorem depositFor_avoids (within : WithinTwoWeeks ctx.blockTime state.store.history) (sender : Address) (veId : ℕ)
    (amount : ℤ) (unlockTime : ℕ) (locked : LockedBalance) (sends : Bool) :
    Avoids broken (depositFor ctx state sender veId amount unlockTime locked sends) :=
  (takeLocked_avoids _ _ _ _ _).bind fun _ _ => (regulateUserCheckpoint_avoids broken_not_mem_carryFaults fun _ => within).bind fun _ _ =>
    avoids_pure _ _

theorem create_avoids (within : WithinTwoWeeks ctx.blockTime state.store.history) (msg : MsgCreate) :
    Avoids broken (create ctx state msg) := by
  refine Avoids.bind (by simp [checkLockDenom, broken]) fun _ _ => ?_
  refine Avoids.bind (by simp [broken]) fun _ _ => Avoids.bind (by simp [broken]) fun _ _ => ?_
  refine Avoids.bind (by simp [broken]) fun _ _ => Avoids.bind ?_ fun store minted => ?_
  · exact Avoids.bind (by simp [broken]) fun _ _ => avoids_pure _ _
  · simp only [Store.mintNft, ok_iffs] at minted
    obtain ⟨_, _, rfl⟩ := minted
    apply depositFor_avoids
    exact within

theorem runningLock_avoids (ctx : Ctx) (store : Store) (veId : ℕ) :
    Avoids broken (runningLock ctx store veId) := by
  refine Avoids.bind (by simp [broken]) fun _ _ => Avoids.bind (by simp [broken]) fun _ _ => ?_
  exact Avoids.bind (by simp [broken]) fun _ _ => avoids_pure _ _

theorem deposit_avoids (within : WithinTwoWeeks ctx.blockTime state.store.history) (msg : MsgDeposit) :
    Avoids broken (deposit ctx state msg) := by
  refine Avoids.bind (by simp [checkLockDenom, broken]) fun _ _ => ?_
  exact (runningLock_avoids _ _ _).bind fun _ _ => depositFor_avoids within _ _ _ _ _ _

theorem extendTime_avoids (within : WithinTwoWeeks ctx.blockTime state.store.history) (msg : MsgExtendTime) :
    Avoids broken (extendTime ctx state msg) := by
  refine (runningLock_avoids _ _ _).bind fun _ _ => ?_
  refine Avoids.bind (by simp [Store.requireOwner, broken]) fun _ _ => ?_
  refine Avoids.bind (by simp [broken]) fun _ _ => Avoids.bind (by simp [broken]) fun _ _ => ?_
  exact depositFor_avoids within _ _ _ _ _ _

theorem checkVeAttached_avoids (store : Store) (veId : ℕ) : Avoids broken (store.checkVeAttached veId) := by
  simp [Store.checkVeAttached, broken]

/-- The second lock of a merge finds the checkpoint that the first one has just written. -/
theorem merge_avoids (within : WithinTwoWeeks ctx.blockTime state.store.history) (msg : MsgMerge) :
    Avoids broken (merge ctx state msg) := by
  refine Avoids.bind (by simp [Store.requireOwner, broken]) fun _ _ => ?_
  refine Avoids.bind (by simp [Store.requireOwner, broken]) fun _ _ => ?_
  refine (checkVeAttached_avoids _ _).bind fun _ _ => ?_
  refine Avoids.bind (by simp [requireUndelegated, broken]) fun _ _ => ?_
  refine (regulateUserCheckpoint_avoids broken_not_mem_carryFaults fun _ => within).bind fun history regulated =>
    Avoids.bind ?_ fun store burned => ?_
  · exact Avoids.bind (by simp [broken]) fun _ _ => avoids_pure _ _
  · simp only [Store.burnNft, ok_iffs] at burned
    obtain ⟨_, _, rfl⟩ := burned
    exact depositFor_avoids (withinTwoWeeks_of_now (regulateUserCheckpoint_timestamp regulated)) _ _ _ _ _ _

theorem withdraw_avoids {fault : Fault} {msg : MsgWithdraw} (unregistered : ∀ error detail, .err error detail ≠ fault)
    (other : fault ∉ carryFaults) (within : fault = broken → WithinTwoWeeks ctx.blockTime state.store.history)
    (counted : .panic "total locked negative" = fault →
      (state.store.lockedAmountByUser msg.veId).amount ≤ state.store.totalLockedAmount)
    (coined : Avoids fault (newCoin ctx.lockDenom (state.store.lockedAmountByUser msg.veId).amount))
    (paid : ∀ coin, newCoin ctx.lockDenom (state.store.lockedAmountByUser msg.veId).amount = .ok coin →
      Avoids fault (execOp state.bank (.sendCoinsFromModuleToAccount .ve msg.sender [coin]))) :
    Avoids fault (withdraw ctx state msg) := by
  have refused : ∀ {condition : Prop} [Decidable condition] {error : RegisteredError} {detail : String},
      Avoids fault (require condition (.err error detail)) := by
    intro condition _ error detail
    rw [avoids_require]
    exact fun same => absurd same (unregistered error detail)
  apply refused.bind
  intro _ _
  apply refused.bind
  intro _ _
  apply refused.bind
  intro _ _
  apply refused.bind
  intro _ _
  apply Avoids.bind
  · rw [avoids_require]
    exact fun same => sub_nonneg.mpr (counted same)
  intro _ _
  refine (regulateUserCheckpoint_avoids other within).bind fun history _ => Avoids.bind ?_ fun store _ => ?_
  · exact refused.bind fun _ _ => avoids_pure _ _
  · exact coined.bind fun coin ok => (paid coin ok).bind fun _ _ => avoids_pure _ _

theorem slash_avoids (within : WithinTwoWeeks ctx.blockTime state.store.history) (veId : ℕ) (amount : ℤ) :
    Avoids broken (slashLockedAmountByUser ctx state veId amount) := by
  refine (newCoin_avoids (by decide) _ _).bind fun coin _ => Avoids.bind ?_ fun bank _ => ?_
  · exact (newCoins_avoids (by simp) _).bind fun coins _ => burnCoins_avoids _ _ coins
  · exact (regulateUserCheckpoint_avoids broken_not_mem_carryFaults fun _ => within).bind fun _ _ => avoids_pure _ _

theorem endBlocker_avoids {history : History} (within : WithinTwoWeeks ctx.blockTime history) :
    Avoids broken (endBlocker ctx history) := by
  unfold endBlocker
  split
  · exact regulateCheckpoint_avoids broken_not_mem_carryFaults fun _ => within
  · exact avoids_ok _ _

end Messages

/-- The events that regulate checkpoints. -/
def Action.Regulates (action : Action) : Prop :=
  (∀ msg, action ≠ .send msg) ∧ ∀ veId attached voted, action ≠ .attach veId attached voted

/-- An event that regulates finds a checkpoint that is not too old. -/
def Timely (state : State) (event : Event) : Prop :=
  Action.Regulates event.action → WithinTwoWeeks event.time state.store.history

/-- A timely event does not end in the panic of the loop. -/
theorem step_avoids {state : State} {event : Event} (timely : Timely state event) :
    Avoids broken (step state event) := by
  obtain ⟨ctx, action⟩ := event
  cases action with
  | create msg =>
    refine Avoids.bind ?_ fun _ _ => create_avoids (timely (by simp [Action.Regulates])) msg
    refine Avoids.bind (by simp [requirePositiveAmount, broken]) fun _ _ => ?_
    exact Avoids.bind (by simp [broken]) fun _ _ => by simp [broken]
  | deposit msg =>
    refine Avoids.bind ?_ fun _ _ => deposit_avoids (timely (by simp [Action.Regulates])) msg
    refine Avoids.bind (by simp [requireVeId, broken]) fun _ _ => ?_
    simp [requirePositiveAmount, broken]
  | extendTime msg =>
    refine Avoids.bind ?_ fun _ _ => extendTime_avoids (timely (by simp [Action.Regulates])) msg
    refine Avoids.bind (by simp [requireVeId, broken]) fun _ _ => ?_
    exact Avoids.bind (by simp [broken]) fun _ _ => by simp [broken]
  | merge msg =>
    refine Avoids.bind ?_ fun _ _ => merge_avoids (timely (by simp [Action.Regulates])) msg
    refine Avoids.bind (by simp [requireVeId, broken]) fun _ _ => ?_
    exact Avoids.bind (by simp [requireVeId, broken]) fun _ _ => by simp [broken]
  | withdraw msg =>
    refine Avoids.bind ?_ fun _ _ => withdraw_avoids (by simp [broken]) broken_not_mem_carryFaults
      (fun _ => timely (by simp [Action.Regulates])) (by simp [broken]) (newCoin_avoids (by decide) _ _)
      fun coin _ => payment_avoids (by simp) _ _ _ _
    simp [MsgWithdraw.validateBasic, requireVeId, broken]
  | send msg =>
    refine Avoids.bind ?_ fun _ _ => avoids_pure _ _
    refine (checkVeAttached_avoids _ _).bind fun _ _ => ?_
    refine Avoids.bind (by simp [Store.requireOwner, broken]) fun _ _ => ?_
    exact Avoids.bind (by simp [broken]) fun _ _ => avoids_pure _ _
  | slash veId amount => exact slash_avoids (timely (by simp [Action.Regulates])) veId amount
  | attach => exact avoids_ok _ _
  | endBlock =>
    exact (endBlocker_avoids (timely (by simp [Action.Regulates]))).bind fun _ _ => avoids_pure _ _

/-- In every run whose regulating events find a checkpoint from this week or the one before, no event ends in the
panic of the loop; and a checkpoint that is older than that cannot be regulated at all. -/
theorem regulation_never_broken (bank : Bank) (events : List Event) :
    (Throughout step Timely (genesis bank) events →
      Throughout step (fun state event => Avoids broken (step state event)) (genesis bank) events) ∧
    ∀ (ctx : Ctx) (history next : History) (slopeChange biasChange : ℤ),
      regulateCheckpoint ctx history slopeChange biasChange = .ok next → WithinTwoWeeks ctx.blockTime history := by
  constructor
  · intro timely before event after split
    exact step_avoids (timely before event after split)
  · intro ctx history next slopeChange biasChange success
    exact (regulateCheckpoint_covered success).1

/-- A lock created in the last second of a week, and the ends of that block and of one almost a week later. -/
def sampleGap : List Event := [
  ⟨sampleCtx (11 * regulatedPeriod - 1) 1 (by decide) (by decide),
    .create ⟨1, none, ⟨"airon", 10 * maxLockTime⟩, 4 * regulatedPeriod⟩⟩,
  ⟨sampleCtx (11 * regulatedPeriod - 1) 1 (by decide) (by decide), .endBlock⟩,
  ⟨sampleCtx (12 * regulatedPeriod - 2) 2 (by decide) (by decide), .endBlock⟩]

theorem regulation_never_broken_sample :
    Throughout step (fun state event => Avoids broken (step state event)) (genesis sampleBank)
      sampleGap := by
  have first : Timely (genesis sampleBank) (sampleGap.get ⟨0, by decide⟩) := fun _ => .inl rfl
  refine (regulation_never_broken sampleBank sampleGap).1 (throughout_cons first ?_)
  refine throughout_cons (fun _ => .inr ?_) (throughout_cons (fun _ => .inr ?_) ?_)
  · decide +kernel
  · decide +kernel
  · exact throughout_nil _ _ _

/-- Blocks less than a week apart, each of them ended: the end of the third one panics. -/
theorem regulation_broken_sample :
    (sampleGap.map Event.time ++ [13 * regulatedPeriod - 3]).IsChain
        (fun earlier later => earlier ≤ later ∧ later < earlier + regulatedPeriod) ∧
      (step (run sampleBank sampleGap)
        ⟨sampleCtx (13 * regulatedPeriod - 3) 3 (by decide) (by decide), .endBlock⟩).map (fun _ => ()) =
          .error broken := by
  constructor
  · decide
  · decide +kernel

end Rotofury.Soundness.Ve
