import Rotofury.Soundness.Ve.Accrual
import Rotofury.Soundness.Ve.WeeklyPower

/-! # Paying the rewards

Every claim of a ve pays, for each week since its last claim, its share of the recorded amount. The shares are fixed
once the week is over, and the recorded amount only grows as long as the pool has been refilled, so all payments for a
week together stay within the amount recorded for it.
-/

namespace Rotofury.Soundness.Ve

open Model.Sdk Model.App Model.Ve Except Function Machine

/-- Shares of an amount in proportion to parts of a whole do not add up to more than the amount. -/
theorem sum_shares_le {ι : Type} {members : Finset ι} {paid part : ι → ℤ} {amount : ℤ}
    (some : 0 < ∑ i ∈ members, part i)
    (share : ∀ i ∈ members, paid i * ∑ j ∈ members, part j ≤ amount * part i) : ∑ i ∈ members, paid i ≤ amount := by
  refine le_of_mul_le_mul_right ?_ some
  calc (∑ i ∈ members, paid i) * ∑ j ∈ members, part j = ∑ i ∈ members, paid i * ∑ j ∈ members, part j :=
        Finset.sum_mul ..
    _ ≤ ∑ i ∈ members, amount * part i := Finset.sum_le_sum share
    _ = amount * ∑ i ∈ members, part i := (Finset.mul_sum ..).symm

/-- In a list with one entry per key, the entries of a key add up to its value. -/
theorem sum_entries_of_key {keys : List ℕ} (nodup : keys.Nodup) (value : ℕ → ℤ) (key : ℕ) :
    (((keys.map fun k => (k, value k)).filter (·.1 = key)).map Prod.snd).sum = if key ∈ keys then value key else 0 := by
  induction keys with
  | nil => simp
  | cons first rest ih =>
    obtain ⟨fresh, nodup⟩ := List.nodup_cons.mp nodup
    have tail := ih nodup
    rw [List.map_cons, List.filter_cons]
    by_cases same : first = key
    · subst same
      rw [if_neg fresh] at tail
      simp [tail]
    · have other : key ≠ first := Ne.symm same
      simp only [same, decide_false, Bool.false_eq_true, if_false, tail, List.mem_cons, other, false_or]

/-- The share of a ve in the amount recorded for a week. -/
def claimable (store : Store) (perPeriod : ℕ → ℤ) (veId period : ℕ) : ℤ :=
  (perPeriod period * store.history.userPowerAt veId (period + regulatedPeriod)).tdiv
    (powersAt store (period + regulatedPeriod))

/-- The weeks from one that starts at `epochTime` to the last one that is over. -/
def weeksFrom (now epochTime : ℕ) : List ℕ :=
  (List.range ((regulatedUnixTime now - epochTime) / regulatedPeriod)).map fun k => epochTime + k * regulatedPeriod

theorem weeksFrom_nodup (now epochTime : ℕ) : (weeksFrom now epochTime).Nodup := by
  refine List.nodup_range.map fun first second same => ?_
  have positive : 0 < regulatedPeriod := by decide
  exact Nat.eq_of_mul_eq_mul_right positive (Nat.add_left_cancel same)

section Weeks

variable {now epochTime : ℕ}

theorem weeksFrom_over (reached : regulatedUnixTime now < epochTime + regulatedPeriod) : weeksFrom now epochTime = [] := by
  have positive : 0 < regulatedPeriod := by decide
  rw [weeksFrom, Nat.div_eq_of_lt (by omega)]
  rfl

theorem weeksFrom_next (more : epochTime + regulatedPeriod ≤ regulatedUnixTime now) :
    weeksFrom now epochTime = epochTime :: weeksFrom now (epochTime + regulatedPeriod) := by
  have positive : 0 < regulatedPeriod := by decide
  have split : regulatedUnixTime now - epochTime = (regulatedUnixTime now - (epochTime + regulatedPeriod)) + regulatedPeriod := by
    omega
  rw [weeksFrom, split, Nat.add_div_right _ positive, List.range_succ_eq_map, List.map_cons, List.map_map, weeksFrom]
  refine List.cons_eq_cons.mpr ⟨by rw [Nat.zero_mul, Nat.add_zero], ?_⟩
  apply List.map_congr_left
  intro k _
  simp only [Function.comp_apply, Nat.succ_mul]
  omega

theorem mem_weeksFrom {period : ℕ} (week : regulatedPeriod ∣ epochTime) (inside : period ∈ weeksFrom now epochTime) :
    regulatedPeriod ∣ period ∧ epochTime ≤ period ∧ period + regulatedPeriod ≤ regulatedUnixTime now := by
  simp only [weeksFrom, List.mem_map, List.mem_range] at inside
  obtain ⟨k, before, rfl⟩ := inside
  have positive : 0 < regulatedPeriod := by decide
  have whole := (Nat.le_div_iff_mul_le positive).mp (Nat.succ_le_of_lt before)
  rw [Nat.succ_mul] at whole
  exact ⟨Dvd.dvd.add week (Nat.dvd_mul_left _ _), by omega, by omega⟩

end Weeks

section Claim

variable {ctx : Ctx} {store : Store} {perPeriod : ℕ → ℤ} {veId : ℕ}

theorem checkInt_of_lt {value : ℤ} (small : value.natAbs < 2 ^ 256) : checkInt value = .ok value := by
  rw [checkInt, require, if_pos small]
  rfl

/-- The product of the recorded amount and the ve's power takes no more than 256 bits. -/
def ProductFits (store : Store) (perPeriod : ℕ → ℤ) (veId period : ℕ) : Prop :=
  (perPeriod period * store.history.userPowerAt veId (period + regulatedPeriod)).natAbs < 2 ^ 256

/-- Away from the start of a week, and with power in every week, the loop pays the share of each week. -/
theorem claimWeeks_eq {epochTime : ℕ} (settled : Settled ctx.blockTime store) (member : veId ∈ veIds store)
    (inside : ¬ regulatedPeriod ∣ ctx.blockTime)
    (inRange : regulatedUnixTime ctx.blockTime + regulatedPeriod ≤ maxUnixTime) (week : regulatedPeriod ∣ epochTime)
    (started : epochTime ≤ regulatedUnixTime ctx.blockTime)
    (powered : ∀ later, regulatedPeriod ∣ later → epochTime < later → later ≤ ctx.blockTime → 0 < powersAt store later)
    (small : ∀ period ∈ weeksFrom ctx.blockTime epochTime, ProductFits store perPeriod veId period) :
    claimWeeks ctx store.history perPeriod veId epochTime =
      .ok ((weeksFrom ctx.blockTime epochTime).map fun period => (period, claimable store perPeriod veId period)) := by
  have positive : 0 < regulatedPeriod := by decide
  have next : nextRegulatedUnixTime epochTime = .ok (epochTime + regulatedPeriod) :=
    nextRegulatedUnixTime_ok_iff.mpr ⟨week, by omega, rfl⟩
  rw [claimWeeks, next, ok_bind]
  dsimp only
  split
  · next over' => rw [weeksFrom_over over', List.map_nil]; rfl
  · next more =>
    have reached : epochTime + regulatedPeriod ≤ regulatedUnixTime ctx.blockTime := not_lt.mp more
    have nextWeek : regulatedPeriod ∣ epochTime + regulatedPeriod := Dvd.dvd.add week dvd_rfl
    have notNow : epochTime + regulatedPeriod ≠ ctx.blockTime := by
      rintro same
      exact inside (same ▸ nextWeek)
    have past : epochTime + regulatedPeriod < ctx.blockTime :=
      lt_of_le_of_ne (reached.trans (regulatedUnixTime_le _)) notNow
    have previous : previousRegulatedUnixTime (epochTime + regulatedPeriod) = .ok epochTime := by
      simp [previousRegulatedUnixTime, checkRegulatedUnixTime, require, regulatedUnixTime_eq_iff.mpr nextWeek]
    have named : veId ≠ emptyVeId := Nat.one_le_iff_ne_zero.mp (Finset.mem_Ico.mp member).1
    have weekInRange : InRange (epochTime + regulatedPeriod) := by
      have sameWeek := regulatedUnixTime_le_of_lt week (by omega : epochTime + regulatedPeriod - 1 < epochTime + regulatedPeriod)
      unfold InRange
      omega
    have power := settled.userLog.getVotingPower_eq named (by omega : 0 < epochTime + regulatedPeriod) ctx
    have total := settled.weeks _ nextWeek (by omega) past weekInRange ctx
    have some := powered _ nextWeek (by omega) past.le
    rw [weeksFrom_next reached] at small ⊢
    obtain ⟨product, later⟩ := List.forall_mem_cons.mp small
    have rest := claimWeeks_eq settled member inside inRange nextWeek reached
      (fun later whole after => powered later whole (by omega)) later
    simp only [previous, power, total, rest, ok_bind, checkInt_of_lt product, quo, if_neg some.ne']
    rw [List.map_cons]
    rfl
termination_by ctx.blockTime - epochTime
decreasing_by
  omega

theorem claimable_nonneg (recorded : ∀ period, 0 ≤ perPeriod period) (period : ℕ) :
    0 ≤ claimable store perPeriod veId period :=
  Int.tdiv_nonneg (mul_nonneg (recorded period) (userPowerAt_nonneg _ _ _)) (powersAt_nonneg _ _)

/-- The share is rounded down. -/
theorem claimable_mul_le (recorded : ∀ period, 0 ≤ perPeriod period) {period : ℕ}
    (powered : 0 < powersAt store (period + regulatedPeriod)) :
    claimable store perPeriod veId period * powersAt store (period + regulatedPeriod) ≤
      perPeriod period * store.history.userPowerAt veId (period + regulatedPeriod) := by
  have nonneg := mul_nonneg (recorded period) (userPowerAt_nonneg store.history veId (period + regulatedPeriod))
  rw [claimable, Int.tdiv_eq_ediv_of_nonneg nonneg]
  exact Int.ediv_mul_le _ powered.ne'

/-- A share is part of the amount. -/
theorem claimable_le (recorded : ∀ period, 0 ≤ perPeriod period) (member : veId ∈ veIds store) {period : ℕ}
    (powered : 0 < powersAt store (period + regulatedPeriod)) :
    claimable store perPeriod veId period ≤ perPeriod period := by
  have part : store.history.userPowerAt veId (period + regulatedPeriod) ≤ powersAt store (period + regulatedPeriod) :=
    Finset.single_le_sum (fun other _ => userPowerAt_nonneg _ other _) member
  refine le_of_mul_le_mul_right ?_ powered
  exact (claimable_mul_le recorded powered).trans (mul_le_mul_of_nonneg_left part (recorded period))

/-- Amounts that are not negative can be added up if their sum fits. -/
theorem foldlM_checkInt {entries : List (ℕ × ℤ)} (nonneg : ∀ entry ∈ entries, 0 ≤ entry.2) {before : ℤ}
    (start : 0 ≤ before) (small : before + (entries.map Prod.snd).sum < 2 ^ 256) :
    entries.foldlM (fun amount entry => checkInt (amount + entry.2)) before =
      .ok (before + (entries.map Prod.snd).sum) := by
  induction entries generalizing before with
  | nil => simp
  | cons entry rest ih =>
    obtain ⟨head, tail⟩ := List.forall_mem_cons.mp nonneg
    have later : 0 ≤ (rest.map Prod.snd).sum := by
      apply List.sum_nonneg
      intro amount inside
      obtain ⟨other, listed, rfl⟩ := List.mem_map.mp inside
      exact tail other listed
    rw [List.map_cons, List.sum_cons, ← add_assoc] at small ⊢
    rw [List.foldlM_cons, checkInt_of_lt (by omega), ok_bind, ih tail (by omega) small]

end Claim

/-- What was paid to a ve for a week: no more than its share, once the week is over. -/
structure PaidShare (state : RewardState) (veId period : ℕ) : Prop where
  member : veId ∈ veIds state.ve.store
  due : period + regulatedPeriod ≤ regulatedUnixTime (state.distribution.claimLastTimestampByUser veId)
  passed : period + regulatedPeriod < state.distribution.claimLastTimestampByUser veId
  powered : 0 < powersAt state.ve.store (period + regulatedPeriod)
  share : state.paid veId period * powersAt state.ve.store (period + regulatedPeriod) ≤
    state.distribution.perPeriod period * state.ve.store.history.userPowerAt veId (period + regulatedPeriod)

/-- What holds at a time and a block height in every safe run. -/
structure Rewarded (now : ℕ × ℤ) (state : RewardState) : Prop where
  settled : Settled now.1 state.ve.store
  block_nonneg : 0 ≤ state.ve.store.history.last.block
  block_le : state.ve.store.history.last.block ≤ max 0 now.2
  accrued : state.distribution.accruedLastTimestamp ≤ now.1
  recorded : ∀ period, 0 ≤ state.distribution.perPeriod period
  claimed : ∀ veId, state.distribution.claimLastTimestampByUser veId ≤ now.1
  paid_nonneg : ∀ veId period, 0 ≤ state.paid veId period
  paid : ∀ veId period, state.paid veId period ≠ 0 → PaidShare state veId period

namespace Rewarded

variable {now : ℕ × ℤ} {state : RewardState}

theorem wait (rewarded : Rewarded now state) {later : ℕ × ℤ} (ordered : now ≤ later) : Rewarded later state :=
  { rewarded with
    settled := rewarded.settled.wait ordered.1
    block_le := rewarded.block_le.trans (max_le_max_left 0 ordered.2)
    accrued := rewarded.accrued.trans ordered.1
    claimed := fun veId => (rewarded.claimed veId).trans ordered.1 }

/-- A step of the ve module leaves the shares of past weeks as they were. -/
theorem veStep {ctx : Ctx} {action : Action} {ve : State} (rewarded : Rewarded (ctx.blockTime, ctx.blockHeight) state)
    (height : 0 ≤ ctx.blockHeight) (growing : Event.Growing state.ve ⟨ctx, action⟩)
    (ok : step state.ve ⟨ctx, action⟩ = .ok ve) :
    Rewarded (ctx.blockTime, ctx.blockHeight) { state with ve := ve } := by
  have settled : Settled (Event.time ⟨ctx, action⟩) state.ve.store := rewarded.settled
  have block : 0 ≤ ve.store.history.last.block ∧ ve.store.history.last.block ≤ max 0 ctx.blockHeight := by
    cases step_continued settled.sound ok with
    | same unchanged =>
      rw [unchanged]
      exact ⟨rewarded.block_nonneg, rewarded.block_le⟩
    | once appended =>
      rw [appended.last.2]
      exact ⟨height, le_max_right _ _⟩
    | twice _ second =>
      rw [second.last.2]
      exact ⟨height, le_max_right _ _⟩
  refine ⟨settled.step growing ok, block.1, block.2, rewarded.accrued, rewarded.recorded, rewarded.claimed,
    rewarded.paid_nonneg, fun veId period nonzero => ?_⟩
  have paid := rewarded.paid veId period nonzero
  have before : period + regulatedPeriod < ctx.blockTime := paid.passed.trans_le (rewarded.claimed veId)
  obtain ⟨users, powers⟩ := settled.step_powers ok before
  refine ⟨step_veIds settled.sound ok paid.member, paid.due, paid.passed, powers ▸ paid.powered, ?_⟩
  dsimp only
  rw [users, powers]
  exact paid.share

/-- The recorded amounts only grow while the pool holds at least what it held at the last call. -/
theorem distribute {ctx : Ctx} {distribution : Distribution}
    (rewarded : Rewarded (ctx.blockTime, ctx.blockHeight) state)
    (refilled : state.distribution.totalAmount ≤ poolBalance ctx state.ve.bank)
    (ok : distributePerPeriod ctx state.ve.bank state.distribution = .ok distribution) :
    Rewarded (ctx.blockTime, ctx.blockHeight) { state with distribution := distribution } := by
  have adds := distributePerPeriod_adds rewarded.accrued ok
  simp only [distributePerPeriod, ok_iffs] at ok
  obtain ⟨perPeriod, _, rfl⟩ := ok
  have grows : ∀ period, state.distribution.perPeriod period ≤ perPeriod period := by
    intro period
    exact (le_add_of_nonneg_right (added_nonneg (sub_nonneg.mpr refilled) period)).trans (adds period).ge
  refine { rewarded with
    accrued := le_rfl
    recorded := fun period => (rewarded.recorded period).trans (grows period)
    paid := fun veId period nonzero => ?_ }
  have paid := rewarded.paid veId period nonzero
  exact { paid with
    share := paid.share.trans (mul_le_mul_of_nonneg_right (grows period) (userPowerAt_nonneg _ _ _)) }

end Rewarded

/-- The weeks that a claim pays for. -/
def claimedWeeks (ctx : Ctx) (state : RewardState) (veId : ℕ) : List ℕ :=
  weeksFrom ctx.blockTime (regulatedUnixTime (state.distribution.claimLastTimestampByUser veId))

/-- A claim that is safe: not in the second in which a week starts, with the last checkpoint not too old to be
regulated, with some power at the start of every week since the last claim, and with amounts of at most 256 bits. -/
structure ClaimSafe (ctx : Ctx) (state : RewardState) (veId : ℕ) : Prop where
  inside : ¬ regulatedPeriod ∣ ctx.blockTime
  inRange : regulatedUnixTime ctx.blockTime + regulatedPeriod ≤ maxUnixTime
  within : WithinTwoWeeks ctx.blockTime state.ve.store.history
  powered : ∀ week, regulatedPeriod ∣ week →
    regulatedUnixTime (state.distribution.claimLastTimestampByUser veId) < week → week ≤ ctx.blockTime →
      ∃ other ∈ veIds state.ve.store, ∃ power, getVotingPower ctx state.ve.store.history other week 0 = .ok power ∧
        0 < power
  products : ∀ period ∈ claimedWeeks ctx state veId, ∀ power,
    getVotingPower ctx state.ve.store.history veId (period + regulatedPeriod) 0 = .ok power →
      (state.distribution.perPeriod period * power).natAbs < 2 ^ 256
  amounts : ((claimedWeeks ctx state veId).map state.distribution.perPeriod).sum < 2 ^ 256

/-- The conditions on each event of a run. Block heights are nonnegative signed 64-bit integers. -/
def RewardEvent.Safe (state : RewardState) (event : RewardEvent) : Prop :=
  (0 ≤ event.ctx.blockHeight ∧ event.ctx.blockHeight < 2 ^ 63) ∧
    match event.action with
    | .ve action => Event.Growing state.ve ⟨event.ctx, action⟩
    | .fund _ _ => True
    | .distribute => state.distribution.totalAmount ≤ poolBalance event.ctx state.ve.bank
    | .claim veId => ClaimSafe event.ctx state veId

section Claim

variable {ctx : Ctx} {state next : RewardState} {veId : ℕ} {owner : Address}

theorem growing_endBlock (state : State) (ctx : Ctx) : Event.Growing state ⟨ctx, .endBlock⟩ := by
  simp [Event.Growing]

/-- Regulating at the start of a claim succeeds. -/
theorem ClaimSafe.regulated (safe : ClaimSafe ctx state veId) (height : 0 ≤ ctx.blockHeight ∧ ctx.blockHeight < 2 ^ 63)
    (rewarded : Rewarded (ctx.blockTime, ctx.blockHeight) state) :
    ∃ history, endBlocker ctx state.ve.store.history = .ok history := by
  have nonneg := rewarded.block_nonneg
  have ordered : state.ve.store.history.last.block ≤ max 0 ctx.blockHeight := rewarded.block_le
  unfold endBlocker
  split
  · exact regulateCheckpoint_succeeds (rewarded.settled.sound.tracks.past _) safe.within safe.inRange (by omega) (by omega)
      0 0
  · exact ⟨_, rfl⟩

theorem step_endBlock {history : History} (regulated : endBlocker ctx state.ve.store.history = .ok history) :
    step state.ve ⟨ctx, .endBlock⟩ = .ok (state.setHistory history).ve := by
  simp only [step, regulated, ok_bind]
  rfl

theorem ClaimSafe.powersAt_pos (safe : ClaimSafe ctx state veId) {now : ℕ × ℤ} (rewarded : Rewarded now state) {week : ℕ}
    (whole : regulatedPeriod ∣ week)
    (later : regulatedUnixTime (state.distribution.claimLastTimestampByUser veId) < week) (reached : week ≤ ctx.blockTime) :
    0 < powersAt state.ve.store week := by
  obtain ⟨other, member, power, read, positive⟩ := safe.powered week whole later reached
  have named : other ≠ emptyVeId := Nat.one_le_iff_ne_zero.mp (Finset.mem_Ico.mp member).1
  have same := Except.ok.inj
    (read.symm.trans (rewarded.settled.userLog.getVotingPower_eq named (Nat.zero_lt_of_lt later) ctx))
  exact Finset.sum_pos' (fun veId _ => userPowerAt_nonneg _ veId week) ⟨other, member, same ▸ positive⟩

/-- Regulating keeps what makes the claim safe and what the claim reads of the store. -/
theorem ClaimSafe.setHistory (safe : ClaimSafe ctx state veId) (height : 0 ≤ ctx.blockHeight)
    (rewarded : Rewarded (ctx.blockTime, ctx.blockHeight) state) (member : veId ∈ veIds state.ve.store) {history : History}
    (regulated : endBlocker ctx state.ve.store.history = .ok history) :
    Rewarded (ctx.blockTime, ctx.blockHeight) (state.setHistory history) ∧
      (∀ week, regulatedPeriod ∣ week →
        regulatedUnixTime (state.distribution.claimLastTimestampByUser veId) < week → week ≤ ctx.blockTime →
          0 < powersAt (state.setHistory history).ve.store week) ∧
      ∀ period ∈ claimedWeeks ctx state veId,
        ProductFits (state.setHistory history).ve.store state.distribution.perPeriod veId period := by
  have ok := step_endBlock regulated
  have settled : Settled (Event.time ⟨ctx, .endBlock⟩) state.ve.store := rewarded.settled
  have past : ∀ week, regulatedPeriod ∣ week → week ≤ ctx.blockTime → week < ctx.blockTime := by
    intro week whole reached
    refine lt_of_le_of_ne reached ?_
    rintro rfl
    exact safe.inside whole
  refine ⟨rewarded.veStep height (growing_endBlock _ _) ok, fun week whole later reached => ?_, fun period listed => ?_⟩
  · rw [(settled.step_powers ok (past week whole reached)).2]
    exact safe.powersAt_pos rewarded whole later reached
  · obtain ⟨whole, _, reached⟩ := mem_weeksFrom (dvd_regulatedUnixTime _) listed
    have positive : 0 < period + regulatedPeriod := Nat.add_pos_right _ (by decide)
    have named : veId ≠ emptyVeId := Nat.one_le_iff_ne_zero.mp (Finset.mem_Ico.mp member).1
    have before := past _ (Dvd.dvd.add whole dvd_rfl) (reached.trans (regulatedUnixTime_le _))
    rw [ProductFits, (settled.step_powers ok before).1]
    exact safe.products period listed _ (settled.userLog.getVotingPower_eq named positive ctx)

/-- A claim is remembered with its time. -/
theorem Rewarded.setClaimLast {now : ℕ × ℤ} (rewarded : Rewarded now state) (veId : ℕ) :
    Rewarded now { state with distribution := state.distribution.setClaimLastTimestampByUser veId now.1 } := by
  have later : ∀ other, state.distribution.claimLastTimestampByUser other ≤
      update state.distribution.claimLastTimestampByUser veId now.1 other := by
    intro other
    rw [update_apply]
    split
    · exact rewarded.claimed other
    · exact le_rfl
  refine { rewarded with
    claimed := fun other => ?_
    paid := fun other period nonzero => ?_ }
  · simp only [Distribution.setClaimLastTimestampByUser, update_apply]
    split
    · exact le_rfl
    · exact rewarded.claimed other
  · have paid := rewarded.paid other period nonzero
    exact { paid with
      due := paid.due.trans (regulatedUnixTime_mono (later other))
      passed := paid.passed.trans_le (later other) }

/-- The payment of a claim enters the ledger week by week. -/
theorem recordPaid_apply {paid : ℕ → ℕ → ℤ} {keys : List ℕ} (nodup : keys.Nodup) (value : ℕ → ℤ) (other period : ℕ) :
    recordPaid paid veId (keys.map fun key => (key, value key)) other period =
      paid other period + if other = veId ∧ period ∈ keys then value period else 0 := by
  rw [recordPaid, update_apply]
  split
  · next same =>
    subst same
    dsimp only
    rw [sum_entries_of_key nodup]
    simp
  · next different => simp [different]

/-- The weeks that a claim pays for were not paid for before. -/
theorem Rewarded.pay (rewarded : Rewarded (ctx.blockTime, ctx.blockHeight) state) (member : veId ∈ veIds state.ve.store)
    (inside : ¬ regulatedPeriod ∣ ctx.blockTime)
    (powered : ∀ week, regulatedPeriod ∣ week →
      regulatedUnixTime (state.distribution.claimLastTimestampByUser veId) < week → week ≤ ctx.blockTime →
        0 < powersAt state.ve.store week) (bank : Bank) :
    Rewarded (ctx.blockTime, ctx.blockHeight)
      { ve := { state.ve with bank := bank }
        distribution := state.distribution.setClaimLastTimestampByUser veId ctx.blockTime
        paid := recordPaid state.paid veId
          ((weeksFrom ctx.blockTime (regulatedUnixTime (state.distribution.claimLastTimestampByUser veId))).map fun period =>
            (period, claimable state.ve.store state.distribution.perPeriod veId period)) } := by
  have marked := rewarded.setClaimLast veId
  have ledger := @recordPaid_apply veId state.paid _
    (weeksFrom_nodup ctx.blockTime (regulatedUnixTime (state.distribution.claimLastTimestampByUser veId)))
    (claimable state.ve.store state.distribution.perPeriod veId)
  refine { marked with
    paid_nonneg := fun other period => ?_
    paid := fun other period nonzero => ?_ }
  · dsimp only
    rw [ledger]
    refine add_nonneg (rewarded.paid_nonneg other period) ?_
    split
    · exact claimable_nonneg rewarded.recorded period
    · exact le_rfl
  · dsimp only at nonzero
    by_cases new : other = veId ∧ period ∈ weeksFrom ctx.blockTime
        (regulatedUnixTime (state.distribution.claimLastTimestampByUser veId))
    · obtain ⟨rfl, listed⟩ := new
      obtain ⟨whole, started, reached⟩ := mem_weeksFrom (dvd_regulatedUnixTime _) listed
      have positive : 0 < regulatedPeriod := by decide
      have unpaid : state.paid other period = 0 := by
        by_contra paid
        have due := (rewarded.paid other period paid).due
        omega
      have claimedNow : update state.distribution.claimLastTimestampByUser other ctx.blockTime other =
          ctx.blockTime := update_self ..
      have nextWeek : regulatedPeriod ∣ period + regulatedPeriod := Dvd.dvd.add whole dvd_rfl
      have within := reached.trans (regulatedUnixTime_le _)
      have notNow : period + regulatedPeriod ≠ ctx.blockTime := fun same => inside (same ▸ nextWeek)
      have some := powered _ nextWeek (by omega) within
      refine ⟨member, ?_, ?_, some, ?_⟩
      · exact reached.trans_eq (congrArg regulatedUnixTime claimedNow.symm)
      · exact (lt_of_le_of_ne within notNow).trans_eq claimedNow.symm
      · dsimp only
        rw [ledger, unpaid, zero_add, if_pos ⟨rfl, listed⟩]
        exact claimable_mul_le rewarded.recorded some
    · rw [ledger, if_neg new, add_zero] at nonzero
      have paid := marked.paid other period nonzero
      refine ⟨paid.member, paid.due, paid.passed, paid.powered, ?_⟩
      dsimp only
      rw [ledger, if_neg new, add_zero]
      exact paid.share

theorem Rewarded.claim (rewarded : Rewarded (ctx.blockTime, ctx.blockHeight) state) (height : 0 ≤ ctx.blockHeight)
    (safe : ClaimSafe ctx state veId) (member : veId ∈ veIds state.ve.store)
    (ok : Model.Ve.claim ctx state veId owner = .ok next) : Rewarded (ctx.blockTime, ctx.blockHeight) next := by
  simp only [Model.Ve.claim, bind_ok_iff] at ok
  obtain ⟨history, regulated, ok⟩ := ok
  obtain ⟨after, powered, products⟩ := safe.setHistory height rewarded member regulated
  have weeks := @claimWeeks_eq ctx _ (state.distribution.perPeriod) veId _ after.settled member safe.inside safe.inRange
    (dvd_regulatedUnixTime _) (regulatedUnixTime_mono (rewarded.claimed veId)) powered products
  split at ok
  · rw [pure_ok_iff] at ok
    exact ok ▸ after
  · rw [bind_ok_iff] at ok
    obtain ⟨entries, paidWeeks, ok⟩ := ok
    cases weeks.symm.trans paidWeeks
    rw [bind_ok_iff] at ok
    obtain ⟨amount, _, ok⟩ := ok
    split at ok
    · rw [pure_ok_iff] at ok
      exact ok ▸ after.setClaimLast veId
    · simp only [ok_iffs] at ok
      obtain ⟨coin, _, bank, _, rfl⟩ := ok
      exact after.pay member safe.inside powered bank

/-- The shares of the weeks can be added up. -/
theorem ClaimSafe.added (safe : ClaimSafe ctx state veId) (rewarded : Rewarded (ctx.blockTime, ctx.blockHeight) state)
    {store : Store} (member : veId ∈ veIds store)
    (powered : ∀ week, regulatedPeriod ∣ week →
      regulatedUnixTime (state.distribution.claimLastTimestampByUser veId) < week → week ≤ ctx.blockTime →
        0 < powersAt store week) :
    ∃ amount, ((claimedWeeks ctx state veId).map fun period =>
      (period, claimable store state.distribution.perPeriod veId period)).foldlM
        (fun amount week => checkInt (amount + week.2)) 0 = .ok amount := by
  have parts : ((claimedWeeks ctx state veId).map (claimable store state.distribution.perPeriod veId)).sum ≤
      ((claimedWeeks ctx state veId).map state.distribution.perPeriod).sum := by
    apply List.sum_le_sum
    intro period listed
    obtain ⟨whole, started, reached⟩ := mem_weeksFrom (dvd_regulatedUnixTime _) listed
    have positive : 0 < regulatedPeriod := by decide
    exact claimable_le rewarded.recorded member (powered _ (Dvd.dvd.add whole dvd_rfl) (by omega)
      (reached.trans (regulatedUnixTime_le _)))
  refine ⟨_, foldlM_checkInt ?_ le_rfl ?_⟩
  · intro entry inside
    obtain ⟨period, _, rfl⟩ := List.mem_map.mp inside
    exact claimable_nonneg rewarded.recorded period
  · rw [zero_add, List.map_map]
    exact parts.trans_lt safe.amounts

end Claim

theorem Rewarded.genesis (bank : Bank) (now : ℕ × ℤ) : Rewarded now (rewardGenesis bank) where
  settled := Settled.genesis.wait (Nat.zero_le now.1)
  block_nonneg := le_rfl
  block_le := le_max_left _ _
  accrued := Nat.zero_le now.1
  recorded := fun _ => le_rfl
  claimed := fun _ => Nat.zero_le now.1
  paid_nonneg := fun _ _ => le_rfl
  paid := fun _ _ nonzero => absurd rfl nonzero

theorem Rewarded.step {state next : RewardState} {event : RewardEvent}
    (rewarded : Rewarded (event.ctx.blockTime, event.ctx.blockHeight) state) (safe : RewardEvent.Safe state event)
    (ok : rewardStep state event = .ok next) : Rewarded (event.ctx.blockTime, event.ctx.blockHeight) next := by
  obtain ⟨ctx, action⟩ := event
  obtain ⟨height, safe⟩ := safe
  cases action with
  | ve action =>
    simp only [rewardStep, ok_iffs] at ok
    obtain ⟨ve, ok, rfl⟩ := ok
    exact rewarded.veStep height.1 safe ok
  | fund sender coins =>
    simp only [rewardStep, ok_iffs] at ok
    obtain ⟨bank, _, rfl⟩ := ok
    exact { rewarded with paid := fun veId period nonzero => { rewarded.paid veId period nonzero with } }
  | distribute =>
    simp only [rewardStep, ok_iffs] at ok
    obtain ⟨distribution, ok, rfl⟩ := ok
    exact rewarded.distribute safe ok
  | claim veId =>
    simp only [rewardStep] at ok
    split at ok
    · next owner owned =>
      have member := rewarded.settled.sound.owned veId (by rw [owned]; simp)
      exact rewarded.claim height.1 safe member ok
    · cases ok
      exact rewarded

end Rotofury.Soundness.Ve
