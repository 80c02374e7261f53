import Rotofury.Soundness.Ve.Prediction

/-! # The total voting power of the past

A regulation only appends system checkpoints: one at the block's time, and one before it at the end of the week where
that lies in between. The total at an earlier time is then read off the checkpoint before it. The query leaves out the
decay since that checkpoint where the next one has the same block, and the block at the end of a week is an estimate.
-/

namespace Rotofury.Model.Ve

/-- The end of the week of the last system checkpoint. -/
def History.weekEnd (history : History) : ℕ := regulatedUnixTime history.last.timestamp + regulatedPeriod

end Rotofury.Model.Ve

namespace Rotofury.Soundness.Ve

open Model.Sdk Model.Ve Except Function Machine

variable {history : History} {ctx : Ctx} {epoch t : ℕ} {state next : State} {event : Event} {events : List Event}

/-- The system checkpoints are in the order of their times. -/
structure SystemLog (history : History) : Prop where
  start : (history.checkpoint 0).timestamp = 0
  successive : ∀ epoch < history.epoch, (history.checkpoint epoch).timestamp ≤ (history.checkpoint (epoch + 1)).timestamp

theorem SystemLog.ordered (logged : SystemLog history) (earlier later : ℕ) (before : earlier ≤ later)
    (inside : later ≤ history.epoch) :
    (history.checkpoint earlier).timestamp ≤ (history.checkpoint later).timestamp := by
  induction later, before using Nat.le_induction with
  | base => exact le_rfl
  | succ later _ ih => exact (ih (by omega)).trans (logged.successive later inside)

/-- The blocks that a regulation counts from the last checkpoint to the end of its week, in proportion to the time. -/
def blocksToWeekEnd (ctx : Ctx) (history : History) : ℤ :=
  ((ctx.blockHeight - history.last.block) * Dec.precision / (ctx.blockTime - history.last.timestamp : ℕ) *
    (history.weekEnd - history.last.timestamp : ℕ)) / Dec.precision

/-- The checkpoints that a regulation appends. -/
inductive Appended (ctx : Ctx) (history next : History) : Prop
  | one {point : Checkpoint} (epoch : next.epoch = history.epoch + 1)
      (checkpoint : next.checkpoint = update history.checkpoint (history.epoch + 1) point)
      (atNow : point.timestamp = ctx.blockTime) (block : point.block = ctx.blockHeight)
      (sameWeek : history.epoch = 0 ∨ ctx.blockTime ≤ history.weekEnd)
  | two {weekly point : Checkpoint} (epoch : next.epoch = history.epoch + 2)
      (checkpoint : next.checkpoint =
        update (update history.checkpoint (history.epoch + 1) weekly) (history.epoch + 2) point)
      (atNow : point.timestamp = ctx.blockTime) (block : point.block = ctx.blockHeight)
      (started : 0 < history.epoch) (passed : history.weekEnd < ctx.blockTime)
      (within : ctx.blockTime ≤ history.weekEnd + regulatedPeriod) {blocks : ℤ}
      (counted : history.last.block < ctx.blockHeight → blocks = blocksToWeekEnd ctx history)
      (carried : weekly = history.last.carry history.weekEnd (history.slopeChange history.weekEnd)
        (history.last.block + blocks))

section Rounds

variable {ctx : Ctx} {initial point : Checkpoint} {slope : Dec} {rounds epoch ti : ℕ} {history : History}
  {result : History × ℕ × Checkpoint}

/-- A round ends the loop at the block's time or carries the checkpoint to the end of the week. -/
theorem regulateRounds_cases (ok : regulateRounds ctx initial slope (rounds + 1) history epoch ti point = .ok result) :
    (ctx.blockTime ≤ ti + regulatedPeriod ∧ ∃ last, result = (history, epoch + 1, last) ∧
        last.timestamp = ctx.blockTime ∧ last.block = ctx.blockHeight) ∨
      ti + regulatedPeriod < ctx.blockTime ∧ ∃ blocks,
        (slope.mulInt (toInt64 (subUint64 (ti + regulatedPeriod) initial.timestamp))).truncateInt64 = .ok blocks ∧
        let next := point.carry (ti + regulatedPeriod) (history.slopeChange (ti + regulatedPeriod)) (initial.block + blocks)
        regulateRounds ctx initial slope rounds (history.setCheckpoint (epoch + 1) next) (epoch + 1) (ti + regulatedPeriod)
          next = .ok result := by
  simp only [regulateRounds, bind_ok_iff, nextRegulatedUnixTime_ok_iff] at ok
  obtain ⟨week, ⟨_, _, rfl⟩, blocks, elapsed, ok⟩ := ok
  by_cases early : ctx.blockTime < ti + regulatedPeriod
  · simp only [early, if_true, pure_ok_iff] at ok
    exact .inl ⟨early.le, _, ok.symm, rfl, rfl⟩
  · simp only [early, if_false] at ok elapsed
    split at ok
    · next reached =>
      rw [pure_ok_iff] at ok
      exact .inl ⟨reached.ge, _, ok.symm, reached, rfl⟩
    · next more => exact .inr ⟨by omega, blocks, elapsed, ok⟩

end Rounds

/-- The number of blocks in the arithmetic of the source is that of integers. -/
theorem elapsed_eq_blocksToWeekEnd {slope : Dec} {blocks : ℤ} (later : history.last.block < ctx.blockHeight)
    (passed : history.weekEnd < ctx.blockTime) (sloped : blockSlope ctx history.last = .ok slope)
    (elapsed : (slope.mulInt (toInt64 (subUint64 history.weekEnd history.last.timestamp))).truncateInt64 = .ok blocks) :
    blocks = blocksToWeekEnd ctx history := by
  have timeBound := ctx.time_lt
  have after : history.last.timestamp < history.weekEnd := lt_regulatedUnixTime_add _
  have before : history.last.timestamp < ctx.blockTime := after.trans passed
  have lapse : toInt64 (subUint64 ctx.blockTime history.last.timestamp) = (ctx.blockTime - history.last.timestamp : ℕ) :=
    toInt64_subUint64 before.le (by omega) (by omega)
  have lapsePos : (0 : ℤ) < (ctx.blockTime - history.last.timestamp : ℕ) := by omega
  have heightNonneg : 0 ≤ (ctx.blockHeight - history.last.block) * Dec.precision :=
    mul_nonneg (by omega) (Int.natCast_nonneg _)
  rw [blockSlope, if_pos before, lapse, Dec.quoInt, if_neg lapsePos.ne'] at sloped
  cases sloped
  simp only [Dec.truncateInt64, ok_iffs] at elapsed
  obtain ⟨_, _, rfl⟩ := elapsed
  have share : 0 ≤ (ctx.blockHeight - history.last.block) * Dec.precision / (ctx.blockTime - history.last.timestamp : ℕ) *
      (history.weekEnd - history.last.timestamp : ℕ) :=
    mul_nonneg (Int.ediv_nonneg heightNonneg lapsePos.le) (Int.natCast_nonneg _)
  rw [Dec.truncateInt, Dec.mulInt, Dec.ofInt, toInt64_subUint64 after.le (by omega) (by omega), blocksToWeekEnd,
    Int.tdiv_eq_ediv_of_nonneg heightNonneg, Int.tdiv_eq_ediv_of_nonneg share]

theorem regulateCheckpoint_appended {next : History} {slopeChange biasChange : ℤ}
    (ok : regulateCheckpoint ctx history slopeChange biasChange = .ok next) : Appended ctx history next := by
  simp only [regulateCheckpoint, ok_iffs, Prod.exists] at ok
  obtain ⟨slope, sloped, middle, epoch, point, rounds, rfl⟩ := ok
  have now := lt_regulatedUnixTime_add ctx.blockTime
  rcases Nat.eq_zero_or_pos history.epoch with none | started
  · have start : history.regulationStart ctx = ⟨0, 0, ctx.blockTime, ctx.blockHeight⟩ := if_neg (by omega)
    rw [start] at rounds
    rcases regulateRounds_cases rounds with ⟨_, last, same, atNow, block⟩ | ⟨late, _⟩
    · cases same
      exact .one rfl rfl atNow block (.inl none)
    · exact absurd late (by dsimp only; omega)
  · have start : history.regulationStart ctx = history.last := if_pos started
    rw [start] at rounds sloped
    rcases regulateRounds_cases rounds with ⟨soon, last, same, atNow, block⟩ | ⟨passed, blocks, elapsed, more⟩
    · cases same
      exact .one rfl rfl atNow block (.inr soon)
    · rcases regulateRounds_cases more with ⟨soon, last, same, atNow, block⟩ | ⟨_, _, _, broken⟩
      · cases same
        exact .two rfl rfl atNow block started passed soon
          (fun later => elapsed_eq_blocksToWeekEnd later passed sloped elapsed) rfl
      · simp [regulateRounds] at broken

theorem regulateUserCheckpoint_appended {next : History} {veId : ℕ} {lockedOld lockedNew : LockedBalance}
    (ok : regulateUserCheckpoint ctx history veId lockedOld lockedNew = .ok next) : Appended ctx history next := by
  simp only [regulateUserCheckpoint, ok_iffs] at ok
  obtain ⟨_, _, _, _, middle, regulated, rfl⟩ := ok
  obtain ⟨epochEq, checkpointEq, _, _⟩ := scheduleSlopeChanges_frame middle ctx lockedOld lockedNew
    (userPoint ctx lockedOld).slope (userPoint ctx lockedNew).slope
  -- the schedule and the user's checkpoint are not part of the log
  cases regulateCheckpoint_appended regulated with
  | one epoch checkpoint atNow block sameWeek =>
    exact .one (epochEq.trans epoch) (checkpointEq.trans checkpoint) atNow block sameWeek
  | two epoch checkpoint atNow block started passed within counted carried =>
    exact .two (epochEq.trans epoch) (checkpointEq.trans checkpoint) atNow block started passed within counted carried

namespace Appended

variable {ctx : Ctx} {history next : History}

variable (appended : Appended ctx history next)
include appended

theorem epoch_lt : history.epoch < next.epoch := by
  cases appended <;> omega

theorem kept (inside : epoch ≤ history.epoch) : next.checkpoint epoch = history.checkpoint epoch := by
  cases appended with
  | one _ checkpoint => rw [checkpoint, update_of_ne (by omega)]
  | two _ checkpoint => rw [checkpoint, update_of_ne (by omega), update_of_ne (by omega)]

theorem last : next.last.timestamp = ctx.blockTime ∧ next.last.block = ctx.blockHeight := by
  cases appended with
  | one epoch checkpoint atNow block =>
    rw [History.last, epoch, checkpoint, update_self]
    exact ⟨atNow, block⟩
  | two epoch checkpoint atNow block =>
    rw [History.last, epoch, checkpoint, update_self]
    exact ⟨atNow, block⟩

/-- The first checkpoint that is added is later than every time of the log before now. -/
theorem lt_added (recorded : t ≤ history.last.timestamp) (past : t < ctx.blockTime) :
    t < (next.checkpoint (history.epoch + 1)).timestamp := by
  cases appended with
  | one _ checkpoint atNow =>
    rw [checkpoint, update_self, atNow]
    exact past
  | two _ checkpoint _ _ _ _ _ _ carried =>
    rw [checkpoint, update_of_ne (by omega), update_self, carried]
    exact recorded.trans_lt (lt_regulatedUnixTime_add _)

theorem logged (logged : SystemLog history) (past : history.last.timestamp ≤ ctx.blockTime) : SystemLog next := by
  constructor
  · rw [appended.kept (Nat.zero_le _)]
    exact logged.start
  · intro epoch inside
    rcases lt_trichotomy epoch history.epoch with old | rfl | new
    · rw [appended.kept old.le, appended.kept old]
      exact logged.successive epoch old
    · rw [appended.kept le_rfl]
      rcases past.eq_or_lt with same | before
      · cases appended with
        | one _ checkpoint atNow =>
          rw [checkpoint, update_self, atNow]
          exact past
        | two _ _ _ _ _ passed =>
          exact absurd (passed.trans_eq same.symm) (not_lt.mpr (lt_regulatedUnixTime_add _).le)
      · exact (appended.lt_added le_rfl before).le
    · cases appended with
      | one nextEpoch => omega
      | two nextEpoch checkpoint atNow _ _ passed _ _ carried =>
        obtain rfl : epoch = history.epoch + 1 := by omega
        rw [checkpoint, update_self, update_of_ne (by omega), update_self, atNow, carried]
        exact passed.le

end Appended

section Query

variable {history next : History} {t : ℕ}

theorem getTotalVotingPower_past (positive : 0 < t) (recorded : t ≤ history.last.timestamp) (ctx : Ctx) :
    getTotalVotingPower ctx history t 0 = .ok (max 0 (history.pastPower ctx t)) := by
  simp only [getTotalVotingPower, if_pos positive, if_pos recorded]
  rfl

section

variable (logged : SystemLog history)
include logged

theorem SystemLog.exists_between (before : t < history.last.timestamp) :
    ∃ epoch < history.epoch, (history.checkpoint epoch).timestamp ≤ t ∧
      t < (history.checkpoint (epoch + 1)).timestamp := by
  obtain ⟨inside, reached, beyond⟩ := findTimeEpoch_spec (logged.start.trans_le (Nat.zero_le t)) logged.ordered
  rcases inside.eq_or_lt with atEnd | earlier
  · rw [atEnd] at reached
    exact absurd reached (not_le.mpr before)
  · exact ⟨_, earlier, reached, beyond _ (Nat.lt_succ_self _) earlier⟩

/-- Between two checkpoints the first one decays, unless they are of the same block. -/
theorem SystemLog.pastPower_between (inside : epoch < history.epoch)
    (reached : (history.checkpoint epoch).timestamp ≤ t) (before : t < (history.checkpoint (epoch + 1)).timestamp)
    (small : t < 2 ^ 63) (ctx : Ctx) :
    history.pastPower ctx t = (history.checkpoint epoch).bias - (history.checkpoint epoch).slope *
      if (history.checkpoint epoch).block ≠ (history.checkpoint (epoch + 1)).block then
        ((t - (history.checkpoint epoch).timestamp : ℕ) : ℤ) else 0 := by
  have found : findTimeEpoch history.checkpoint t history.epoch = epoch := by
    apply findTimeEpoch_eq (logged.start.trans_le (Nat.zero_le t)) logged.ordered inside.le reached
    exact fun later after within => before.trans_le (logged.ordered _ _ after within)
  simp only [History.pastPower, found, if_pos inside]
  rw [toInt64_subUint64 reached (by omega) (by omega)]

theorem SystemLog.pastPower_last (atLast : t = history.last.timestamp) (small : t < 2 ^ 63) (ctx : Ctx) :
    history.pastPower ctx t = history.last.bias := by
  have found : findTimeEpoch history.checkpoint t history.epoch = history.epoch := by
    apply findTimeEpoch_eq (logged.start.trans_le (Nat.zero_le t)) logged.ordered le_rfl atLast.ge
    exact fun later after within => absurd after (not_lt.mpr within)
  simp only [History.pastPower, found]
  rw [← History.last, toInt64_subUint64 atLast.ge (by omega) (by omega), atLast]
  simp

/-- Where the block makes no difference the first one decays. -/
theorem SystemLog.pastPower_decayed (inside : epoch < history.epoch)
    (reached : (history.checkpoint epoch).timestamp ≤ t) (before : t < (history.checkpoint (epoch + 1)).timestamp)
    (small : t < 2 ^ 63) (ctx : Ctx)
    (decays : (history.checkpoint epoch).block = (history.checkpoint (epoch + 1)).block →
      (history.checkpoint epoch).slope = 0 ∨ (history.checkpoint epoch).timestamp = t) :
    history.pastPower ctx t = (history.checkpoint epoch).bias -
      (history.checkpoint epoch).slope * (t - (history.checkpoint epoch).timestamp : ℕ) := by
  rw [logged.pastPower_between inside reached before small]
  split
  · rfl
  · next same =>
    rcases decays (not_not.mp same) with flat | atTime
    · rw [flat, zero_mul, zero_mul]
    · rw [atTime, Nat.sub_self, Nat.cast_zero]

/-- Where every time of the log is in order the total does not depend on the block that asks. -/
theorem SystemLog.total_ctx (small : t < 2 ^ 63) (asked answered : Ctx) :
    getTotalVotingPower asked history t 0 = getTotalVotingPower answered history t 0 := by
  have same : t ≤ history.last.timestamp → history.pastPower asked t = history.pastPower answered t := by
    intro recorded
    rcases recorded.eq_or_lt with atLast | before
    · rw [logged.pastPower_last atLast small, logged.pastPower_last atLast small]
    · obtain ⟨epoch, inside, reached, sooner⟩ := logged.exists_between before
      rw [logged.pastPower_between inside reached sooner small, logged.pastPower_between inside reached sooner small]
  simp only [getTotalVotingPower]
  by_cases recorded : t ≤ history.last.timestamp
  · simp only [recorded, if_true, same recorded, if_false, lt_irrefl]
  · simp only [recorded, if_false, lt_irrefl]

end

/-- A regulation does not change the totals that were read off the log. -/
theorem Appended.total_recorded (appended : Appended ctx history next) (logged : SystemLog history)
    (ordered : history.last.timestamp ≤ ctx.blockTime) (positive : 0 < t) (recorded : t ≤ history.last.timestamp)
    (past : t < ctx.blockTime) (asked : Ctx) :
    getTotalVotingPower asked next t 0 = getTotalVotingPower asked history t 0 := by
  have small : t < 2 ^ 63 := past.trans ctx.time_lt
  have loggedNext := appended.logged logged ordered
  have after : t ≤ next.last.timestamp := appended.last.1 ▸ past.le
  rw [getTotalVotingPower_past positive after, getTotalVotingPower_past positive recorded]
  rcases recorded.eq_or_lt with atLast | before
  · have kept : next.checkpoint history.epoch = history.last := appended.kept le_rfl
    have decayed := loggedNext.pastPower_decayed appended.epoch_lt (kept ▸ atLast.ge) (appended.lt_added recorded past)
      small asked fun _ => .inr (kept ▸ atLast.symm)
    rw [decayed, logged.pastPower_last atLast small, kept, atLast]
    simp
  · -- both logs are read at the same epoch
    obtain ⟨epoch, inside, reached, sooner⟩ := logged.exists_between before
    have read := loggedNext.pastPower_between (inside.trans appended.epoch_lt) (appended.kept inside.le ▸ reached)
      (appended.kept inside ▸ sooner) small asked
    rw [read, logged.pastPower_between inside reached sooner small, appended.kept inside.le, appended.kept inside]

end Query

section Predicted

variable {ids : Finset ℕ} {locks : ℕ → LockedBalance} {ctx : Ctx} {history next : History} {t : ℕ}

/-- What the total at a time between the last checkpoint and a regulation depends on: the block of the regulation is a
later one, and the end of the week counts at least one block, unless nothing decays up to it. -/
def CountedAt (ctx : Ctx) (history : History) (t : ℕ) : Prop :=
  history.epoch = 0 ∨ regulatedPeriod ∣ t ∨ history.last.block < ctx.blockHeight ∧
    (t < history.weekEnd → history.weekEnd < ctx.blockTime →
      history.last.slope = 0 ∨ 1 ≤ blocksToWeekEnd ctx history)

/-- The blocks counted to the end of the week do not reach the block of the regulation. -/
theorem blocksToWeekEnd_lt (later : history.last.block < ctx.blockHeight) (passed : history.weekEnd < ctx.blockTime) :
    blocksToWeekEnd ctx history < ctx.blockHeight - history.last.block := by
  have after : history.last.timestamp < history.weekEnd := lt_regulatedUnixTime_add _
  have shorter : ((history.weekEnd - history.last.timestamp : ℕ) : ℤ) < (ctx.blockTime - history.last.timestamp : ℕ) := by
    omega
  have heightPos : 0 < (ctx.blockHeight - history.last.block) * Dec.precision :=
    mul_pos (by omega) (by decide)
  unfold blocksToWeekEnd
  set perSecond := (ctx.blockHeight - history.last.block) * Dec.precision / (ctx.blockTime - history.last.timestamp : ℕ)
  have nonneg : 0 ≤ perSecond := Int.ediv_nonneg heightPos.le (by omega)
  have whole : perSecond * (ctx.blockTime - history.last.timestamp : ℕ) ≤
      (ctx.blockHeight - history.last.block) * Dec.precision := Int.ediv_mul_le _ (by omega)
  apply Int.ediv_lt_of_lt_mul (by decide)
  rcases nonneg.eq_or_lt with none | some
  · rw [← none, zero_mul]
    exact heightPos
  · exact (mul_lt_mul_of_pos_left shorter some).trans_le whole

/-- A checkpoint on the way decays to the carried bias within its week. -/
theorem Carried.decays {origin : ℕ} {bias excess : ℤ} {point : Checkpoint}
    (carried : Carried ids locks origin bias excess point)
    (regulated : ∀ i ∈ ids, regulatedPeriod ∣ (locks i).endTime) (excessNonneg : 0 ≤ excess)
    (ordered : point.timestamp ≤ t) (within : t ≤ regulatedUnixTime point.timestamp + regulatedPeriod) :
    max 0 (point.bias - point.slope * (t - point.timestamp : ℕ)) =
      max 0 (carriedBias ids locks origin bias excess t) := by
  have liveNonneg := @Math.liveSlope_nonneg _ ids (lines locks) (fun i _ => (locks i).line_slope_nonneg) point.timestamp
  have falls : 0 ≤ (Math.liveSlope ids (lines locks) point.timestamp + excess) * (t - point.timestamp : ℕ) :=
    mul_nonneg (add_nonneg liveNonneg excessNonneg) (Int.natCast_nonneg _)
  rw [carriedBias_advance regulated ordered within, carried.bias_eq, carried.slope_eq]
  omega

/-- The last checkpoint is on the way, and so is the one at the end of its week. -/
theorem Tracks.carried_weekEnd (tracks : Tracks ids locks ctx.blockTime history) (started : 0 < history.epoch)
    (passed : history.weekEnd < ctx.blockTime) (block : ℤ) :
    Carried ids locks history.last.timestamp history.last.bias (slopeExcess ids locks history)
      (history.last.carry history.weekEnd (history.slopeChange history.weekEnd) block) := by
  have after : history.last.timestamp < history.weekEnd := lt_regulatedUnixTime_add _
  have carried := tracks.carried_start.1
  rw [History.regulationStart, if_pos started] at carried
  exact carried.carry tracks.regulated tracks.slopeExcess_nonneg after.le (passed.trans ctx.time_lt)
    (.inr ⟨rfl, tracks.scheduled _ after⟩) block

/-- A regulation writes the totals that were predicted for the time before it. -/
theorem Appended.pastPower_predicted (appended : Appended ctx history next)
    (tracks : Tracks ids locks ctx.blockTime history) (logged : SystemLog history)
    (after : history.last.timestamp < t) (past : t < ctx.blockTime) (counted : CountedAt ctx history t) (asked : Ctx) :
    max 0 (next.pastPower asked t) = max 0 (systemPower ids locks history t) := by
  have small : t < 2 ^ 63 := past.trans ctx.time_lt
  have loggedNext := appended.logged logged (tracks.past _)
  have kept : next.checkpoint history.epoch = history.last := appended.kept le_rfl
  have inside := appended.epoch_lt
  have weekAfter : regulatedPeriod ∣ t → history.weekEnd ≤ t := fun week =>
    (apart_of_regulated week le_rfl).resolve_left (not_le.mpr after)
  rcases Nat.eq_zero_or_pos history.epoch with none | started
  · -- nothing was locked before
    cases appended with
    | one nextEpoch checkpoint atNow =>
      have added := congrFun checkpoint (history.epoch + 1)
      rw [update_self] at added
      rw [loggedNext.pastPower_between inside (kept ▸ after.le) (by rwa [added, atNow]) small, kept,
        (tracks.start none).1, tracks.systemPower_start none]
      simp [Checkpoint.zero]
    | two _ _ _ _ started => omega
  · have carried := tracks.carried_start.1
    rw [History.regulationStart, if_pos started] at carried
    cases appended with
    | one nextEpoch checkpoint atNow block sameWeek =>
      have added := congrFun checkpoint (history.epoch + 1)
      rw [update_self] at added
      have sameWeek : ctx.blockTime ≤ history.weekEnd := sameWeek.resolve_left started.ne'
      rw [loggedNext.pastPower_decayed inside (kept ▸ after.le) (by rwa [added, atNow]) small, kept]
      · exact carried.decays tracks.regulated tracks.slopeExcess_nonneg after.le (past.le.trans sameWeek)
      · rw [kept, added, block]
        intro same
        rcases counted with none | week | ⟨later, _⟩
        · omega
        · exact absurd (weekAfter week) (not_le.mpr (past.trans_le sameWeek))
        · omega
    | two nextEpoch checkpoint atNow block started passed within blocks weeklyCarry =>
      have final := congrFun checkpoint (history.epoch + 2)
      have weekly := congrFun checkpoint (history.epoch + 1)
      rw [update_self] at final
      rw [update_of_ne (by omega), update_self, weeklyCarry] at weekly
      rcases Nat.lt_or_ge t history.weekEnd with before | reached
      · rw [loggedNext.pastPower_decayed inside (kept ▸ after.le) (by rwa [weekly]) small, kept]
        · exact carried.decays tracks.regulated tracks.slopeExcess_nonneg after.le before.le
        · rw [kept, weekly]
          intro same
          simp only [Checkpoint.carry] at same
          rcases counted with none | week | ⟨later, counted⟩
          · omega
          · exact absurd (weekAfter week) (not_le.mpr before)
          · rcases counted before passed with flat | some
            · exact .inl flat
            · have := blocks later
              omega
      · have onWeek : regulatedUnixTime history.weekEnd = history.weekEnd :=
          regulatedUnixTime_eq_iff.mpr (Dvd.dvd.add (Nat.dvd_mul_left _ _) dvd_rfl)
        have second : history.epoch + 1 < next.epoch := by omega
        rw [loggedNext.pastPower_decayed second (by rwa [weekly]) (by rwa [final, atNow]) small, weekly]
        · refine (tracks.carried_weekEnd started passed _).decays tracks.regulated tracks.slopeExcess_nonneg reached ?_
          simp only [Checkpoint.carry, onWeek]
          omega
        · rw [weekly, final, block]
          intro same
          simp only [Checkpoint.carry] at same ⊢
          rcases counted with none | week | ⟨later, _⟩
          · omega
          · have sameWeek := apart_of_regulated week (onWeek.symm ▸ within)
            exact .inr (by omega)
          · have := blocks later
            have := blocksToWeekEnd_lt later passed
            omega

/-- A regulation does not change the total at any earlier time. -/
theorem Appended.total_eq (appended : Appended ctx history next) (tracks : Tracks ids locks ctx.blockTime history)
    (logged : SystemLog history) (positive : 0 < t) (past : t < ctx.blockTime) (inRange : InRange ctx.blockTime)
    (counted : history.last.timestamp < t → CountedAt ctx history t) (asked : Ctx) :
    getTotalVotingPower asked next t 0 = getTotalVotingPower asked history t 0 := by
  rcases Nat.lt_or_ge history.last.timestamp t with after | recorded
  · have recordedNow : t ≤ next.last.timestamp := appended.last.1 ▸ past.le
    rw [getTotalVotingPower_past positive recordedNow, getTotalVotingPower_future tracks after (inRange.of_le past.le),
      appended.pastPower_predicted tracks logged after past (counted after)]
  · exact appended.total_recorded logged (tracks.past _) positive recorded past asked

end Predicted

section Steps

/-- The log is left alone or regulated, twice in a merge. -/
inductive Continued (ctx : Ctx) (history next : History) : Prop
  | same (unchanged : next = history)
  | once (appended : Appended ctx history next)
  | twice {middle : History} (first : Appended ctx history middle) (second : Appended ctx middle next)

theorem step_continued (sound : Sound event.time state.store) (ok : step state event = .ok next) :
    Continued event.ctx state.store.history next.store.history := by
  cases step_cases sound ok with
  | quiet history => exact .same history
  | regulated ok => exact .once (regulateCheckpoint_appended ok)
  | grown created step =>
    have appended := regulateUserCheckpoint_appended step.regulated
    rcases created with rfl | ⟨receiver, rfl⟩
    · exact .once appended
    · exact .once appended
  | merged _ step =>
    exact .twice (regulateUserCheckpoint_appended step.burned.regulated)
      (regulateUserCheckpoint_appended step.deposited.regulated)
  | slashed _ step => exact .once (regulateUserCheckpoint_appended step.regulated)
  | slashedFresh _ _ _ regulated => exact .once (regulateUserCheckpoint_appended regulated)

/-- The event regulates the system checkpoint: at the end of a block only a week after the last one. -/
def Regulating (state : State) (event : Event) : Prop :=
  Action.Regulates event.action ∧
    (event.action = .endBlock → regulatedPeriod ≤ event.time - state.store.history.last.timestamp)

/-- Other events leave the log alone. -/
theorem history_of_not_regulating (sound : Sound event.time state.store) (idle : ¬ Regulating state event)
    (ok : step state event = .ok next) :
    next.store.history = state.store.history := by
  obtain ⟨ctx, action⟩ := event
  cases action with
  | send msg =>
    simp only [step, ok_iffs] at ok
    obtain ⟨store, sent, rfl⟩ := ok
    simp only [send, Store.transferNft, ok_iffs] at sent
    obtain ⟨_, _, _, _, _, _, rfl⟩ := sent
    rfl
  | attach veId attached voted =>
    simp only [step, Except.ok.injEq] at ok
    rw [← ok]
  | endBlock =>
    have early : ¬ regulatedPeriod ≤ ctx.blockTime - state.store.history.last.timestamp := fun late =>
      idle ⟨by simp [Action.Regulates], fun _ => late⟩
    simp only [step, ok_iffs] at ok
    obtain ⟨history, ended, rfl⟩ := ok
    have last : (state.store.history.last).timestamp ≤ ctx.blockTime := sound.tracks.past _
    have timeBound := ctx.time_lt
    have notYet : ¬ regulatedPeriod ≤ subUint64 ctx.blockTime state.store.history.last.timestamp := by
      unfold subUint64
      omega
    rw [endBlocker, if_neg notYet] at ended
    cases ended
    rfl
  | _ => exact absurd ⟨by simp [Action.Regulates], by simp⟩ idle

/-- A step leaves the total at every earlier time as it was. -/
theorem step_total (sound : Sound event.time state.store) (reached : LastInRange state.store.history)
    (logged : SystemLog state.store.history) (ok : step state event = .ok next) (positive : 0 < t)
    (past : t < event.time) (counted : Regulating state event → state.store.history.last.timestamp < t →
      CountedAt event.ctx state.store.history t) (asked : Ctx) :
    getTotalVotingPower asked next.store.history t 0 = getTotalVotingPower asked state.store.history t 0 := by
  by_cases regulating : Regulating state event
  · have inRange : next.store.history.last.timestamp = event.time → InRange event.time := by
      intro atNow
      have nextReached := lastInRange_step sound reached ok
      rw [LastInRange, atNow] at nextReached
      exact nextReached.resolve_left (by omega)
    cases step_continued sound ok with
    | same unchanged => rw [unchanged]
    | once appended =>
      exact appended.total_eq sound.tracks logged positive past (inRange appended.last.1) (counted regulating) _
    | twice first second =>
      have ordered := first.last.1.le
      rw [second.total_recorded (first.logged logged (sound.tracks.past _)) ordered positive (first.last.1 ▸ past.le) past]
      exact first.total_eq sound.tracks logged positive past (inRange second.last.1) (counted regulating) _
  · rw [history_of_not_regulating sound regulating ok]

end Steps

section Runs

/-- Events in blocks: those of one block have its height and its second, later blocks have greater ones. -/
def InBlocks (events : List Event) : Prop :=
  events.Pairwise fun earlier later =>
    earlier.time = later.time ∧ earlier.ctx.blockHeight = later.ctx.blockHeight ∨
      earlier.time < later.time ∧ earlier.ctx.blockHeight < later.ctx.blockHeight

theorem InBlocks.chronological (blocks : InBlocks events) :
    Chronological Event.time events :=
  blocks.imp fun order => by
    rcases order with ⟨same, _⟩ | ⟨before, _⟩
    · exact same.le
    · exact before.le

/-- A regulation that passes the end of the last checkpoint's week counts a block up to it, unless nothing decays. -/
def CountsBlocks (state : State) (event : Event) : Prop :=
  Regulating state event → 0 < state.store.history.epoch → state.store.history.weekEnd < event.time →
    state.store.history.last.slope = 0 ∨ 1 ≤ blocksToWeekEnd event.ctx state.store.history

theorem step_systemLog (sound : Sound event.time state.store) (logged : SystemLog state.store.history)
    (ok : step state event = .ok next) : SystemLog next.store.history := by
  have past : state.store.history.last.timestamp ≤ event.ctx.blockTime := sound.tracks.past _
  cases step_continued sound ok with
  | same unchanged => exact unchanged ▸ logged
  | once appended => exact appended.logged logged past
  | twice first second => exact second.logged (first.logged logged past) first.last.1.le

theorem run_systemLog (bank : Bank) (chronological : Chronological Event.time events) :
    SystemLog (run bank events).store.history := by
  apply replay_throughout (fun state : State => SystemLog state.store.history)
    (fun state event => Sound event.time state.store)
  · exact fun state event next logged sound ok => step_systemLog sound logged ok
  · exact ⟨rfl, fun epoch inside => absurd inside (Nat.not_lt_zero _)⟩
  · intro before event after split
    obtain ⟨ordered, sooner⟩ := chronological.before split
    exact run_sound bank ordered sooner

/-- The last system checkpoint is one of the block in which it was written. -/
theorem run_lastBlock (bank : Bank) (chronological : Chronological Event.time events) :
    (run bank events).store.history.epoch = 0 ∨ ∃ event ∈ events,
      (run bank events).store.history.last.timestamp = event.time ∧
        (run bank events).store.history.last.block = event.ctx.blockHeight := by
  induction events using List.reverseRecOn with
  | nil => exact .inl rfl
  | append_singleton before event ih =>
    obtain ⟨ordered, sooner⟩ := chronological.before rfl
    have sound := run_sound bank ordered sooner
    have step : run bank (before ++ [event]) = advance step (run bank before) event := replay_concat ..
    have earlier := ih ordered
    have kept : (run bank (before ++ [event])).store.history = (run bank before).store.history ∨
        (run bank (before ++ [event])).store.history.last.timestamp = event.time ∧
          (run bank (before ++ [event])).store.history.last.block = event.ctx.blockHeight := by
      rw [step]
      rcases advance_cases Model.Ve.step (run bank before) event with ok | unchanged
      · cases step_continued sound ok with
        | same unchanged => exact .inl unchanged
        | once appended => exact .inr appended.last
        | twice first second => exact .inr second.last
      · exact .inl (by rw [unchanged])
    rcases kept with kept | written
    · rw [kept]
      refine earlier.imp_right ?_
      rintro ⟨writer, inside, atTime⟩
      exact ⟨writer, by simp [inside], atTime⟩
    · exact .inr ⟨event, by simp, written⟩

/-- In every run whose blocks each have their own second and whose regulations count a block to the end of a week
that they pass, the total at a time up to a block is the same after every later block. -/
theorem totalVotingPower_immutable (bank : Bank) {events more : List Event} {now later : Ctx} {t : ℕ}
    (blocks : InBlocks (events ++ more)) (after : ∀ event ∈ more, now.blockTime < event.time)
    (counted : Throughout step CountsBlocks (run bank events) more) (positive : 0 < t) (past : t ≤ now.blockTime) :
    getTotalVotingPower later (run bank (events ++ more)).store.history t 0 =
      getTotalVotingPower now (run bank events).store.history t 0 := by
  have small : t < 2 ^ 63 := past.trans_lt now.time_lt
  rw [(run_systemLog bank (blocks.chronological)).total_ctx small later now]
  induction more using List.reverseRecOn with
  | nil => rw [List.append_nil]
  | append_singleton before event ih =>
    obtain ⟨countedBefore, countedLast⟩ := throughout_concat.mp counted
    rw [← List.append_assoc] at blocks ⊢
    obtain ⟨blocksBefore, _, inOrder⟩ := List.pairwise_append.mp blocks
    obtain ⟨ordered, sooner⟩ := blocks.chronological.before rfl
    have sound := run_sound bank ordered sooner
    rw [← ih blocksBefore (fun other inside => after other (by simp [inside])) countedBefore]
    have last : run bank (events ++ before ++ [event]) = advance step (run bank (events ++ before)) event :=
      replay_concat ..
    have middle : replay step (run bank events) before = run bank (events ++ before) :=
      (replay_append ..).symm
    have later : t < event.time := past.trans_lt (after event (by simp))
    rw [last]
    rcases advance_cases step (run bank (events ++ before)) event with success | unchanged
    · refine step_total sound (run_lastInRange bank ordered) (run_systemLog bank ordered) success positive later ?_ now
      intro regulating reached
      rw [middle] at countedLast
      rcases run_lastBlock bank ordered with none | ⟨writer, inside, atTime, atBlock⟩
      · exact .inl none
      · have written := inOrder writer inside event (by simp)
        by_cases started : 0 < (run bank (events ++ before)).store.history.epoch
        · exact .inr (.inr ⟨by omega, fun _ passed => countedLast regulating started passed⟩)
        · exact .inl (by omega)
    · rw [unchanged]

/-- A lock with slope ten for fourteen weeks, created in one block, and the end of that block. -/
def sampleStart (created : ℕ) (height : ℤ) (time_pos : 0 < created) (time_lt : created < 2 ^ 63) : List Event := [
  ⟨sampleCtx created height time_pos time_lt, .create ⟨1, none, ⟨"airon", 10 * maxLockTime⟩, 14 * regulatedPeriod⟩⟩,
  ⟨sampleCtx created height time_pos time_lt, .endBlock⟩]

/-- The end of a block ten blocks and a week later. -/
def sampleWeekLater : Event := ⟨sampleLater 20, .endBlock⟩

theorem totalVotingPower_immutable_sample :
    getTotalVotingPower sampleWeekLater.ctx
        (run sampleBank (sampleStart (10 * regulatedPeriod) 10 (by decide) (by decide) ++ [sampleWeekLater])).store.history
        (10 * regulatedPeriod + 60) 0 =
      getTotalVotingPower (sampleCtx (10 * regulatedPeriod + 60) 11 (by decide) (by decide))
        (run sampleBank (sampleStart (10 * regulatedPeriod) 10 (by decide) (by decide))).store.history
        (10 * regulatedPeriod + 60) 0 := by
  have blocks : InBlocks (sampleStart (10 * regulatedPeriod) 10 (by decide) (by decide) ++ [sampleWeekLater]) := by
    unfold InBlocks
    decide
  refine totalVotingPower_immutable sampleBank blocks (by simp; decide) ?_ (by decide) le_rfl
  refine throughout_cons (fun _ _ _ => .inr ?_) (throughout_nil _ _ _)
  decide +kernel

/-- The blocks after the one of a lock created a quarter of an hour before the end of the week. -/
def sampleLate : List Event := [
  ⟨sampleCtx (11 * regulatedPeriod - 900) 11 (by decide) (by decide), .endBlock⟩,
  ⟨sampleCtx (12 * regulatedPeriod - 1000) 12 (by decide) (by decide), .endBlock⟩]

/-- The end of the week counts no block after the one of the lock: once it is recorded, the total shortly after the lock
was created reads without any decay. -/
theorem totalVotingPower_rewritten_sample :
    InBlocks (sampleStart (11 * regulatedPeriod - 1000) 10 (by decide) (by decide) ++ sampleLate) ∧
      getTotalVotingPower (sampleCtx (11 * regulatedPeriod - 900) 11 (by decide) (by decide))
        (run sampleBank (sampleStart (11 * regulatedPeriod - 1000) 10 (by decide) (by decide) ++
          sampleLate.take 1)).store.history (11 * regulatedPeriod - 950) 0 =
        .ok (10 * (13 * regulatedPeriod + 950)) ∧
      getTotalVotingPower (sampleCtx (12 * regulatedPeriod - 1000) 12 (by decide) (by decide))
        (run sampleBank (sampleStart (11 * regulatedPeriod - 1000) 10 (by decide) (by decide) ++
          sampleLate)).store.history (11 * regulatedPeriod - 950) 0 =
        .ok (10 * (13 * regulatedPeriod + 1000)) := by
  have blocks : InBlocks (sampleStart (11 * regulatedPeriod - 1000) 10 (by decide) (by decide) ++ sampleLate) := by
    unfold InBlocks
    decide
  refine ⟨blocks, ?_, ?_⟩
  · rw [getTotalVotingPower, History.futurePower]
    decide +kernel
  · have logged := run_systemLog sampleBank blocks.chronological
    have recorded : 11 * regulatedPeriod - 950 ≤
        (run sampleBank (sampleStart (11 * regulatedPeriod - 1000) 10 (by decide) (by decide) ++
          sampleLate)).store.history.last.timestamp := by decide +kernel
    have inside : 1 < (run sampleBank (sampleStart (11 * regulatedPeriod - 1000) 10 (by decide) (by decide) ++
        sampleLate)).store.history.epoch := by decide +kernel
    rw [getTotalVotingPower_past (by decide) recorded,
      logged.pastPower_between inside (by decide +kernel) (by decide +kernel) (by decide)]
    decide +kernel

end Runs

end Rotofury.Soundness.Ve
