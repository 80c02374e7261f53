import Rotofury.Soundness.Ve.Carry

/-! # What a history says about the locks

`Tracks` is what every run of the module keeps, merges and slashes included: each ve's last checkpoint is its
line, the scheduled slope changes are those of the lines, and the system checkpoint has at least the live slope.
`Exact` says that the system checkpoint has no excess. The one spec lemma for `regulateUserCheckpoint` tells
how a changed lock moves the excess; every result about voting power is read off it.
-/

namespace Rotofury.Soundness.Ve

open Model.Sdk Model.Ve Except Function

variable {later : ℕ} {ctx : Ctx} {next : History} {lockedOld lockedNew : LockedBalance}

/-- The history is one of the given locks, as of now. -/
structure Tracks (ids : Finset ℕ) (locks : ℕ → LockedBalance) (now : ℕ) (history : History) : Prop where
  regulated : ∀ i ∈ ids, regulatedPeriod ∣ (locks i).endTime
  bounded : ∀ i ∈ ids, (locks i).endTime ≤ now + maxLockTime
  past : ∀ epoch, (history.checkpoint epoch).timestamp ≤ now
  userPast : ∀ veId epoch, (history.userCheckpoint veId epoch).timestamp ≤ now
  user : ∀ i ∈ ids,
    (history.lastUser i).bias = (locks i).line.value (history.lastUser i).timestamp ∧
      (history.lastUser i).slope = (locks i).line.live (history.lastUser i).timestamp
  scheduled : ∀ τ, history.last.timestamp < τ →
    history.slopeChange τ = -Math.stoppingSlope ids (lines locks) τ
  slope : Math.liveSlope ids (lines locks) history.last.timestamp ≤ history.last.slope
  bias : 0 ≤ history.last.bias
  start : history.epoch = 0 → history.last = .zero ∧ ∀ i ∈ ids, (locks i).line.slope = 0

/-- The slope of the system checkpoint beyond that of the locks. -/
def slopeExcess (ids : Finset ℕ) (locks : ℕ → LockedBalance) (history : History) : ℤ :=
  history.last.slope - Math.liveSlope ids (lines locks) history.last.timestamp

/-- The power of the system at a time, before it is cut off at zero. -/
def systemPower (ids : Finset ℕ) (locks : ℕ → LockedBalance) (history : History) (t : ℕ) : ℤ :=
  carriedBias ids locks history.last.timestamp history.last.bias (slopeExcess ids locks history) t

/-- The power of all locks at a time. -/
def power (ids : Finset ℕ) (locks : ℕ → LockedBalance) (t : ℕ) : ℤ := Math.total ids (lines locks) t

variable {ids : Finset ℕ} {locks : ℕ → LockedBalance} {now : ℕ} {history : History}

theorem power_nonneg (ids : Finset ℕ) (locks : ℕ → LockedBalance) (t : ℕ) : 0 ≤ power ids locks t :=
  Math.total_nonneg (fun i _ => (locks i).line_slope_nonneg) t

theorem power_antitone (ids : Finset ℕ) (locks : ℕ → LockedBalance) {t : ℕ} (ordered : t ≤ later) :
    power ids locks later ≤ power ids locks t :=
  Math.total_antitone (fun i _ => (locks i).line_slope_nonneg) ordered

namespace Tracks

/-- Nothing is tracked at genesis. -/
theorem genesis (now : ℕ) (locks : ℕ → LockedBalance) : Tracks ∅ locks now .empty := by
  constructor <;> simp [History.empty, History.last, Checkpoint.zero, Math.liveSlope, Math.stoppingSlope]

section

variable (tracks : Tracks ids locks now history)
include tracks

theorem wait (ordered : now ≤ later) : Tracks ids locks later history :=
  { tracks with
    bounded := fun i member => (tracks.bounded i member).trans (by omega)
    past := fun epoch => (tracks.past epoch).trans ordered
    userPast := fun veId epoch => (tracks.userPast veId epoch).trans ordered }

theorem slopeExcess_nonneg : 0 ≤ slopeExcess ids locks history :=
  sub_nonneg.mpr tracks.slope

/-- Before the first checkpoint the locks have neither power nor slope. -/
theorem flat_start (none : history.epoch = 0) (t : ℕ) :
    Math.total ids (lines locks) t = 0 ∧ Math.liveSlope ids (lines locks) t = 0 := by
  obtain ⟨_, flat⟩ := tracks.start none
  constructor
  · exact Finset.sum_eq_zero fun i member => by simp [lines, Math.Line.value, flat i member]
  · exact Finset.sum_eq_zero fun i member => by simp [lines, Math.Line.live, flat i member]

theorem systemPower_start (none : history.epoch = 0) (t : ℕ) : systemPower ids locks history t = 0 := by
  have flat := tracks.flat_start none
  simp [systemPower, carriedBias, slopeExcess, fun t => (flat t).1, fun t => (flat t).2, (tracks.start none).1,
    Checkpoint.zero]

end

/-- The checkpoint a regulation starts from is on the way. -/
theorem carried_start (tracks : Tracks ids locks ctx.blockTime history) :
    Carried ids locks history.last.timestamp history.last.bias (slopeExcess ids locks history)
        (history.regulationStart ctx) ∧
      history.last.timestamp ≤ (history.regulationStart ctx).timestamp ∧
      (history.regulationStart ctx).timestamp ≤ ctx.blockTime := by
  unfold History.regulationStart
  split
  · have atLast : history.last.bias = max 0 history.last.bias := (max_eq_right tracks.bias).symm
    refine ⟨⟨?_, ?_⟩, le_rfl, tracks.past _⟩
    · simpa [carriedBias] using atLast
    · simp [slopeExcess]
  · next none =>
    have start : history.epoch = 0 := by omega
    have zero := (tracks.start start).1
    refine ⟨⟨?_, ?_⟩, by simp [zero, Checkpoint.zero], le_rfl⟩
    · have noPower := tracks.systemPower_start start ctx.blockTime
      rw [systemPower] at noPower
      rw [noPower, max_self]
    · simp [slopeExcess, fun t => (tracks.flat_start start t).2, zero, Checkpoint.zero]

end Tracks

/-- Regulating moves the last checkpoint to now and adds the increases of the user. -/
theorem regulateCheckpoint_ok (tracks : Tracks ids locks ctx.blockTime history) {slopeChange biasChange : ℤ}
    (ok : regulateCheckpoint ctx history slopeChange biasChange = .ok next) :
    0 < next.epoch ∧ next.last.timestamp = ctx.blockTime ∧
      next.last.bias = max 0 (systemPower ids locks history ctx.blockTime) + max 0 biasChange ∧
      next.last.slope = Math.liveSlope ids (lines locks) ctx.blockTime + slopeExcess ids locks history +
        max 0 slopeChange ∧
      Regulated ctx.blockTime history next := by
  simp only [regulateCheckpoint, ok_iffs, Prod.exists] at ok
  obtain ⟨blockSlope, _, middle, epoch, point, rounds, rfl⟩ := ok
  obtain ⟨carried, started, ordered⟩ := tracks.carried_start
  obtain ⟨later, atNow, final, kept⟩ := regulateRounds_ok tracks.regulated tracks.slopeExcess_nonneg carried rfl
    started ordered rounds tracks.scheduled
  have slopeNonneg : 0 ≤ point.slope := by
    rw [final.slope_eq]
    exact add_nonneg (Math.liveSlope_nonneg (fun i _ => (locks i).line_slope_nonneg) _) tracks.slopeExcess_nonneg
  have biasNonneg : 0 ≤ point.bias := by
    rw [final.bias_eq]
    exact le_max_left _ _
  have biasEq : point.bias = max 0 (systemPower ids locks history ctx.blockTime) := by
    rw [final.bias_eq, atNow, systemPower]
  have slopeEq : point.slope = Math.liveSlope ids (lines locks) ctx.blockTime + slopeExcess ids locks history := by
    rw [final.slope_eq, atNow]
  have last : ({ middle with epoch := epoch }.setCheckpoint epoch (point.addUserChange slopeChange biasChange)).last =
      point.addUserChange slopeChange biasChange := by
    simp only [History.last, History.setCheckpoint, update_self]
  rw [last]
  refine ⟨Nat.zero_lt_of_lt later, atNow, ?_, ?_, kept.userEpoch, kept.userCheckpoint, kept.slopeChange, ?_⟩
  · rw [← biasEq]
    simp only [Checkpoint.addUserChange]
    split <;> omega
  · rw [← slopeEq]
    simp only [Checkpoint.addUserChange]
    split <;> omega
  · intro past other
    simp only [History.setCheckpoint, update_apply]
    split
    · exact atNow.le
    · exact kept.past past other

/-- The point of a user is the line of the lock, read now. -/
theorem userPoint_eq {locked : LockedBalance} (bounded : locked.endTime ≤ ctx.blockTime + maxLockTime) :
    userPoint ctx locked =
      ⟨locked.line.value ctx.blockTime, locked.line.live ctx.blockTime, ctx.blockTime, ctx.blockHeight⟩ := by
  have timeBound := ctx.time_lt
  have lockBound : maxLockTime < 2 ^ 62 := by decide
  simp only [userPoint, LockedBalance.line, Math.Line.value, Math.Line.live]
  by_cases running : ctx.blockTime < locked.endTime
  · rw [toInt64_subUint64 running.le (by omega) (by omega)]
    by_cases positive : 0 < locked.amount <;> simp [running, positive]
  · simp [running, Nat.sub_eq_zero_of_le (not_lt.mp running)]

/-- Rescheduling moves the changes due after now from the old line to the new one. -/
theorem scheduleSlopeChanges_slopeChange (history : History)
    (ordered : lockedNew.endTime ≤ ctx.blockTime ∨ lockedOld.endTime ≤ lockedNew.endTime) {τ : ℕ}
    (future : ctx.blockTime < τ) :
    (history.scheduleSlopeChanges ctx lockedOld lockedNew (lockedOld.line.live ctx.blockTime)
        (lockedNew.line.live ctx.blockTime)).slopeChange τ =
      history.slopeChange τ + lockedOld.line.stopping τ - lockedNew.line.stopping τ := by
  have oldStop : lockedOld.line.stop = lockedOld.endTime := rfl
  have newStop : lockedNew.line.stop = lockedNew.endTime := rfl
  simp only [History.scheduleSlopeChanges, History.setSlopeChange, Math.Line.live, Math.Line.stopping, oldStop, newStop]
  by_cases atOld : lockedOld.endTime = τ <;> by_cases atNew : lockedNew.endTime = τ <;>
    split_ifs <;> simp_all [update_apply] <;> omega

theorem scheduleSlopeChanges_frame (history : History) (ctx : Ctx) (lockedOld lockedNew : LockedBalance)
    (slopeOld slopeNew : ℤ) :
    (history.scheduleSlopeChanges ctx lockedOld lockedNew slopeOld slopeNew).epoch = history.epoch ∧
      (history.scheduleSlopeChanges ctx lockedOld lockedNew slopeOld slopeNew).checkpoint = history.checkpoint ∧
      (history.scheduleSlopeChanges ctx lockedOld lockedNew slopeOld slopeNew).userEpoch = history.userEpoch ∧
      (history.scheduleSlopeChanges ctx lockedOld lockedNew slopeOld slopeNew).userCheckpoint =
        history.userCheckpoint := by
  simp only [History.scheduleSlopeChanges, History.setSlopeChange]
  split_ifs <;> exact ⟨rfl, rfl, rfl, rfl⟩

theorem lines_update (locks : ℕ → LockedBalance) (veId : ℕ) (locked : LockedBalance) :
    lines (update locks veId locked) = update (lines locks) veId locked.line := by
  funext i
  simp only [lines, update_apply]
  split <;> rfl

/-- A lock changed from old to new: the history tracks the new locks, its bias grows by what the line grows, and
its excess slope by what the line's slope loses. -/
structure Relocked (ids : Finset ℕ) (locks : ℕ → LockedBalance) (now veId : ℕ) (lockedOld lockedNew : LockedBalance)
    (history next : History) : Prop where
  tracks : Tracks ids (update locks veId lockedNew) now next
  timestamp : next.last.timestamp = now
  bias : next.last.bias = max 0 (systemPower ids locks history now) +
    max 0 (lockedNew.line.value now - lockedOld.line.value now)
  excess : slopeExcess ids (update locks veId lockedNew) next =
    slopeExcess ids locks history + max 0 (lockedOld.line.live now - lockedNew.line.live now)
  others : ∀ other ≠ veId, next.lastUser other = history.lastUser other

theorem regulateUserCheckpoint_ok {veId : ℕ} (tracks : Tracks ids locks ctx.blockTime history)
    (member : veId ∈ ids) (same : lockedOld.line = (locks veId).line)
    (ordered : lockedNew.endTime ≤ ctx.blockTime ∨ lockedOld.endTime ≤ lockedNew.endTime)
    (bounded : lockedNew.endTime ≤ ctx.blockTime + maxLockTime)
    (ok : regulateUserCheckpoint ctx history veId lockedOld lockedNew = .ok next) :
    Relocked ids locks ctx.blockTime veId lockedOld lockedNew history next := by
  have oldEnd : lockedOld.endTime = (locks veId).endTime := congrArg Math.Line.stop same
  have oldBounded : lockedOld.endTime ≤ ctx.blockTime + maxLockTime := oldEnd ▸ tracks.bounded veId member
  simp only [regulateUserCheckpoint, checkRegulatedUnixTime, userPoint_eq oldBounded, userPoint_eq bounded, ok_iffs] at ok
  obtain ⟨_, _, _, newRegulated, middle, regulation, rfl⟩ := ok
  obtain ⟨epochPos, atNow, bias, slope, kept⟩ := regulateCheckpoint_ok tracks regulation
  set scheduled := middle.scheduleSlopeChanges ctx lockedOld lockedNew (lockedOld.line.live ctx.blockTime)
    (lockedNew.line.live ctx.blockTime) with scheduledDef
  obtain ⟨epochEq, checkpointEq, userEpochEq, userCheckpointEq⟩ := scheduleSlopeChanges_frame middle ctx lockedOld
    lockedNew (lockedOld.line.live ctx.blockTime) (lockedNew.line.live ctx.blockTime)
  rw [← scheduledDef] at epochEq checkpointEq userEpochEq userCheckpointEq
  set final := scheduled.pushUserCheckpoint veId
    ⟨lockedNew.line.value ctx.blockTime, lockedNew.line.live ctx.blockTime, ctx.blockTime, ctx.blockHeight⟩
  have last : final.last = middle.last := by
    change scheduled.checkpoint scheduled.epoch = middle.checkpoint middle.epoch
    rw [epochEq, checkpointEq]
  have live : Math.liveSlope ids (lines (update locks veId lockedNew)) ctx.blockTime =
      Math.liveSlope ids (lines locks) ctx.blockTime - lockedOld.line.live ctx.blockTime +
        lockedNew.line.live ctx.blockTime := by
    rw [lines_update, Math.liveSlope_update member, same]
    rfl
  have nonneg := tracks.slopeExcess_nonneg
  have excess : slopeExcess ids (update locks veId lockedNew) final = slopeExcess ids locks history +
      max 0 (lockedOld.line.live ctx.blockTime - lockedNew.line.live ctx.blockTime) := by
    rw [slopeExcess, last, atNow, slope, live]
    omega
  have untouched : ∀ other ≠ veId, final.lastUser other = history.lastUser other := by
    intro other different
    simp only [final, History.lastUser, History.pushUserCheckpoint, History.setUserCheckpoint,
      update_of_ne different, userEpochEq, userCheckpointEq, kept.userEpoch, kept.userCheckpoint]
  have locksOf : ∀ i, update locks veId lockedNew i = locks i ∨
      update locks veId lockedNew i = lockedNew := by
    intro i
    rcases eq_or_ne i veId with rfl | other
    · exact .inr (update_self ..)
    · exact .inl (update_of_ne other ..)
  refine ⟨⟨?_, ?_, ?_, ?_, ?_, ?_, ?_, ?_, ?_⟩, last ▸ atNow, last ▸ bias, excess, untouched⟩
  · intro i inside
    rcases locksOf i with old | new
    · rw [old]
      exact tracks.regulated i inside
    · rw [new, ← regulatedUnixTime_eq_iff]
      exact newRegulated
  · intro i inside
    rcases locksOf i with old | new
    · rw [old]
      exact tracks.bounded i inside
    · rw [new]
      exact bounded
  · intro epoch
    change (scheduled.checkpoint epoch).timestamp ≤ ctx.blockTime
    rw [checkpointEq]
    exact kept.past tracks.past epoch
  · intro other epoch
    simp only [final, History.pushUserCheckpoint, History.setUserCheckpoint, userCheckpointEq, kept.userCheckpoint]
    rcases eq_or_ne other veId with rfl | different
    · rw [update_self, update_apply]
      split
      · exact le_rfl
      · exact tracks.userPast _ _
    · rw [update_of_ne different]
      exact tracks.userPast _ _
  · intro i inside
    rcases eq_or_ne i veId with rfl | other
    · simp [final, History.lastUser, History.pushUserCheckpoint, History.setUserCheckpoint]
    · rw [untouched i other, update_of_ne other]
      exact tracks.user i inside
  · intro τ future
    rw [last, atNow] at future
    have due := tracks.scheduled τ ((tracks.past _).trans_lt future)
    rw [lines_update, Math.stoppingSlope_update member]
    change scheduled.slopeChange τ = -(_ - (locks veId).line.stopping τ + _)
    rw [scheduledDef, scheduleSlopeChanges_slopeChange middle ordered future, kept.slopeChange, due, same]
    ring
  · rw [last, atNow, slope, live]
    omega
  · rw [last, bias]
    omega
  · intro none
    change scheduled.epoch = 0 at none
    omega

/-- Regulating without a change of a lock. -/
theorem Tracks.regulate (tracks : Tracks ids locks ctx.blockTime history)
    (ok : regulateCheckpoint ctx history 0 0 = .ok next) :
    Tracks ids locks ctx.blockTime next ∧ next.last.timestamp = ctx.blockTime ∧
      next.last.bias = max 0 (systemPower ids locks history ctx.blockTime) ∧
      slopeExcess ids locks next = slopeExcess ids locks history ∧
      ∀ veId, next.lastUser veId = history.lastUser veId := by
  obtain ⟨epochPos, atNow, bias, slope, kept⟩ := regulateCheckpoint_ok tracks ok
  have users : ∀ veId, next.lastUser veId = history.lastUser veId := by
    intro veId
    rw [History.lastUser, kept.userEpoch, kept.userCheckpoint, History.lastUser]
  have nonneg := tracks.slopeExcess_nonneg
  refine ⟨⟨tracks.regulated, tracks.bounded, kept.past tracks.past, ?_, ?_, ?_, ?_, ?_, ?_⟩, atNow, ?_, ?_, users⟩
  · rw [kept.userCheckpoint]
    exact tracks.userPast
  · intro i inside
    rw [users]
    exact tracks.user i inside
  · intro τ future
    rw [kept.slopeChange]
    exact tracks.scheduled τ ((tracks.past _).trans_lt (atNow ▸ future))
  · rw [atNow, slope]
    omega
  · rw [bias]
    omega
  · exact fun none => absurd none epochPos.ne'
  · rw [bias]
    simp
  · rw [slopeExcess, atNow, slope]
    simp

/-! ## Voting power read from a tracked history

From now on the power of a ve is its line and the power of the system is the bias carried forward. The total is
the sum of the ves as long as the system checkpoint has no excess.
-/

/-- The week that ends at or after a time is still within the range of Unix times. -/
def InRange (t : ℕ) : Prop := regulatedUnixTime (t - 1) + regulatedPeriod ≤ maxUnixTime

instance (t : ℕ) : Decidable (InRange t) := inferInstanceAs (Decidable (_ ≤ _))

theorem InRange.lt {t : ℕ} (inRange : InRange t) : t < 2 ^ 63 := by
  have := lt_regulatedUnixTime_add (t - 1)
  simp only [InRange, maxUnixTime] at inRange
  omega

theorem regulatedUnixTime_mono {t later : ℕ} (ordered : t ≤ later) :
    regulatedUnixTime t ≤ regulatedUnixTime later :=
  Nat.mul_le_mul_right _ (Nat.div_le_div_right ordered)

theorem regulatedUnixTime_le_of_lt {t ti : ℕ} (week : regulatedPeriod ∣ ti) (within : t < ti + regulatedPeriod) :
    regulatedUnixTime t ≤ ti := by
  obtain ⟨weeks, rfl⟩ := week
  rw [regulatedUnixTime, Nat.mul_comm]
  exact Nat.mul_le_mul_left _ (Nat.lt_succ_iff.mp (Nat.div_lt_of_lt_mul (by rwa [Nat.mul_succ])))

theorem InRange.of_le {t later : ℕ} (inRange : InRange later) (ordered : t ≤ later) : InRange t :=
  (Nat.add_le_add_right (regulatedUnixTime_mono (Nat.sub_le_sub_right ordered 1)) _).trans inRange

theorem reportPower_some (value : ℤ) : reportPower (some value) = .ok (max 0 value) := rfl

/-- From now on the power of a ve is its line. -/
theorem getVotingPower_eq (tracks : Tracks ids locks now history) {veId : ℕ} (member : veId ∈ ids)
    (named : veId ≠ emptyVeId) {t : ℕ} (ordered : now ≤ t) (positive : 0 < t) (small : t < 2 ^ 63) (ctx : Ctx) :
    getVotingPower ctx history veId t 0 = .ok ((locks veId).line.value t) := by
  have searched : findTimeEpoch (history.userCheckpoint veId) t (history.userEpoch veId) = history.userEpoch veId :=
    searchEpoch_of_fits (fun epoch => decide_eq_true ((tracks.userPast veId epoch).trans ordered)) (Nat.zero_le _)
  have latest : (if t ≤ (history.lastUser veId).timestamp then history.lastUser veId else history.lastUser veId) =
      history.lastUser veId := ite_self _
  have passed : (history.lastUser veId).timestamp ≤ t := (tracks.userPast veId _).trans ordered
  obtain ⟨bias, slope⟩ := tracks.user veId member
  simp only [getVotingPower, if_pos positive, if_neg named, searched]
  rw [← History.lastUser, latest, reportPower_some, toInt64_subUint64 passed (by omega) (by omega), bias, slope,
    ← Math.Line.value_eq_max (locks veId).line_slope_nonneg passed]

section System

variable {origin : ℕ} {bias excess : ℤ}

/-- The loop for a future time carries the bias without cutting it off. -/
theorem futurePower_eq (regulated : ∀ i ∈ ids, regulatedPeriod ∣ (locks i).endTime)
    (scheduled : ∀ τ, origin < τ → history.slopeChange τ = -Math.stoppingSlope ids (lines locks) τ) {t ti : ℕ}
    {point : Checkpoint} (week : ti = regulatedUnixTime point.timestamp) (started : origin ≤ point.timestamp)
    (future : point.timestamp < t) (inRange : InRange t)
    (biasEq : point.bias = carriedBias ids locks origin bias excess point.timestamp)
    (slopeEq : point.slope = Math.liveSlope ids (lines locks) point.timestamp + excess) :
    history.futurePower t ti point = .ok (carriedBias ids locks origin bias excess t) := by
  have small := inRange.lt
  have after := lt_regulatedUnixTime_add point.timestamp
  have weekInRange : nextRegulatedUnixTime ti = .ok (ti + regulatedPeriod) := by
    have : regulatedUnixTime point.timestamp ≤ regulatedUnixTime (t - 1) := regulatedUnixTime_mono (by omega)
    refine nextRegulatedUnixTime_ok_iff.mpr ⟨week ▸ Nat.dvd_mul_left _ _, ?_, rfl⟩
    exact week ▸ (Nat.add_le_add_right this _).trans inRange
  rw [History.futurePower, weekInRange, Except.ok_bind]
  dsimp only
  subst week
  split
  · next last =>
    rw [carriedBias_advance regulated future.le last, biasEq, slopeEq,
      toInt64_subUint64 future.le (by omega) (by omega)]
    rfl
  · next more =>
    refine futurePower_eq regulated scheduled ?_ (started.trans after.le) (not_le.mp more) inRange ?_ ?_
    · exact (regulatedUnixTime_eq_iff.mpr (Dvd.dvd.add (Nat.dvd_mul_left _ _) dvd_rfl)).symm
    · dsimp only
      rw [carriedBias_advance regulated after.le le_rfl, biasEq, slopeEq,
        toInt64_subUint64 after.le (by omega) (by omega)]
    · dsimp only
      rw [slope_advance regulated, slopeEq, scheduled _ (started.trans_lt after)]
      ring
termination_by t - ti
decreasing_by
  have period : 0 < regulatedPeriod := by decide
  omega

end System

/-- After the last checkpoint the power of the system is the carried bias, cut off at zero. -/
theorem getTotalVotingPower_future (tracks : Tracks ids locks now history) {t : ℕ}
    (future : history.last.timestamp < t) (inRange : InRange t) (ctx : Ctx) :
    getTotalVotingPower ctx history t 0 = .ok (max 0 (systemPower ids locks history t)) := by
  have started : history.last.bias = systemPower ids locks history history.last.timestamp := by
    simp [systemPower, carriedBias]
  have carried := futurePower_eq tracks.regulated tracks.scheduled rfl le_rfl future inRange started
    (by simp [slopeExcess])
  simp only [getTotalVotingPower, if_pos (Nat.zero_lt_of_lt future), if_neg (not_le.mpr future)]
  rw [carried, Except.ok_bind, reportPower_some]
  rfl

/-- From now on the power of the system is the carried bias, cut off at zero. -/
theorem getTotalVotingPower_eq (tracks : Tracks ids locks now history) {t : ℕ} (ordered : now ≤ t) (positive : 0 < t)
    (inRange : InRange t) (ctx : Ctx) :
    getTotalVotingPower ctx history t 0 = .ok (max 0 (systemPower ids locks history t)) := by
  rcases Nat.lt_or_ge history.last.timestamp t with future | reached
  · exact getTotalVotingPower_future tracks future inRange ctx
  · -- the last checkpoint is at this very time
    have same : t = history.last.timestamp := le_antisymm reached ((tracks.past _).trans ordered)
    have searched : findTimeEpoch history.checkpoint t history.epoch = history.epoch :=
      searchEpoch_of_fits (fun epoch => decide_eq_true ((tracks.past epoch).trans ordered)) (Nat.zero_le _)
    have noLapse : toInt64 (subUint64 t history.last.timestamp) = 0 := by
      rw [toInt64_subUint64 same.ge (by have := inRange.lt; omega) (by omega), same]
      simp
    simp only [getTotalVotingPower, if_pos positive, if_pos reached]
    rw [reportPower_some, History.pastPower]
    simp only [searched]
    rw [← History.last, noLapse, systemPower, carriedBias, ← same]
    simp

end Rotofury.Soundness.Ve
