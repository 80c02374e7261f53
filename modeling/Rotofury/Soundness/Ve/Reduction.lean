import Rotofury.Soundness.Ve.TotalPower

/-! # Locks that shrink

`regulateCheckpoint` adds what a user changed to the system checkpoint only where it is an increase. A merge
empties a lock and a slash cuts one down, so the bias and the slope they take away stay in the system checkpoint
for good. The total voting power is still the sum of the powers only where there was nothing to take away.
-/

namespace Rotofury.Soundness.Ve

open Model.Sdk Model.Ve Except Machine

variable {history next : History} {veId t now : ℕ} {lockedOld lockedNew : LockedBalance}

section Range

variable {ctx : Ctx}

/-- The last round of the loop has reached the block's time. -/
theorem regulateRounds_inRange {initial : Checkpoint} {slope : Dec} {rounds : ℕ} {epoch ti : ℕ}
    {pointLast : Checkpoint} {result : History × ℕ × Checkpoint} (week : regulatedPeriod ∣ ti)
    (ok : regulateRounds ctx initial slope rounds history epoch ti pointLast = .ok result) :
    ti + regulatedPeriod ≤ maxUnixTime ∧ InRange ctx.blockTime := by
  induction rounds generalizing history epoch ti pointLast with
  | zero => simp [regulateRounds] at ok
  | succ rounds ih =>
    simp only [regulateRounds, bind_ok_iff] at ok
    obtain ⟨next, weekOk, elapsed, _, ok⟩ := ok
    obtain ⟨_, inRange, rfl⟩ := nextRegulatedUnixTime_ok_iff.mp weekOk
    have positive := ctx.time_pos
    refine ⟨inRange, ?_⟩
    by_cases early : ctx.blockTime < ti + regulatedPeriod
    · exact (Nat.add_le_add_right (regulatedUnixTime_le_of_lt week (by omega)) _).trans inRange
    · rw [if_neg early] at ok
      split at ok
      · next last => exact (Nat.add_le_add_right (regulatedUnixTime_le_of_lt week (by omega)) _).trans inRange
      · exact (ih (Dvd.dvd.add week dvd_rfl) ok).2

theorem regulateCheckpoint_inRange {slopeChange biasChange : ℤ}
    (ok : regulateCheckpoint ctx history slopeChange biasChange = .ok next) :
    InRange ctx.blockTime ∧ (history.last.timestamp = ctx.blockTime → InRange (ctx.blockTime + 1)) := by
  simp only [regulateCheckpoint, bind_ok_iff, Prod.exists] at ok
  obtain ⟨_, _, _, _, _, rounds, _⟩ := ok
  obtain ⟨first, inRange⟩ := regulateRounds_inRange (Nat.dvd_mul_left _ _) rounds
  refine ⟨inRange, fun atNow => ?_⟩
  have started : (history.regulationStart ctx).timestamp = ctx.blockTime := by
    unfold History.regulationStart
    split
    · exact atNow
    · rfl
  rw [started] at first
  exact first

theorem regulateUserCheckpoint_inRange (ok : regulateUserCheckpoint ctx history veId lockedOld lockedNew = .ok next) :
    InRange ctx.blockTime ∧ (history.last.timestamp = ctx.blockTime → InRange (ctx.blockTime + 1)) := by
  simp only [regulateUserCheckpoint, bind_ok_iff] at ok
  obtain ⟨_, _, _, _, _, regulated, _⟩ := ok
  exact regulateCheckpoint_inRange regulated

end Range

/-- From the block's time on, the total voting power is the sum of the powers, as far as it can be asked for. -/
def Agrees (ctx : Ctx) (store : Store) : Prop :=
  ∀ t, ctx.blockTime ≤ t → InRange t → TotalIsSum ctx store t

variable {ctx : Ctx} {store next : Store}

theorem Sound.agrees_iff (sound : Sound ctx.blockTime store) :
    Agrees ctx store ↔ ∀ t, ctx.blockTime ≤ t → InRange t →
      max 0 (systemPower (veIds store) store.lockedAmountByUser store.history t) =
        power (veIds store) store.lockedAmountByUser t :=
  forall_congr' fun _ => forall_congr' fun ordered => forall_congr' fun inRange =>
    sound.totalIsSum_iff ordered (ctx.time_pos.trans_le ordered) inRange ctx

/-- An excess of slope goes unnoticed only while there is no power to take from. -/
theorem Agrees.excess (agrees : Agrees ctx store) (sound : Sound ctx.blockTime store) (later : ctx.blockTime < t)
    (inRange : InRange t) :
    slopeExcess (veIds store) store.lockedAmountByUser store.history = 0 ∨
      power (veIds store) store.lockedAmountByUser t = 0 := by
  rw [or_iff_not_imp_right]
  intro powerful
  have nonneg := power_nonneg (veIds store) store.lockedAmountByUser t
  have falls := power_antitone (veIds store) store.lockedAmountByUser later.le
  have now := sound.agrees_iff.mp agrees _ le_rfl (inRange.of_le later.le)
  have then' := sound.agrees_iff.mp agrees t later.le inRange
  rw [max_eq_right (by omega)] at now then'
  simp only [systemPower, carriedBias, power] at now then'
  have lapse : (0 : ℤ) < (t : ℤ) - ctx.blockTime := by omega
  have drained : slopeExcess (veIds store) store.lockedAmountByUser store.history * ((t : ℤ) - ctx.blockTime) = 0 := by
    linarith
  exact (mul_eq_zero.mp drained).resolve_right lapse.ne'

/-- At the moment of a checkpoint: no bias in excess, and no slope in excess while there is power left. -/
theorem Sound.agrees_iff_of_now (sound : Sound ctx.blockTime store)
    (atNow : store.history.last.timestamp = ctx.blockTime) (inRange : InRange ctx.blockTime)
    (excess : power (veIds store) store.lockedAmountByUser ctx.blockTime ≤ store.history.last.bias) :
    Agrees ctx store ↔ store.history.last.bias = power (veIds store) store.lockedAmountByUser ctx.blockTime ∧
      ∀ t, ctx.blockTime < t → InRange t →
        slopeExcess (veIds store) store.lockedAmountByUser store.history = 0 ∨
          power (veIds store) store.lockedAmountByUser t = 0 := by
  constructor
  · intro agrees
    refine ⟨?_, fun t later inRange => agrees.excess sound later inRange⟩
    have nonneg := power_nonneg (veIds store) store.lockedAmountByUser ctx.blockTime
    have now := sound.agrees_iff.mp agrees _ le_rfl inRange
    rw [systemPower, carriedBias, atNow] at now
    simp only [power] at now excess nonneg ⊢
    omega
  · rintro ⟨bias, drained⟩
    rw [sound.agrees_iff]
    intro t ordered inRange
    have nonneg := power_nonneg (veIds store) store.lockedAmountByUser t
    have excessNonneg := sound.tracks.slopeExcess_nonneg
    rw [systemPower, carriedBias, atNow, bias]
    rcases ordered.eq_or_lt with rfl | later
    · simp only [power] at nonneg ⊢
      omega
    · rcases drained t later inRange with noExcess | noPower
      · rw [noExcess]
        simp only [power] at nonneg ⊢
        omega
      · have taken : 0 ≤ slopeExcess (veIds store) store.lockedAmountByUser store.history *
            ((t : ℤ) - ctx.blockTime) := mul_nonneg excessNonneg (by omega)
        simp only [power] at noPower ⊢
        omega

/-- The regulated checkpoint has the bias that the powers had, if they agreed with it. -/
theorem RelockStep.bias_of_agrees (step : RelockStep ctx store next veId lockedOld lockedNew)
    (sound : Sound ctx.blockTime store) (agrees : Agrees ctx store) :
    next.history.last.bias = power (veIds store) store.lockedAmountByUser ctx.blockTime +
      max 0 (lockedNew.line.value ctx.blockTime - lockedOld.line.value ctx.blockTime) := by
  have inRange := (regulateUserCheckpoint_inRange step.regulated).1
  rw [(step.relocked sound).bias, sound.agrees_iff.mp agrees _ le_rfl inRange]

/-- Without power no lock has a value. -/
theorem value_of_no_power (member : veId ∈ veIds store) (noPower : power (veIds store) store.lockedAmountByUser t = 0) :
    (store.lockedAmountByUser veId).line.value t = 0 := by
  rw [power, Math.total, Finset.sum_eq_zero_iff_of_nonneg] at noPower
  · exact noPower veId member
  · exact fun i _ => Math.Line.value_nonneg (store.lockedAmountByUser i).line_slope_nonneg t

section Merge

variable {middle : Store} {msg : MsgMerge}

/-- A merge that takes no power away: the first lock has none left, and the merged lock brings none into a system
that has slope in excess. -/
def MergeNeutral (now : ℕ) (store : Store) (msg : MsgMerge) : Prop :=
  (store.lockedAmountByUser msg.fromVeId).line.value now = 0 ∧
    (slopeExcess (veIds store) store.lockedAmountByUser store.history = 0 ∨
      (mergedLock store msg).line.value (now + 1) = 0)

/-- The merged lock is no lower than the one it replaces. -/
theorem mergedLock_grows (nonneg : LocksNonneg store) (msg : MsgMerge) (t : ℕ) :
    (store.lockedAmountByUser msg.toVeId).line.value t ≤ (mergedLock store msg).line.value t ∧
      (store.lockedAmountByUser msg.toVeId).line.live t ≤ (mergedLock store msg).line.live t :=
  line_grows (le_add_of_nonneg_right (nonneg _)) (le_max_right _ _) t

namespace MergeStep

variable (step : MergeStep ctx store middle next msg)
include step

theorem power_eq (t : ℕ) : power (veIds next) next.lockedAmountByUser t =
      power (veIds store) store.lockedAmountByUser t - (store.lockedAmountByUser msg.fromVeId).line.value t -
        (store.lockedAmountByUser msg.toVeId).line.value t + (mergedLock store msg).line.value t := by
  have empty : LockedBalance.empty.line.value t = 0 := zero_mul _
  rw [step.deposited.power_eq, step.burned.power_eq, empty]
  ring

/-- The emptied lock's power stays in the bias, and its slope in the slope. -/
theorem regulated (sound : Sound ctx.blockTime store) (nonneg : LocksNonneg store) (agrees : Agrees ctx store) :
    next.history.last.timestamp = ctx.blockTime ∧
      next.history.last.bias = power (veIds next) next.lockedAmountByUser ctx.blockTime +
        (store.lockedAmountByUser msg.fromVeId).line.value ctx.blockTime ∧
      slopeExcess (veIds next) next.lockedAmountByUser next.history =
        slopeExcess (veIds store) store.lockedAmountByUser store.history +
          (store.lockedAmountByUser msg.fromVeId).line.live ctx.blockTime := by
  have burned := step.burned.relocked sound
  have soundMiddle := step.burned.sound sound
  have deposited := step.deposited.relocked soundMiddle
  obtain ⟨value, live⟩ := mergedLock_grows nonneg msg ctx.blockTime
  have fromNonneg := Math.Line.value_nonneg (store.lockedAmountByUser msg.fromVeId).line_slope_nonneg ctx.blockTime
  have fromLive := Math.Line.live_nonneg (store.lockedAmountByUser msg.fromVeId).line_slope_nonneg ctx.blockTime
  have empty : LockedBalance.empty.line.value ctx.blockTime = 0 := zero_mul _
  have emptyLive : LockedBalance.empty.line.live ctx.blockTime = 0 := ite_self _
  refine ⟨deposited.timestamp, ?_, ?_⟩
  · have burnedBias := step.burned.bias_of_agrees sound agrees
    have powerNonneg := power_nonneg (veIds store) store.lockedAmountByUser ctx.blockTime
    rw [deposited.bias, systemPower, carriedBias, burned.timestamp, step.power_eq, burnedBias, empty]
    omega
  · rw [step.deposited.excess_eq soundMiddle, step.burned.excess_eq sound, emptyLive]
    omega

/-- Exactly the neutral merges keep the agreement. -/
theorem agrees_iff (sound : Sound ctx.blockTime store) (nonneg : LocksNonneg store) (agrees : Agrees ctx store) :
    Agrees ctx next ↔ MergeNeutral ctx.blockTime store msg := by
  obtain ⟨atNow, bias, excess⟩ := step.regulated sound nonneg agrees
  have inRange := (regulateUserCheckpoint_inRange step.burned.regulated).1
  have inRangeNext := (regulateUserCheckpoint_inRange step.deposited.regulated).2
    (step.burned.relocked sound).timestamp
  have fromNonneg := Math.Line.value_nonneg (store.lockedAmountByUser msg.fromVeId).line_slope_nonneg ctx.blockTime
  have mergedNonneg := Math.Line.value_nonneg (mergedLock store msg).line_slope_nonneg
  rw [(step.sound sound).agrees_iff_of_now atNow inRange (by omega), bias, excess, MergeNeutral]
  constructor
  · rintro ⟨kept, drained⟩
    have worthless : (store.lockedAmountByUser msg.fromVeId).line.value ctx.blockTime = 0 := by omega
    refine ⟨worthless, ?_⟩
    rw [Math.Line.live_of_value worthless, add_zero] at drained
    rcases drained _ (Nat.lt_succ_self _) inRangeNext with noExcess | noPower
    · exact .inl noExcess
    · have merged : next.lockedAmountByUser msg.toVeId = mergedLock store msg := by
        rw [step.deposited.locks, Function.update_self]
      have member : msg.toVeId ∈ veIds next := step.deposited.veIds_eq ▸ step.deposited.member
      exact .inr (merged ▸ value_of_no_power member noPower)
  · rintro ⟨worthless, neutral⟩
    rw [worthless, Math.Line.live_of_value worthless, add_zero, add_zero]
    refine ⟨rfl, fun t later inRangeLater => ?_⟩
    rcases agrees.excess sound (Nat.lt_succ_self _) inRangeNext with noExcess | noPower
    · exact .inl noExcess
    rcases neutral with noExcess | flat
    · exact .inl noExcess
    · right
      have member : msg.toVeId ∈ veIds store := step.burned.veIds_eq ▸ step.deposited.member
      have falls := power_antitone (veIds next) next.lockedAmountByUser (show ctx.blockTime + 1 ≤ t from later)
      rw [step.power_eq (ctx.blockTime + 1), noPower, value_of_no_power step.burned.member noPower,
        value_of_no_power member noPower, flat] at falls
      exact le_antisymm (by omega) (power_nonneg _ _ _)

end MergeStep

end Merge

section Slash

variable {veId : ℕ} {amount : ℤ}

/-- A slash that takes no power away: the lock is over, or keeps its slope. -/
def SlashNeutral (now : ℕ) (store : Store) (veId : ℕ) (amount : ℤ) : Prop :=
  (store.lockedAmountByUser veId).endTime ≤ now ∨
    (slashedLock store veId amount).line.slope = (store.lockedAmountByUser veId).line.slope

/-- A neutral slash leaves the line as it is from now on. -/
theorem SlashNeutral.line (neutral : SlashNeutral now store veId amount) (ordered : now ≤ t) :
    (slashedLock store veId amount).line.value t = (store.lockedAmountByUser veId).line.value t ∧
      (slashedLock store veId amount).line.live t = (store.lockedAmountByUser veId).line.live t := by
  rcases neutral with over' | same
  · have ended : (store.lockedAmountByUser veId).line.stop ≤ t := over'.trans ordered
    have slashedEnded : (slashedLock store veId amount).line.stop ≤ t := ended
    rw [Math.Line.value_of_stopped ended, Math.Line.value_of_stopped slashedEnded, Math.Line.live_of_stopped ended,
      Math.Line.live_of_stopped slashedEnded]
    exact ⟨rfl, rfl⟩
  · have equal : (slashedLock store veId amount).line = (store.lockedAmountByUser veId).line :=
      congrArg₂ Math.Line.mk same rfl
    rw [equal]
    exact ⟨rfl, rfl⟩

theorem slashNeutral_of_value
    (same : (slashedLock store veId amount).line.value now = (store.lockedAmountByUser veId).line.value now) :
    SlashNeutral now store veId amount := by
  by_cases ended : (store.lockedAmountByUser veId).endTime ≤ now
  · exact .inl ended
  · have remaining : (((store.lockedAmountByUser veId).endTime - now : ℕ) : ℤ) ≠ 0 := by omega
    exact .inr (mul_right_cancel₀ remaining same)

/-- Exactly the neutral slashes keep the agreement. -/
theorem slash_agrees_iff (nonneg : 0 ≤ amount)
    (step : RelockStep ctx store next veId (store.lockedAmountByUser veId) (slashedLock store veId amount))
    (sound : Sound ctx.blockTime store) (agrees : Agrees ctx store) :
    Agrees ctx next ↔ SlashNeutral ctx.blockTime store veId amount := by
  have inRange := (regulateUserCheckpoint_inRange step.regulated).1
  have shrinks : (slashedLock store veId amount).line.value ctx.blockTime ≤
      (store.lockedAmountByUser veId).line.value ctx.blockTime := by
    refine (line_grows ?_ ?_ ctx.blockTime).1
    · exact Int.sub_le_self _ nonneg
    · exact le_rfl
  have bias := step.bias_of_agrees sound agrees
  have power := step.power_eq ctx.blockTime
  rw [(step.sound sound).agrees_iff_of_now (step.relocked sound).timestamp inRange (by omega), step.excess_eq sound]
  constructor
  · rintro ⟨kept, _⟩
    exact slashNeutral_of_value (by omega)
  · intro neutral
    obtain ⟨value, live⟩ := neutral.line le_rfl
    refine ⟨by omega, fun t later inRangeLater => ?_⟩
    rw [live, sub_self, max_self, add_zero, step.power_eq t, (neutral.line later.le).1, sub_add_cancel]
    exact agrees.excess sound later inRangeLater

end Slash

/-- After any run in which no slash exceeded its lock, a merge or a slash keeps the agreement of the total voting
power with the sum of the powers exactly where it is neutral. -/
theorem reduction_agrees_iff (bank : Bank) {events : List Event} (ctx : Ctx)
    (chronological : Chronological Event.time events) (elapsed : ∀ event ∈ events, event.time ≤ ctx.blockTime)
    (within : Throughout step WithinLock (genesis bank) events) (agrees : Agrees ctx (run bank events).store) :
    (∀ msg next, step (run bank events) ⟨ctx, .merge msg⟩ = .ok next →
      (Agrees ctx next.store ↔ MergeNeutral ctx.blockTime (run bank events).store msg)) ∧
    ∀ veId ∈ veIds (run bank events).store, ∀ amount next,
      step (run bank events) ⟨ctx, .slash veId amount⟩ = .ok next →
        (Agrees ctx next.store ↔ SlashNeutral ctx.blockTime (run bank events).store veId amount) := by
  have sound := run_sound bank chronological elapsed
  have nonneg := run_locksNonneg bank chronological within
  constructor
  · intro msg next success
    simp only [step, bind_ok_iff] at success
    obtain ⟨_, valid, success⟩ := success
    obtain ⟨middle, step⟩ := merge_relocks sound success valid
    exact step.agrees_iff sound nonneg agrees
  · intro veId member amount next success
    exact slash_agrees_iff (slash_regulated success).1 (slash_relock sound member success) sound agrees

/-- Two locks with slopes ten and five for a number of weeks. -/
def sampleLocks (weeks : ℕ) : List Event := [
  ⟨sampleFirst, .create ⟨1, none, ⟨"airon", 10 * maxLockTime⟩, weeks * regulatedPeriod⟩⟩,
  ⟨sampleFirst, .create ⟨1, none, ⟨"airon", 5 * maxLockTime⟩, weeks * regulatedPeriod⟩⟩]

theorem sampleLocks_run (weeks : ℕ) :
    Chronological Event.time (sampleLocks weeks) ∧
      (∀ event ∈ sampleLocks weeks, event.time ≤ sampleNow.blockTime) ∧
      ∀ event ∈ sampleLocks weeks, Event.Steady event := by
  have later : 10 * regulatedPeriod ≤ 11 * regulatedPeriod := by decide
  simp [sampleLocks, Chronological, Event.time, Event.Steady, sampleCtx, sampleFirst, sampleNow, later]

theorem sampleLocks_agrees (weeks : ℕ) : Agrees sampleNow (run sampleBank (sampleLocks weeks)).store := by
  obtain ⟨chronological, elapsed, steady⟩ := sampleLocks_run weeks
  intro t ordered inRange
  exact (run_exact sampleBank chronological steady).totalIsSum (run_sound sampleBank chronological elapsed) ordered
    (sampleNow.time_pos.trans_le ordered) inRange sampleNow

theorem sampleLocks_within (weeks : ℕ) :
    Throughout step WithinLock (genesis sampleBank) (sampleLocks weeks) := by
  intro before event after split veId amount action
  have member : event ∈ sampleLocks weeks := by simp [split]
  exact absurd action (((sampleLocks_run weeks).2.2 event member).2 veId amount)

/-- Two locks that have ended are merged without harm. -/
theorem reduction_agrees_iff_sample : ∃ next,
    step (run sampleBank (sampleLocks 1)) ⟨sampleNow, .merge ⟨1, 1, 2⟩⟩ = .ok next ∧ Agrees sampleNow next.store := by
  obtain ⟨chronological, elapsed, steady⟩ := sampleLocks_run 1
  have merges := (reduction_agrees_iff sampleBank sampleNow chronological elapsed (sampleLocks_within 1)
    (sampleLocks_agrees 1)).1
  have merged : (fun next : State => (next.store.lockedAmountByUser 2).amount) <$>
      step (run sampleBank (sampleLocks 1)) ⟨sampleNow, .merge ⟨1, 1, 2⟩⟩ = .ok (15 * maxLockTime) := by
    decide +kernel
  obtain ⟨next, success, _⟩ := map_ok_iff.mp merged
  have neutral : MergeNeutral sampleNow.blockTime (run sampleBank (sampleLocks 1)).store ⟨1, 1, 2⟩ :=
    ⟨by decide +kernel, .inl (run_exact sampleBank chronological steady).slope⟩
  exact ⟨next, success, (merges _ next success).mpr neutral⟩

/-- Merging a running lock, or slashing it by half, leaves a total that is not the sum of the powers any more. -/
theorem reduction_sample :
    Agrees sampleNow (run sampleBank (sampleLocks 4)).store ∧
      (step (run sampleBank (sampleLocks 4)) ⟨sampleNow, .merge ⟨1, 1, 2⟩⟩).map (fun next =>
          (getTotalVotingPower sampleNow next.store.history sampleNow.blockTime 0,
            [1, 2].map fun veId => getVotingPower sampleNow next.store.history veId sampleNow.blockTime 0)) =
        .ok (.ok 45360000, [.ok 0, .ok 27216000]) ∧
      (step (run sampleBank (sampleLocks 4)) ⟨sampleNow, .slash 1 (5 * maxLockTime)⟩).map (fun next =>
          (getTotalVotingPower sampleNow next.store.history sampleNow.blockTime 0,
            [1, 2].map fun veId => getVotingPower sampleNow next.store.history veId sampleNow.blockTime 0)) =
        .ok (.ok 27216000, [.ok 9072000, .ok 9072000]) :=
  ⟨sampleLocks_agrees 4, by decide +kernel, by decide +kernel⟩

end Rotofury.Soundness.Ve
