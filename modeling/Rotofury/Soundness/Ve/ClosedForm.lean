import Rotofury.Soundness.Ve.Regulation

/-! # The voting power of a ve at any time

The checkpoints of a ve form a log: an event only adds to it, at the time of its block. The last checkpoint that
is not after a time therefore belongs to the lock that the events up to that time have left, and the power at the
time is read off that lock, as long as the seconds since the checkpoint fit a signed integer.
-/

namespace Rotofury.Soundness.Ve

open Model.Sdk Model.Ve Function Machine

variable {point : Checkpoint} {history next : History} {veId t now : ℕ} {bank : Bank} {events : List Event}

/-- From one history to the next a ve only gains checkpoints, all of them now. -/
structure Extends (now : ℕ) (history next : History) : Prop where
  epoch : ∀ veId, history.userEpoch veId ≤ next.userEpoch veId
  kept : ∀ veId epoch, epoch ≤ history.userEpoch veId →
    next.userCheckpoint veId epoch = history.userCheckpoint veId epoch
  added : ∀ veId epoch, history.userEpoch veId < epoch → epoch ≤ next.userEpoch veId →
    (next.userCheckpoint veId epoch).timestamp = now

namespace Extends

variable {now : ℕ} {history middle next : History}

theorem of_users (userEpoch : next.userEpoch = history.userEpoch)
    (userCheckpoint : next.userCheckpoint = history.userCheckpoint) : Extends now history next where
  epoch := fun veId => (congrFun userEpoch veId).ge
  kept := fun veId epoch _ => by rw [userCheckpoint]
  added := fun veId epoch after inside => absurd inside (by rw [userEpoch]; omega)

theorem trans (first : Extends now history middle) (second : Extends now middle next) : Extends now history next where
  epoch := fun veId => (first.epoch veId).trans (second.epoch veId)
  kept := fun veId epoch inside =>
    (second.kept veId epoch (inside.trans (first.epoch veId))).trans (first.kept veId epoch inside)
  added := by
    intro veId epoch after inside
    rcases le_or_gt epoch (middle.userEpoch veId) with early | late
    · rw [second.kept veId epoch early]
      exact first.added veId epoch after early
    · exact second.added veId epoch late inside

/-- A new checkpoint of one ve. -/
theorem push (history : History) (veId : ℕ) (atNow : point.timestamp = now) :
    Extends now history (history.pushUserCheckpoint veId point) := by
  refine ⟨?_, ?_, ?_⟩
  · intro other
    simp only [History.pushUserCheckpoint, History.setUserCheckpoint, update_apply]
    split
    · next same => exact same ▸ Nat.le_succ _
    · exact le_rfl
  · intro other epoch inside
    simp only [History.pushUserCheckpoint, History.setUserCheckpoint, update_apply]
    split
    · next same =>
      subst same
      rw [update_of_ne (by omega)]
    · rfl
  · intro other epoch after inside
    simp only [History.pushUserCheckpoint, History.setUserCheckpoint, update_apply] at inside ⊢
    split at inside
    · next same =>
      subst same
      obtain rfl : epoch = history.userEpoch other + 1 := by omega
      rw [if_pos rfl, update_self]
      exact atNow
    · omega

end Extends

theorem userPoint_timestamp (ctx : Ctx) (locked : LockedBalance) : (userPoint ctx locked).timestamp = ctx.blockTime := by
  unfold userPoint
  split <;> rfl

variable {ids : Finset ℕ} {locks : ℕ → LockedBalance}

theorem regulateUserCheckpoint_extends {ctx : Ctx} {lockedOld lockedNew : LockedBalance}
    (tracks : Tracks ids locks ctx.blockTime history)
    (ok : regulateUserCheckpoint ctx history veId lockedOld lockedNew = .ok next) :
    Extends ctx.blockTime history next := by
  simp only [regulateUserCheckpoint, Except.ok_iffs] at ok
  obtain ⟨_, _, _, _, middle, regulated, rfl⟩ := ok
  obtain ⟨_, _, _, _, kept⟩ := regulateCheckpoint_ok tracks regulated
  obtain ⟨_, _, userEpoch, userCheckpoint⟩ := scheduleSlopeChanges_frame middle ctx lockedOld lockedNew
    (userPoint ctx lockedOld).slope (userPoint ctx lockedNew).slope
  apply Extends.trans (Extends.of_users (userEpoch.trans kept.userEpoch) (userCheckpoint.trans kept.userCheckpoint))
  exact Extends.push _ veId (userPoint_timestamp ctx lockedNew)

theorem step_extends {state next : State} {event : Event} (sound : Sound event.time state.store)
    (ok : step state event = .ok next) : Extends event.time state.store.history next.store.history := by
  cases step_cases sound ok with
  | quiet history => exact .of_users (congrArg History.userEpoch history) (congrArg History.userCheckpoint history)
  | regulated ok =>
    obtain ⟨_, _, _, _, kept⟩ := regulateCheckpoint_ok sound.tracks ok
    exact .of_users kept.userEpoch kept.userCheckpoint
  | grown created step =>
    rcases created with rfl | ⟨receiver, rfl⟩
    · exact regulateUserCheckpoint_extends sound.tracks step.regulated
    · exact regulateUserCheckpoint_extends (sound.created receiver).tracks step.regulated
  | merged _ step =>
    have burned := regulateUserCheckpoint_extends sound.tracks step.burned.regulated
    exact burned.trans (regulateUserCheckpoint_extends (step.burned.sound sound).tracks step.deposited.regulated)
  | slashed _ step => exact regulateUserCheckpoint_extends sound.tracks step.regulated
  | slashedFresh _ _ _ regulated => exact regulateUserCheckpoint_extends sound.tracks regulated

/-- The events up to a time. -/
def upTo (t : ℕ) (events : List Event) : List Event := events.filter (·.time ≤ t)

/-- The last checkpoint of a ve that is not after a time. -/
structure ReadAt (history : History) (veId t epoch : ℕ) : Prop where
  inside : epoch ≤ history.userEpoch veId
  reached : (history.userCheckpoint veId epoch).timestamp ≤ t
  beyond : ∀ later, epoch < later → later ≤ history.userEpoch veId → t < (history.userCheckpoint veId later).timestamp

/-- What holds of the checkpoints of every ve after a run. -/
structure Logged (bank : Bank) (events : List Event) : Prop where
  start : ∀ veId, ((run bank events).store.history.userCheckpoint veId 0).timestamp = 0
  ordered : ∀ veId earlier later, earlier ≤ later → later ≤ (run bank events).store.history.userEpoch veId →
    ((run bank events).store.history.userCheckpoint veId earlier).timestamp ≤
      ((run bank events).store.history.userCheckpoint veId later).timestamp
  answers : ∀ veId t, ∃ epoch, ReadAt (run bank events).store.history veId t epoch ∧
    (run bank events).store.history.userCheckpoint veId epoch = (run bank (upTo t events)).store.history.lastUser veId

/-- At or after the last event the latest checkpoint is read. -/
theorem Logged.latest (chronological : Chronological Event.time events)
    (elapsed : ∀ event ∈ events, event.time ≤ t) (veId : ℕ) :
    ∃ epoch, ReadAt (run bank events).store.history veId t epoch ∧
      (run bank events).store.history.userCheckpoint veId epoch =
        (run bank (upTo t events)).store.history.lastUser veId := by
  have all : upTo t events = events := List.filter_eq_self.mpr fun event inside => by simpa using elapsed event inside
  have sound := run_sound bank chronological elapsed
  refine ⟨_, ⟨le_rfl, sound.tracks.userPast _ _, fun later after inside => absurd inside (not_le.mpr after)⟩, ?_⟩
  rw [all]
  rfl

/-- A history that is only extended keeps its log in order. -/
theorem Extends.ordered (grown : Extends now history next)
    (past : ∀ veId epoch, (history.userCheckpoint veId epoch).timestamp ≤ now)
    (ordered : ∀ veId earlier later, earlier ≤ later → later ≤ history.userEpoch veId →
      (history.userCheckpoint veId earlier).timestamp ≤ (history.userCheckpoint veId later).timestamp)
    (veId earlier later : ℕ) (before : earlier ≤ later) (inside : later ≤ next.userEpoch veId) :
    (next.userCheckpoint veId earlier).timestamp ≤ (next.userCheckpoint veId later).timestamp := by
  have reading : ∀ epoch, epoch ≤ next.userEpoch veId → (next.userCheckpoint veId epoch).timestamp ≤ now := by
    intro epoch inside
    rcases le_or_gt epoch (history.userEpoch veId) with old | new
    · rw [grown.kept veId epoch old]
      exact past veId epoch
    · exact (grown.added veId epoch new inside).le
  rcases le_or_gt later (history.userEpoch veId) with old | new
  · rw [grown.kept veId later old, grown.kept veId earlier (before.trans old)]
    exact ordered veId earlier later before old
  · rw [grown.added veId later new inside]
    exact reading earlier (before.trans inside)

theorem run_logged (bank : Bank) (chronological : Chronological Event.time events) :
    Logged bank events := by
  induction events using List.reverseRecOn with
  | nil =>
    refine ⟨fun _ => rfl, fun _ _ _ _ _ => le_rfl, fun veId t => ?_⟩
    exact Logged.latest chronological (fun _ inside => absurd inside List.not_mem_nil) veId
  | append_singleton before event ih =>
    obtain ⟨ordered, sooner⟩ := chronological.before rfl
    have logged := ih ordered
    have sound := run_sound bank ordered sooner
    have grown : Extends event.time (run bank before).store.history (run bank (before ++ [event])).store.history := by
      have last : run bank (before ++ [event]) = advance step (run bank before) event :=
        replay_concat ..
      rw [last]
      rcases advance_cases step (run bank before) event with ok | same
      · exact step_extends sound ok
      · exact .of_users (by rw [same]) (by rw [same])
    refine ⟨?_, ?_, ?_⟩
    · intro veId
      rw [grown.kept veId 0 (Nat.zero_le _)]
      exact logged.start veId
    · exact grown.ordered sound.tracks.userPast logged.ordered
    · intro veId t
      rcases le_or_gt event.time t with reached | future
      · apply Logged.latest chronological
        intro earlier inside
        rcases List.mem_append.mp inside with inside | last
        · exact (sooner earlier inside).trans reached
        · rw [List.mem_singleton.mp last]
          exact reached
      · -- the event comes after the time: it only adds checkpoints that are not read
        obtain ⟨epoch, read, same⟩ := logged.answers veId t
        have unchanged : upTo t (before ++ [event]) = upTo t before := by
          simp [upTo, List.filter_append, future]
        refine ⟨epoch, ⟨read.inside.trans (grown.epoch veId), ?_, ?_⟩, ?_⟩
        · rw [grown.kept veId epoch read.inside]
          exact read.reached
        · intro later after inside
          rcases le_or_gt later ((run bank before).store.history.userEpoch veId) with old | new
          · rw [grown.kept veId later old]
            exact read.beyond later after old
          · rw [grown.added veId later new inside]
            exact future
        · rw [grown.kept veId epoch read.inside, unchanged]
          exact same

/-- The search over the log reads the last checkpoint that is not after the time. -/
theorem Logged.findTimeEpoch_eq (logged : Logged bank events) {epoch : ℕ}
    (read : ReadAt (run bank events).store.history veId t epoch) :
    findTimeEpoch ((run bank events).store.history.userCheckpoint veId) t
      ((run bank events).store.history.userEpoch veId) = epoch := by
  have started := logged.start veId
  exact Model.Ve.findTimeEpoch_eq (by omega) (logged.ordered veId) read.inside read.reached read.beyond

/-- The power as slope times the time that is left. -/
theorem line_value_eq (locked : LockedBalance) (t : ℕ) :
    locked.line.value t = max locked.amount 0 / maxLockTime * max ((locked.endTime : ℤ) - t) 0 := by
  have left : ((locked.endTime - t : ℕ) : ℤ) = max ((locked.endTime : ℤ) - t) 0 := by omega
  simp only [Math.Line.value, LockedBalance.line, left]
  split
  · next positive => rw [max_eq_left positive.le, Int.tdiv_eq_ediv_of_nonneg positive.le]
  · next nothing => rw [max_eq_right (not_lt.mp nothing), Int.zero_ediv]

/-- A line is flat when it is over, or when less than one unit for every second was locked. -/
theorem line_live_eq_zero_iff (locked : LockedBalance) (t : ℕ) :
    locked.line.live t = 0 ↔ locked.amount < maxLockTime ∨ locked.endTime ≤ t := by
  have secondsPos : (0 : ℤ) < maxLockTime := by decide
  by_cases running : t < locked.endTime
  · have alive : locked.line.live t = locked.line.slope := if_pos running
    rw [alive, or_iff_left (not_le.mpr running), LockedBalance.line]
    dsimp only
    split
    · next positive =>
      rw [Int.tdiv_eq_ediv_of_nonneg positive.le]
      constructor
      · intro none
        by_contra large
        have one : 1 ≤ locked.amount / maxLockTime := (Int.le_ediv_iff_mul_le secondsPos).mpr (by omega)
        omega
      · exact fun small => Int.ediv_eq_zero_of_lt positive.le small
    · next nothing =>
      rw [iff_true_left rfl]
      omega
  · have ended : locked.line.live t = 0 := Math.Line.live_of_stopped (not_lt.mp running)
    exact iff_of_true ended (.inr (not_lt.mp running))

/-- Beyond the signed integers the difference of two times comes out negative. -/
theorem toInt64_subUint64_neg {left right : ℕ} (ordered : right + 2 ^ 63 ≤ left) (bounded : left < 2 ^ 64) :
    toInt64 (subUint64 left right) < 0 := by
  have exact : subUint64 left right = left - right := by
    unfold subUint64
    omega
  have wraps : toInt64 (left - right) < 0 := by
    unfold toInt64
    rw [← Int.sub_bmod_right, Int.bmod_eq_of_le] <;> omega
  exact (congrArg toInt64 exact).trans_lt wraps

/-- The power reported from a checkpoint of a line is the line's, or the seconds since then have overflowed. -/
theorem reportPower_eq_iff {locked : LockedBalance} (bias : point.bias = locked.line.value point.timestamp)
    (slope : point.slope = locked.line.live point.timestamp) (reached : point.timestamp ≤ t) (bounded : t < 2 ^ 64) :
    reportPower (some (point.bias - point.slope * toInt64 (subUint64 t point.timestamp))) = .ok (locked.line.value t) ↔
      t < point.timestamp + 2 ^ 63 ∨ locked.line.live point.timestamp = 0 := by
  have slopeNonneg := locked.line_slope_nonneg
  have liveNonneg := Math.Line.live_nonneg slopeNonneg point.timestamp
  have remaining := Math.Line.value_eq_max slopeNonneg reached
  rw [reportPower_some, bias, slope, Except.ok.injEq]
  by_cases small : t < point.timestamp + 2 ^ 63
  · rw [toInt64_subUint64 reached bounded (by omega), ← remaining]
    exact iff_of_true rfl (.inl small)
  · rw [or_iff_right small]
    constructor
    · -- a live line would have grown
      intro same
      by_contra alive
      have falling := Math.Line.value_antitone slopeNonneg reached
      have wrapped := toInt64_subUint64_neg (not_lt.mp small) bounded
      have grown := mul_neg_of_pos_of_neg (lt_of_le_of_ne liveNonneg (Ne.symm alive)) wrapped
      have most := le_max_right 0 (locked.line.value point.timestamp -
        locked.line.live point.timestamp * toInt64 (subUint64 t point.timestamp))
      linarith
    · intro flat
      rw [remaining, flat, zero_mul, zero_mul]

/-- The lock of a ve as the events up to a time have left it. -/
def lockAt (bank : Bank) (events : List Event) (t veId : ℕ) : LockedBalance :=
  (run bank (upTo t events)).store.lockedAmountByUser veId

/-- The time at which the lock of a ve was last recorded, up to a time. -/
def recordedAt (bank : Bank) (events : List Event) (t veId : ℕ) : ℕ :=
  ((run bank (upTo t events)).store.history.lastUser veId).timestamp

/-- The last checkpoint of a ve, or of an id that is none, is its line. -/
theorem Sound.user {store : Store} (sound : Sound now store) (veId : ℕ) :
    (store.history.lastUser veId).bias =
        (store.lockedAmountByUser veId).line.value (store.history.lastUser veId).timestamp ∧
      (store.history.lastUser veId).slope =
        (store.lockedAmountByUser veId).line.live (store.history.lastUser veId).timestamp := by
  by_cases member : veId ∈ veIds store
  · exact sound.tracks.user veId member
  · obtain ⟨flat, bias, slope⟩ := sound.fresh veId member
    rw [flat, bias, slope]
    simp [Math.Line.value, Math.Line.live]

/-- At every time the power of a ve is the line of the lock at that time, unless a lock that was still running
when it was recorded is read so much later that the seconds in between overflow. -/
theorem votingPower_closed_form_iff (bank : Bank) {events : List Event}
    (chronological : Chronological Event.time events) {veId t : ℕ} (named : veId ≠ emptyVeId)
    (positive : 0 < t) (bounded : t < 2 ^ 64) (ctx : Ctx) :
    getVotingPower ctx (run bank events).store.history veId t 0 =
        .ok (max (lockAt bank events t veId).amount 0 / maxLockTime *
          max (((lockAt bank events t veId).endTime : ℤ) - t) 0) ↔
      t < recordedAt bank events t veId + 2 ^ 63 ∨ (lockAt bank events t veId).amount < maxLockTime ∨
        (lockAt bank events t veId).endTime ≤ recordedAt bank events t veId := by
  have logged := run_logged bank chronological
  obtain ⟨epoch, read, same⟩ := logged.answers veId t
  have ordered : Chronological Event.time (upTo t events) := List.Pairwise.filter _ chronological
  have elapsed : ∀ event ∈ upTo t events, event.time ≤ t := by
    intro event inside
    simpa using (List.mem_filter.mp inside).2
  obtain ⟨bias, slope⟩ := (run_sound bank ordered elapsed).user veId
  -- both branches of the query end at the same checkpoint
  have point : (if t ≤ ((run bank events).store.history.lastUser veId).timestamp then
        (run bank events).store.history.userCheckpoint veId epoch
      else (run bank events).store.history.lastUser veId) =
      (run bank (upTo t events)).store.history.lastUser veId := by
    rw [← same]
    split
    · rfl
    · next after =>
      rcases read.inside.eq_or_lt with last | earlier
      · rw [last]
        rfl
      · exact absurd (read.beyond _ earlier le_rfl).le after
  simp only [getVotingPower, if_pos positive, if_neg named, logged.findTimeEpoch_eq read]
  rw [point, ← line_value_eq, ← line_live_eq_zero_iff]
  exact reportPower_eq_iff bias slope (same ▸ read.reached) bounded

theorem votingPower_closed_form_iff_sample :
    getVotingPower sampleNow (run sampleBank (sampleLocks 4)).store.history 1 (12 * regulatedPeriod) 0 =
      .ok (max (lockAt sampleBank (sampleLocks 4) (12 * regulatedPeriod) 1).amount 0 / maxLockTime *
        max (((lockAt sampleBank (sampleLocks 4) (12 * regulatedPeriod) 1).endTime : ℤ) -
          (12 * regulatedPeriod : ℕ)) 0) := by
  have soon : 12 * regulatedPeriod < 2 ^ 63 := by decide
  apply (votingPower_closed_form_iff sampleBank (sampleLocks_run 4).1 (by decide) (by decide) (by decide) sampleNow).mpr
  exact .inl (soon.trans_le (Nat.le_add_left _ _))

/-- A lock of slope ten that ended long ago has power again at the time `2^63` seconds after it was recorded. -/
theorem votingPower_overflow_sample :
    getVotingPower sampleNow (run sampleBank (sampleLocks 4)).store.history 1 (2 ^ 63 + 10 * regulatedPeriod) 0 =
        .ok 92233720368571950080 ∧
      lockAt sampleBank (sampleLocks 4) (2 ^ 63 + 10 * regulatedPeriod) 1 = ⟨10 * maxLockTime, 14 * regulatedPeriod⟩ := by
  decide +kernel

end Rotofury.Soundness.Ve
