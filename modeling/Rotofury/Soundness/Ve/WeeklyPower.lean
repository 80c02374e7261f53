import Rotofury.Soundness.Ve.PastTotal
import Rotofury.Soundness.Ve.ClosedForm

/-! # The powers at the starts of past weeks

The power of a ve at a past time is read off the last checkpoint before it, and later checkpoints do not change it. At
the start of a week the total does not depend on block numbers either. Where locks only grow, the total at the start of
every past week therefore stays the sum of the powers, whatever happens later.
-/

namespace Rotofury.Model.Ve

open Model.Sdk

variable {store : Store} {veId : ℕ} {ctx : Ctx} {lockedOld lockedNew : LockedBalance} {state next : State}
  {event : Event}

/-- The power of a ve read off the last of its checkpoints that is not after the time. -/
def History.userPowerAt (history : History) (veId t : ℕ) : ℤ :=
  let point := history.userCheckpoint veId (findTimeEpoch (history.userCheckpoint veId) t (history.userEpoch veId))
  max 0 (point.bias - point.slope * toInt64 (subUint64 t point.timestamp))

end Rotofury.Model.Ve

namespace Rotofury.Soundness.Ve

open Model.Sdk Model.Ve Except

section Users

variable {history next : History} {now t veId : ℕ}

/-- The checkpoints of each ve are in the order of their times. -/
structure UserLog (history : History) : Prop where
  start : ∀ veId, (history.userCheckpoint veId 0).timestamp = 0
  ordered : ∀ veId earlier later, earlier ≤ later → later ≤ history.userEpoch veId →
    (history.userCheckpoint veId earlier).timestamp ≤ (history.userCheckpoint veId later).timestamp

theorem userPowerAt_nonneg (history : History) (veId t : ℕ) : 0 ≤ history.userPowerAt veId t := le_max_left _ _

theorem UserLog.find (logged : UserLog history) (veId t : ℕ) :
    ReadAt history veId t (findTimeEpoch (history.userCheckpoint veId) t (history.userEpoch veId)) := by
  have start : (history.userCheckpoint veId 0).timestamp ≤ t := (logged.start veId).trans_le (Nat.zero_le t)
  obtain ⟨inside, reached, beyond⟩ := findTimeEpoch_spec start (logged.ordered veId)
  exact ⟨inside, reached, beyond⟩

/-- Both branches of the query read the same checkpoint. -/
theorem UserLog.getVotingPower_eq (logged : UserLog history) (named : veId ≠ emptyVeId) (positive : 0 < t) (ctx : Ctx) :
    getVotingPower ctx history veId t 0 = .ok (history.userPowerAt veId t) := by
  have read := logged.find veId t
  simp only [getVotingPower, if_pos positive, if_neg named, History.userPowerAt]
  split
  · exact reportPower_some _
  · next after =>
    have last : findTimeEpoch (history.userCheckpoint veId) t (history.userEpoch veId) = history.userEpoch veId := by
      rcases read.inside.eq_or_lt with last | earlier
      · exact last
      · exact absurd (read.beyond _ earlier le_rfl).le after
    rw [last]
    exact reportPower_some _

theorem UserLog.extend (logged : UserLog history) (grown : Extends now history next)
    (past : ∀ veId epoch, (history.userCheckpoint veId epoch).timestamp ≤ now) : UserLog next where
  start := fun veId => (congrArg Checkpoint.timestamp (grown.kept veId 0 (Nat.zero_le _))).trans (logged.start veId)
  ordered := grown.ordered past logged.ordered

/-- Checkpoints that are added now do not change the power at an earlier time. -/
theorem UserLog.userPowerAt_extend (logged : UserLog history) (grown : Extends now history next)
    (past : ∀ veId epoch, (history.userCheckpoint veId epoch).timestamp ≤ now) (before : t < now) (veId : ℕ) :
    next.userPowerAt veId t = history.userPowerAt veId t := by
  have loggedNext := logged.extend grown past
  have read := logged.find veId t
  have start : (next.userCheckpoint veId 0).timestamp ≤ t := (loggedNext.start veId).trans_le (Nat.zero_le t)
  have kept := grown.kept veId _ read.inside
  have found := findTimeEpoch_eq start (loggedNext.ordered veId) (read.inside.trans (grown.epoch veId))
    (kept ▸ read.reached) (by
      intro later after inside
      rcases le_or_gt later (history.userEpoch veId) with old | new
      · rw [grown.kept veId later old]
        exact read.beyond later after old
      · rw [grown.added veId later new inside]
        exact before)
  rw [History.userPowerAt, History.userPowerAt, found, kept]

end Users

/-- The ids that are no ves have no power at any time. -/
def Unborn (store : Store) : Prop :=
  ∀ veId ∉ veIds store, ∀ epoch, (store.history.userCheckpoint veId epoch).bias = 0 ∧
    (store.history.userCheckpoint veId epoch).slope = 0

theorem Unborn.userPowerAt (unborn : Unborn store) (outside : veId ∉ veIds store) (t : ℕ) :
    store.history.userPowerAt veId t = 0 := by
  have zero := unborn veId outside
  simp [History.userPowerAt, fun epoch => (zero epoch).1, fun epoch => (zero epoch).2]

theorem regulateUserCheckpoint_others {history next : History} {other : ℕ} {ids : Finset ℕ}
    {locks : ℕ → LockedBalance} (tracks : Tracks ids locks ctx.blockTime history)
    (ok : regulateUserCheckpoint ctx history veId lockedOld lockedNew = .ok next) (different : other ≠ veId) :
    next.userCheckpoint other = history.userCheckpoint other := by
  simp only [regulateUserCheckpoint, ok_iffs] at ok
  obtain ⟨_, _, _, _, middle, regulated, rfl⟩ := ok
  obtain ⟨_, _, _, _, kept⟩ := regulateCheckpoint_ok tracks regulated
  obtain ⟨_, _, _, userCheckpoint⟩ := scheduleSlopeChanges_frame middle ctx lockedOld lockedNew
    (userPoint ctx lockedOld).slope (userPoint ctx lockedNew).slope
  simp only [History.pushUserCheckpoint, History.setUserCheckpoint, Function.update_of_ne different, userCheckpoint,
    kept.userCheckpoint]

theorem Unborn.relock {next : Store} (unborn : Unborn store) (sound : Sound ctx.blockTime store)
    (step : RelockStep ctx store next veId lockedOld lockedNew) : Unborn next := by
  intro other outside
  rw [step.veIds_eq] at outside
  have different : other ≠ veId := by
    rintro rfl
    exact outside step.member
  rw [regulateUserCheckpoint_others sound.tracks step.regulated different]
  exact unborn other outside

theorem veIds_created (store : Store) (receiver : Address) : veIds store ⊆ veIds (createdStore store receiver) :=
  Finset.Ico_subset_Ico le_rfl (Nat.le_succ _)

theorem step_veIds (sound : Sound event.time state.store) (ok : step state event = .ok next) :
    veIds state.store ⊆ veIds next.store := by
  cases step_cases sound ok with
  | quiet _ _ nextVeId => exact (congrArg (Finset.Ico firstVeId) nextVeId).ge
  | regulated _ _ nextVeId => exact (congrArg (Finset.Ico firstVeId) nextVeId).ge
  | grown created step =>
    rw [step.veIds_eq]
    rcases created with rfl | ⟨receiver, rfl⟩
    · exact subset_rfl
    · exact veIds_created _ receiver
  | merged _ step => rw [step.deposited.veIds_eq, step.burned.veIds_eq]
  | slashed _ step => rw [step.veIds_eq]
  | slashedFresh _ _ _ _ _ nextVeId => exact (congrArg (Finset.Ico firstVeId) nextVeId).ge

/-- The powers of all ves at a time. -/
def powersAt (store : Store) (t : ℕ) : ℤ := ∑ veId ∈ veIds store, store.history.userPowerAt veId t

theorem powersAt_nonneg (store : Store) (t : ℕ) : 0 ≤ powersAt store t :=
  Finset.sum_nonneg fun veId _ => userPowerAt_nonneg _ veId t

/-- A merge of a lock that has no power left keeps the checkpoint exact. -/
theorem Exact.merged {middle next : Store} {msg : MsgMerge} (exact : Exact store) (sound : Sound ctx.blockTime store)
    (nonneg : LocksNonneg store) (step : MergeStep ctx store middle next msg)
    (worthless : (store.lockedAmountByUser msg.fromVeId).line.value ctx.blockTime = 0) : Exact next := by
  have agrees : Agrees ctx store := fun t ordered inRange =>
    exact.totalIsSum sound ordered (ctx.time_pos.trans_le ordered) inRange ctx
  obtain ⟨atNow, bias, excess⟩ := step.regulated sound nonneg agrees
  constructor
  · rw [excess, exact.slope, Math.Line.live_of_value worthless, add_zero]
  · rw [atNow, bias, worthless, add_zero]

/-- Locks only grow, or are given up without power. -/
def Event.Growing (state : State) (event : Event) : Prop :=
  (∀ msg, event.action = .merge msg → (state.store.lockedAmountByUser msg.fromVeId).line.value event.time = 0) ∧
    ∀ veId amount, event.action ≠ .slash veId amount

theorem Exact.growing (exact : Exact state.store) (sound : Sound event.time state.store)
    (nonneg : LocksNonneg state.store) (growing : Event.Growing state event)
    (ok : Model.Ve.step state event = .ok next) : Exact next.store := by
  by_cases merges : ∃ msg, event.action = .merge msg
  · obtain ⟨msg, action⟩ := merges
    obtain ⟨ctx, _⟩ := event
    subst action
    simp only [Model.Ve.step, bind_ok_iff] at ok
    obtain ⟨_, valid, ok⟩ := ok
    obtain ⟨middle, step⟩ := merge_relocks sound ok valid
    exact exact.merged sound nonneg step (growing.1 msg rfl)
  · exact exact.step sound ⟨fun msg action => merges ⟨msg, action⟩, growing.2⟩ ok

/-- What holds of the store at a time in a run of growing events: the totals at the starts of the weeks before are the
sums of the powers. -/
structure Settled (now : ℕ) (store : Store) : Prop where
  sound : Sound now store
  nonneg : LocksNonneg store
  exact : Exact store
  reached : LastInRange store.history
  systemLog : SystemLog store.history
  userLog : UserLog store.history
  unborn : Unborn store
  weeks : ∀ week, regulatedPeriod ∣ week → 0 < week → week < now → InRange week → ∀ ctx,
    getTotalVotingPower ctx store.history week 0 = .ok (powersAt store week)

namespace Settled

variable {now t : ℕ} {store : Store}

theorem genesis : Settled 0 Store.genesis where
  sound := sound_genesis
  nonneg := fun _ => le_rfl
  exact := exact_genesis
  reached := .inl rfl
  systemLog := ⟨rfl, fun _ inside => absurd inside (Nat.not_lt_zero _)⟩
  userLog := ⟨fun _ => rfl, fun _ _ _ _ _ => le_rfl⟩
  unborn := fun _ _ _ => ⟨rfl, rfl⟩
  weeks := fun _ _ _ before => absurd before (Nat.not_lt_zero _)

/-- From now on the total is the sum of the powers. -/
theorem total_eq (settled : Settled now store) (ordered : now ≤ t) (positive : 0 < t) (inRange : InRange t) (ctx : Ctx) :
    getTotalVotingPower ctx store.history t 0 = .ok (powersAt store t) := by
  obtain ⟨powers, each, total⟩ := settled.exact.totalIsSum settled.sound ordered positive inRange ctx
  rw [total]
  congr 1
  refine Finset.sum_congr rfl fun veId member => ?_
  have named : veId ≠ emptyVeId := Nat.one_le_iff_ne_zero.mp (Finset.mem_Ico.mp member).1
  exact Except.ok.inj ((each veId member).symm.trans (settled.userLog.getVotingPower_eq named positive ctx))

theorem wait (settled : Settled now store) {later : ℕ} (ordered : now ≤ later) : Settled later store :=
  { settled with
    sound := settled.sound.wait ordered
    weeks := by
      intro week whole positive before inRange ctx
      rcases Nat.lt_or_ge week now with past | future
      · exact settled.weeks week whole positive past inRange ctx
      · exact settled.total_eq future positive inRange ctx }

/-- A step does not change the powers at an earlier time. -/
theorem step_powers (settled : Settled event.time state.store) (ok : step state event = .ok next)
    (before : t < event.time) :
    (∀ veId, next.store.history.userPowerAt veId t = state.store.history.userPowerAt veId t) ∧
      powersAt next.store t = powersAt state.store t := by
  have same : ∀ veId, next.store.history.userPowerAt veId t = state.store.history.userPowerAt veId t :=
    settled.userLog.userPowerAt_extend (step_extends settled.sound ok) settled.sound.tracks.userPast before
  refine ⟨same, ?_⟩
  -- a new ve has had no power before
  rw [powersAt, powersAt, Finset.sum_subset (step_veIds settled.sound ok)
    fun veId _ outside => settled.unborn.userPowerAt outside t]
  exact Finset.sum_congr rfl fun veId _ => same veId

theorem step_unborn (settled : Settled event.time state.store) (growing : Event.Growing state event)
    (ok : step state event = .ok next) : Unborn next.store := by
  have sound := settled.sound
  cases step_cases sound ok with
  | quiet history _ nextVeId =>
    intro veId outside
    rw [veIds, nextVeId] at outside
    rw [history]
    exact settled.unborn veId outside
  | regulated ok _ nextVeId =>
    intro veId outside
    rw [veIds, nextVeId] at outside
    obtain ⟨_, _, _, _, kept⟩ := regulateCheckpoint_ok sound.tracks ok
    rw [kept.userCheckpoint]
    exact settled.unborn veId outside
  | grown created step =>
    rcases created with rfl | ⟨receiver, rfl⟩
    · exact settled.unborn.relock sound step
    · have unborn : Unborn (createdStore state.store receiver) := fun veId outside =>
        settled.unborn veId fun inside => outside (veIds_created _ receiver inside)
      exact unborn.relock (sound.created receiver) step
  | merged _ step => exact (settled.unborn.relock sound step.burned).relock (step.burned.sound sound) step.deposited
  | slashed action => exact absurd action (growing.2 _ _)
  | slashedFresh action => exact absurd action (growing.2 _ _)

theorem step (settled : Settled event.time state.store) (growing : Event.Growing state event)
    (ok : step state event = .ok next) : Settled event.time next.store where
  sound := settled.sound.step ok
  nonneg := settled.nonneg.step settled.sound (fun veId amount action => absurd action (growing.2 veId amount)) ok
  exact := settled.exact.growing settled.sound settled.nonneg growing ok
  reached := lastInRange_step settled.sound settled.reached ok
  systemLog := step_systemLog settled.sound settled.systemLog ok
  userLog := settled.userLog.extend (step_extends settled.sound ok) settled.sound.tracks.userPast
  unborn := settled.step_unborn growing ok
  weeks := by
    intro week whole positive before inRange ctx
    rw [step_total settled.sound settled.reached settled.systemLog ok positive before (fun _ _ => .inr (.inl whole)),
      (settled.step_powers ok before).2]
    exact settled.weeks week whole positive before inRange ctx

end Settled

end Rotofury.Soundness.Ve
