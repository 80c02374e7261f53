import Rotofury.Soundness.Ve.Runs

/-! # The total voting power

As long as locks only grow or are withdrawn after their end, the system checkpoint has exactly the bias and the
slope of the locks, and the total voting power at any later time is the sum of the powers of the ves.
-/

namespace Rotofury.Soundness.Ve

open Model.Sdk Model.Ve Machine

variable {store next : Store} {now t : ℕ}

/-- The system checkpoint has the slope and the bias of the locks. -/
structure Exact (store : Store) : Prop where
  slope : slopeExcess (veIds store) store.lockedAmountByUser store.history = 0
  bias : store.history.last.bias =
    power (veIds store) store.lockedAmountByUser store.history.last.timestamp

theorem Exact.systemPower (exact : Exact store) (t : ℕ) :
    systemPower (veIds store) store.lockedAmountByUser store.history t =
      power (veIds store) store.lockedAmountByUser t := by
  rw [Ve.systemPower, carriedBias, exact.slope, exact.bias, power, power]
  ring

theorem exact_genesis : Exact Store.genesis := by
  constructor <;> rfl

theorem Exact.congr (exact : Exact store) (history : next.history = store.history)
    (locks : next.lockedAmountByUser = store.lockedAmountByUser) (nextVeId : next.nextVeId = store.nextVeId) :
    Exact next := by
  have sameIds : veIds next = veIds store := by rw [veIds, veIds, nextVeId]
  constructor
  · rw [sameIds, locks, history]
    exact exact.slope
  · rw [sameIds, locks, history]
    exact exact.bias

/-- A ve without a lock adds no power. -/
theorem Exact.created {base : Store} (exact : Exact store) (sound : Sound now store)
    (created : base = store ∨ ∃ receiver, base = createdStore store receiver) : Exact base := by
  rcases created with rfl | ⟨receiver, rfl⟩
  · exact exact
  · have included : veIds store ⊆ veIds (createdStore store receiver) :=
      Finset.Ico_subset_Ico le_rfl (Nat.le_succ _)
    have flat : ∀ i ∈ veIds (createdStore store receiver), i ∉ veIds store →
        (store.lockedAmountByUser i).line = ⟨0, 0⟩ := fun i _ outside => (sound.fresh i outside).1
    have slope := exact.slope
    have bias := exact.bias
    constructor
    · rw [slopeExcess, Math.liveSlope, ← sum_flat included flat (·.live _) (ite_self _)] at slope
      exact slope
    · rw [power, Math.total, ← sum_flat included flat (·.value _) (zero_mul _)] at bias
      exact bias

/-- Growing a lock adds to the checkpoint what the lock gains. -/
theorem Exact.grown {ctx : Ctx} {veId : ℕ} {lockedOld lockedNew : LockedBalance} (exact : Exact store)
    (sound : Sound ctx.blockTime store) (step : RelockStep ctx store next veId lockedOld lockedNew)
    (value : lockedOld.line.value ctx.blockTime ≤ lockedNew.line.value ctx.blockTime)
    (live : lockedOld.line.live ctx.blockTime ≤ lockedNew.line.live ctx.blockTime) : Exact next := by
  have relocked := step.relocked sound
  constructor
  · rw [step.veIds_eq, step.locks, relocked.excess, exact.slope]
    omega
  · have nonneg := power_nonneg (veIds store) store.lockedAmountByUser ctx.blockTime
    have grown := step.power_eq ctx.blockTime
    rw [step.veIds_eq, step.locks] at grown ⊢
    rw [relocked.timestamp, relocked.bias, exact.systemPower, grown]
    omega

/-- The events other than merges and slashes. -/
def Event.Steady (event : Event) : Prop :=
  (∀ msg, event.action ≠ .merge msg) ∧ ∀ veId amount, event.action ≠ .slash veId amount

theorem Exact.step {state next : State} {event : Event} (exact : Exact state.store)
    (sound : Sound event.time state.store) (steady : Event.Steady event) (ok : step state event = .ok next) :
    Exact next.store := by
  cases step_cases sound ok with
  | quiet history locks nextVeId => exact exact.congr history locks nextVeId
  | regulated ok locks nextVeId =>
    obtain ⟨_, timestamp, bias, slope, _⟩ := sound.tracks.regulate ok
    have sameIds : veIds next.store = veIds state.store := by rw [veIds, veIds, nextVeId]
    constructor
    · rw [sameIds, locks, slope, exact.slope]
    · rw [sameIds, locks, timestamp, bias, exact.systemPower, max_eq_right (power_nonneg _ _ _)]
  | grown created step value live _ =>
    exact (exact.created sound created).grown (sound.created_or created) step value live
  | merged action => exact absurd action (steady.1 _)
  | slashed action => exact absurd action (steady.2 _ _)
  | slashedFresh action => exact absurd action (steady.2 _ _)

theorem run_exact (bank : Bank) {events : List Event} (chronological : Chronological Event.time events)
    (steady : ∀ event ∈ events, Event.Steady event) : Exact (run bank events).store := by
  refine (replay_clocked Event.time (fun now (state : State) => Sound now state.store ∧ Exact state.store)
    Event.Steady
    ?_ ?_ ⟨sound_genesis, exact_genesis⟩ chronological steady
    (fun event member => List.le_sum_of_mem (List.mem_map_of_mem (f := Event.time) member))).2
  · rintro now later state ordered ⟨sound, exact⟩
    exact ⟨Sound.wait sound ordered, exact⟩
  · rintro state event next ⟨sound, exact⟩ steadyEvent ok
    exact ⟨sound.step ok, exact.step sound steadyEvent ok⟩

/-- The total voting power at a time is the sum of the powers of the ves created so far. -/
def TotalIsSum (ctx : Ctx) (store : Store) (t : ℕ) : Prop :=
  ∃ powers : ℕ → ℤ,
    (∀ veId ∈ veIds store, getVotingPower ctx store.history veId t 0 = .ok (powers veId)) ∧
      getTotalVotingPower ctx store.history t 0 = .ok (∑ veId ∈ veIds store, powers veId)

/-- What the queries compare: the carried system checkpoint, cut off at zero, and the lines of the locks. -/
theorem Sound.totalIsSum_iff (sound : Sound now store) (ordered : now ≤ t) (positive : 0 < t) (inRange : InRange t)
    (ctx : Ctx) :
    TotalIsSum ctx store t ↔
      max 0 (systemPower (veIds store) store.lockedAmountByUser store.history t) =
        power (veIds store) store.lockedAmountByUser t := by
  have total := getTotalVotingPower_eq sound.tracks ordered positive inRange ctx
  have each : ∀ veId ∈ veIds store,
      getVotingPower ctx store.history veId t 0 = .ok ((store.lockedAmountByUser veId).line.value t) := by
    intro veId member
    have named : veId ≠ emptyVeId := Nat.one_le_iff_ne_zero.mp (Finset.mem_Ico.mp member).1
    exact getVotingPower_eq sound.tracks member named ordered positive inRange.lt ctx
  constructor
  · rintro ⟨powers, eachPower, totalPower⟩
    rw [Except.ok.inj (total.symm.trans totalPower)]
    exact Finset.sum_congr rfl fun veId member =>
      Except.ok.inj ((eachPower veId member).symm.trans (each veId member))
  · intro same
    exact ⟨_, each, total.trans (congrArg Except.ok same)⟩

theorem Exact.totalIsSum (exact : Exact store) (sound : Sound now store) (ordered : now ≤ t) (positive : 0 < t)
    (inRange : InRange t) (ctx : Ctx) : TotalIsSum ctx store t := by
  rw [sound.totalIsSum_iff ordered positive inRange, exact.systemPower, max_eq_right (power_nonneg _ _ _)]

/-- In every run without merges and slashes the total voting power at any later time is the sum of the powers of
the ves created so far. -/
theorem totalVotingPower_eq_sum (bank : Bank) {events : List Event} (ctx : Ctx)
    (chronological : Chronological Event.time events) (elapsed : ∀ event ∈ events, event.time ≤ ctx.blockTime)
    (steady : ∀ event ∈ events, Event.Steady event) {t : ℕ} (ordered : ctx.blockTime ≤ t) (inRange : InRange t) :
    TotalIsSum ctx (run bank events).store t := by
  have sound := run_sound bank chronological elapsed
  have exact := run_exact bank chronological steady
  exact exact.totalIsSum sound ordered (ctx.time_pos.trans_le ordered) inRange ctx

/-- One account holds enough to lock. -/
def sampleBank : Bank where
  balance := fun account denom => if account = 1 ∧ denom = "airon" then 10000 * maxLockTime else 0
  supply := fun denom => if denom = "airon" then 10000 * maxLockTime else 0

def sampleCtx (blockTime : ℕ) (blockHeight : ℤ) (time_pos : 0 < blockTime) (time_lt : blockTime < 2 ^ 63) : Ctx :=
  ⟨blockTime, blockHeight, "airon", none, time_pos, time_lt⟩

def sampleFirst : Ctx := sampleCtx (10 * regulatedPeriod) 1 (by decide) (by decide)

/-- A week later. -/
def sampleNow : Ctx := sampleCtx (11 * regulatedPeriod) 2 (by decide) (by decide)

def sampleLater (height : ℤ) : Ctx := sampleCtx (11 * regulatedPeriod + 5) height (by decide) (by decide)

/-- A lock with slope ten for four weeks, a deposit a week later beside a second lock with slope three, which ends first,
and the end of a block. -/
def sampleEvents : List Event := [
  ⟨sampleFirst, .create ⟨1, none, ⟨"airon", 10 * maxLockTime⟩, 4 * regulatedPeriod⟩⟩,
  ⟨sampleNow, .deposit ⟨1, 1, ⟨"airon", maxLockTime⟩⟩⟩,
  ⟨sampleNow, .create ⟨1, none, ⟨"airon", 3 * maxLockTime⟩, 2 * regulatedPeriod⟩⟩,
  ⟨sampleLater 3, .endBlock⟩]

theorem totalVotingPower_eq_sum_sample :
    veIds (run sampleBank sampleEvents).store = {1, 2} ∧
      TotalIsSum (sampleCtx (12 * regulatedPeriod) 4 (by decide) (by decide)) (run sampleBank sampleEvents).store
        (12 * regulatedPeriod + 5) := by
  have chronological : Chronological Event.time sampleEvents := by
    unfold Chronological
    decide
  have elapsed : ∀ event ∈ sampleEvents, event.time ≤ 12 * regulatedPeriod := by decide
  have steady : ∀ event ∈ sampleEvents, Event.Steady event := by
    simp [sampleEvents, Event.Steady]
  refine ⟨by decide +kernel, ?_⟩
  exact totalVotingPower_eq_sum sampleBank _ chronological elapsed steady (by decide) (by decide)

/-- Beyond the range of unix times the loop for a future time ends in a panic. -/
theorem futurePower_too_far {history : History} {ti : ℕ} {point : Checkpoint} (week : regulatedPeriod ∣ ti)
    (far : ¬ InRange t) (before : ti < t) :
    history.futurePower t ti point = .error (.panic "too large unix time") := by
  have period : 0 < regulatedPeriod := by decide
  rw [History.futurePower]
  by_cases more : ti + regulatedPeriod ≤ maxUnixTime
  · have stepped : nextRegulatedUnixTime ti = .ok (ti + regulatedPeriod) :=
      nextRegulatedUnixTime_ok_iff.mpr ⟨week, more, rfl⟩
    have notYet : ¬ t ≤ ti + regulatedPeriod := by
      intro reached
      have sameWeek : regulatedUnixTime (t - 1) ≤ ti := regulatedUnixTime_le_of_lt week (by omega)
      exact far ((Nat.add_le_add_right sameWeek _).trans more)
    rw [stepped, Except.ok_bind]
    dsimp only
    rw [if_neg notYet]
    exact futurePower_too_far (Dvd.dvd.add week dvd_rfl) far (not_le.mp notYet)
  · have ended : nextRegulatedUnixTime ti = .error (.panic "too large unix time") := by
      have fits : regulatedPeriod ≤ maxUnixTime := by decide
      have tooLarge : maxUnixTime - regulatedPeriod < ti := by omega
      simp [nextRegulatedUnixTime, checkRegulatedUnixTime, regulatedUnixTime_eq_iff.mpr week, tooLarge, Except.require]
    rw [ended]
    rfl
termination_by t - ti
decreasing_by
  have period : 0 < regulatedPeriod := by decide
  omega

/-- At genesis the total voting power of no ves is not zero at every time. -/
theorem totalVotingPower_too_far :
    getTotalVotingPower (sampleCtx 1 1 (by decide) (by decide)) (run sampleBank []).store.history (2 ^ 63) 0 =
      .error (.panic "too large unix time") := by
  have far : ¬ InRange (2 ^ 63) := by decide
  have ended : (run sampleBank []).store.history.futurePower (2 ^ 63) 0 (run sampleBank []).store.history.last =
      .error (.panic "too large unix time") := futurePower_too_far (dvd_zero _) far (by decide)
  exact congrArg (fun power => power >>= fun power => reportPower (some power)) ended

end Rotofury.Soundness.Ve
