import Rotofury.Soundness.Ve.Regulation

/-! # The predicted total comes true

The query for a future time carries the last checkpoint forward without ever cutting it off; the end of a block
writes the carried checkpoint and cuts it off at zero. The power of the locks only falls, so what the cut removes
would never have come back: both give the same total at every later time.
-/

namespace Rotofury.Soundness.Ve

open Model.Sdk Model.Ve Machine

/-- The last checkpoint was written within the range of unix times. -/
def LastInRange (history : History) : Prop := history.last.timestamp = 0 ∨ InRange history.last.timestamp

theorem lastInRange_of_relock {ctx : Ctx} {history next : History} {veId : ℕ} {lockedOld lockedNew : LockedBalance}
    (ok : regulateUserCheckpoint ctx history veId lockedOld lockedNew = .ok next) : LastInRange next := by
  have inRange := (regulateUserCheckpoint_inRange ok).1
  rw [← regulateUserCheckpoint_timestamp ok] at inRange
  exact .inr inRange

theorem lastInRange_step {state next : State} {event : Event} (sound : Sound event.time state.store)
    (before : LastInRange state.store.history) (ok : step state event = .ok next) :
    LastInRange next.store.history := by
  cases step_cases sound ok with
  | quiet history => exact history ▸ before
  | regulated ok =>
    have inRange := (regulateCheckpoint_inRange ok).1
    rw [← (regulateCheckpoint_covered ok).2] at inRange
    exact .inr inRange
  | grown _ step => exact lastInRange_of_relock step.regulated
  | merged _ step => exact lastInRange_of_relock step.deposited.regulated
  | slashed _ step => exact lastInRange_of_relock step.regulated
  | slashedFresh _ _ _ regulated => exact lastInRange_of_relock regulated

theorem run_lastInRange (bank : Bank) {events : List Event} (chronological : Chronological Event.time events) :
    LastInRange (run bank events).store.history := by
  apply replay_throughout (fun state : State => LastInRange state.store.history)
    (fun state event => Sound event.time state.store) _ (.inl rfl)
  · intro before event after split
    obtain ⟨ordered, sooner⟩ := chronological.before split
    exact run_sound bank ordered sooner
  · intro state event next before sound ok
    exact lastInRange_step sound before ok

/-- The total at a time from now on depends on the carried bias alone. -/
theorem getTotalVotingPower_cases {now t : ℕ} {store : Store} (sound : Sound now store)
    (reached : LastInRange store.history) (ordered : now ≤ t) (positive : 0 < t) (ctx : Ctx) :
    getTotalVotingPower ctx store.history t 0 =
      if InRange t then .ok (max 0 (systemPower (veIds store) store.lockedAmountByUser store.history t))
      else .error (.panic "too large unix time") := by
  split
  · next inRange => exact getTotalVotingPower_eq sound.tracks ordered positive inRange ctx
  · next far =>
    have past := (sound.tracks.past store.history.epoch).trans ordered
    have before : store.history.last.timestamp < t := by
      rcases past.eq_or_lt with same | before
      · rcases reached with none | inRange
        · rw [History.last] at none
          omega
        · exact absurd (same ▸ inRange) far
      · exact before
    have started := (regulatedUnixTime_le store.history.last.timestamp).trans_lt before
    have ended : store.history.futurePower t (regulatedUnixTime store.history.last.timestamp) store.history.last =
        .error (.panic "too large unix time") := futurePower_too_far (Nat.dvd_mul_left _ _) far started
    simp only [getTotalVotingPower, if_pos positive, if_neg (not_le.mpr before)]
    rw [ended]
    rfl

/-- Writing the carried checkpoint, cut off at zero, does not change the carried bias where it counts. -/
theorem systemPower_regulated {ids : Finset ℕ} {locks : ℕ → LockedBalance} {history next : History} {now t : ℕ}
    (atNow : next.last.timestamp = now) (bias : next.last.bias = max 0 (systemPower ids locks history now))
    (excess : slopeExcess ids locks next = slopeExcess ids locks history) (nonneg : 0 ≤ slopeExcess ids locks history)
    (ordered : now ≤ t) : max 0 (systemPower ids locks next t) = max 0 (systemPower ids locks history t) := by
  have falls := power_antitone ids locks ordered
  have lapse : 0 ≤ slopeExcess ids locks history * ((t : ℤ) - now) := mul_nonneg nonneg (by omega)
  have carried : systemPower ids locks history t = systemPower ids locks history now + power ids locks t -
      power ids locks now - slopeExcess ids locks history * ((t : ℤ) - now) := by
    simp only [systemPower, carriedBias, power]
    ring
  have rewritten : systemPower ids locks next t = next.last.bias + power ids locks t - power ids locks now -
      slopeExcess ids locks history * ((t : ℤ) - now) := by
    simp only [systemPower, carriedBias, power, atNow, excess]
  rw [rewritten, carried, bias]
  rcases le_total 0 (systemPower ids locks history now) with powerful | spent
  · rw [max_eq_right powerful]
  · -- nothing is left, and nothing comes back
    rw [max_eq_left spent]
    omega

/-- The end of a block leaves the total at every later time as it was. -/
theorem endBlock_systemPower {state next : State} {event : Event} (sound : Sound event.time state.store)
    (ends : event.action = .endBlock) (ok : step state event = .ok next) {t : ℕ} (ordered : event.time ≤ t) :
    max 0 (systemPower (veIds next.store) next.store.lockedAmountByUser next.store.history t) =
      max 0 (systemPower (veIds state.store) state.store.lockedAmountByUser state.store.history t) := by
  simp only [step, ends, Except.ok_iffs] at ok
  obtain ⟨history, ended, rfl⟩ := ok
  unfold endBlocker at ended
  split at ended
  · obtain ⟨_, atNow, bias, excess, _⟩ := sound.tracks.regulate ended
    exact systemPower_regulated atNow bias excess sound.tracks.slopeExcess_nonneg ordered
  · cases ended
    rfl

/-- Whatever total is predicted for a time is the total that ends of blocks up to that time lead to. -/
theorem totalVotingPower_comes_true (bank : Bank) {events more : List Event} {now later : Ctx} {t : ℕ}
    (chronological : Chronological Event.time (events ++ more))
    (elapsed : ∀ event ∈ events, event.time ≤ now.blockTime) (future : now.blockTime ≤ t)
    (ends : ∀ event ∈ more, event.action = .endBlock) (within : ∀ event ∈ more, event.time ≤ t) :
    getTotalVotingPower later (run bank (events ++ more)).store.history t 0 =
      getTotalVotingPower now (run bank events).store.history t 0 := by
  have positive : 0 < t := now.time_pos.trans_le future
  have past : ∀ event ∈ events, event.time ≤ t := fun event inside => (elapsed event inside).trans future
  have started := (List.pairwise_append.mp chronological).1
  rw [getTotalVotingPower_cases (run_sound bank started past) (run_lastInRange bank started) le_rfl positive]
  induction more using List.reverseRecOn with
  | nil =>
    rw [List.append_nil]
    exact getTotalVotingPower_cases (run_sound bank started past) (run_lastInRange bank started) le_rfl positive _
  | append_singleton before event ih =>
    rw [← List.append_assoc] at chronological ⊢
    obtain ⟨ordered, sooner⟩ := chronological.before rfl
    have sound := run_sound bank ordered sooner
    have reached : event.time ≤ t := within event (by simp)
    have same := ih ordered (fun event inside => ends event (by simp [inside]))
      fun event inside => within event (by simp [inside])
    rw [getTotalVotingPower_cases (sound.wait reached) (run_lastInRange bank ordered) le_rfl positive] at same
    rw [← same]
    have last : run bank (events ++ before ++ [event]) = advance step (run bank (events ++ before)) event :=
      replay_concat ..
    have elapsedAll : ∀ other ∈ events ++ before ++ [event], other.time ≤ t := by
      intro other inside
      rcases List.mem_append.mp inside with inside | final
      · exact (sooner other inside).trans reached
      · exact List.mem_singleton.mp final ▸ reached
    rw [getTotalVotingPower_cases (run_sound bank chronological elapsedAll) (run_lastInRange bank chronological) le_rfl
      positive, last]
    rcases advance_cases step (run bank (events ++ before)) event with success | unchanged
    · rw [endBlock_systemPower sound (ends event (by simp)) success reached]
    · rw [unchanged]

/-- The end of a block a week after two locks were created. -/
def sampleEnd : Event := ⟨sampleNow, .endBlock⟩

theorem totalVotingPower_comes_true_sample :
    getTotalVotingPower sampleNow (run sampleBank (sampleLocks 4 ++ [sampleEnd])).store.history (13 * regulatedPeriod) 0 =
      getTotalVotingPower sampleNow (run sampleBank (sampleLocks 4)).store.history (13 * regulatedPeriod) 0 := by
  obtain ⟨chronological, elapsed, _⟩ := sampleLocks_run 4
  have ordered : Chronological Event.time (sampleLocks 4 ++ [sampleEnd]) := by
    refine List.pairwise_append.mpr ⟨chronological, List.pairwise_singleton _ _, fun event inside last member => ?_⟩
    exact List.mem_singleton.mp member ▸ elapsed event inside
  refine totalVotingPower_comes_true sampleBank ordered elapsed (by decide) ?_ ?_
  · exact fun event inside => List.mem_singleton.mp inside ▸ rfl
  · exact fun event inside => List.mem_singleton.mp inside ▸ by decide

end Rotofury.Soundness.Ve
