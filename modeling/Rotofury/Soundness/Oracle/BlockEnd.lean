import Rotofury.Model.Oracle.EndBlock

/-! # The parts of a block's end

A block ends a vote period, a slash window, both or neither. What a successful end has done is what its parts have done.
-/

namespace Rotofury.Soundness.Oracle

open Model.Sdk Model.Oracle Except

variable {period : ℕ} {ctx : Ctx} {middle state next : State} {allocations : List (ValAddress × List Coin)}
  {blockEnd : BlockEnd} {slashed : List ValAddress}

theorem isPeriodLastBlock_ok {height : ℕ} {last : Bool} (ok : isPeriodLastBlock height period = .ok last) :
    period ≠ 0 ∧ (last = true ↔ (height + 1) % period = 0) := by
  simp only [isPeriodLastBlock, ok_iffs] at ok
  obtain ⟨_, positive, rfl⟩ := ok
  exact ⟨positive, beq_iff_eq⟩

theorem isPeriodLastBlock_of_ne_zero (positive : period ≠ 0) (height : ℕ) :
    isPeriodLastBlock height period = .ok ((height + 1) % period == 0) := by
  rw [isPeriodLastBlock, require, if_pos positive]
  rfl

/-- The vote period's part: nothing in a block that is not its last. -/
def VotePart (ctx : Ctx) (state middle : State) (allocations : List (ValAddress × List Coin)) : Prop :=
  if (ctx.blockHeight + 1) % ctx.params.votePeriod = 0 then endVotePeriod ctx state = .ok (middle, allocations)
  else middle = state ∧ allocations = []

/-- The slash window's part. -/
def SlashPart (ctx : Ctx) (middle final : State) (slashed : List ValAddress) : Prop :=
  if (ctx.blockHeight + 1) % ctx.params.slashWindow = 0 then endSlashWindow ctx middle = .ok (final, slashed)
  else final = middle ∧ slashed = []

private theorem slashPart_of_ok (ok : (do
      let windowEnds ← isPeriodLastBlock ctx.blockHeight ctx.params.slashWindow
      let (state, slashed) ← if windowEnds then endSlashWindow ctx middle else pure (middle, [])
      pure (⟨state, allocations, slashed⟩ : BlockEnd)) = .ok blockEnd) :
    ctx.params.slashWindow ≠ 0 ∧ blockEnd.allocations = allocations ∧
      SlashPart ctx middle blockEnd.state blockEnd.slashed := by
  simp only [bind_ok_iff] at ok
  obtain ⟨windowEnds, isWindow, ok⟩ := ok
  obtain ⟨window, window_iff⟩ := isPeriodLastBlock_ok isWindow
  unfold SlashPart
  split at ok
  · next ends =>
    simp only [ok_iffs, Prod.exists] at ok
    obtain ⟨final, slashed, reset, rfl⟩ := ok
    rw [if_pos (window_iff.mp ends)]
    exact ⟨window, rfl, reset⟩
  · next ends =>
    cases ok
    rw [if_neg fun last => ends (window_iff.mpr last)]
    exact ⟨window, rfl, rfl, rfl⟩

theorem endBlocker_ok (ok : endBlocker ctx state = .ok blockEnd) :
    ctx.params.votePeriod ≠ 0 ∧ ctx.params.slashWindow ≠ 0 ∧ ∃ middle, VotePart ctx state middle blockEnd.allocations ∧
      SlashPart ctx middle blockEnd.state blockEnd.slashed := by
  simp only [endBlocker, bind_ok_iff] at ok
  obtain ⟨periodEnds, isPeriod, ok⟩ := ok
  obtain ⟨period, period_iff⟩ := isPeriodLastBlock_ok isPeriod
  unfold VotePart
  split at ok
  · next ends =>
    simp only [bind_ok_iff, Prod.exists] at ok
    obtain ⟨middle, allocations, votes, slashes⟩ := ok
    obtain ⟨window, same, part⟩ := slashPart_of_ok (by simpa only [bind_ok_iff] using slashes)
    rw [same]
    exact ⟨period, window, middle, by rwa [if_pos (period_iff.mp ends)], part⟩
  · next ends =>
    obtain ⟨window, same, part⟩ := slashPart_of_ok ok
    rw [same]
    exact ⟨period, window, state, by rw [if_neg fun last => ends (period_iff.mpr last)]; exact ⟨rfl, rfl⟩, part⟩

/-- Parts that succeed are the end of a block. -/
theorem endBlocker_of_parts {final : State} (period : ctx.params.votePeriod ≠ 0) (window : ctx.params.slashWindow ≠ 0)
    (votes : VotePart ctx state middle allocations) (slashes : SlashPart ctx middle final slashed) :
    endBlocker ctx state = .ok ⟨final, allocations, slashed⟩ := by
  rw [endBlocker, isPeriodLastBlock_of_ne_zero period, isPeriodLastBlock_of_ne_zero window]
  simp only [ok_bind, beq_iff_eq]
  unfold VotePart at votes
  unfold SlashPart at slashes
  -- the rest of the block stands in both branches of the vote period's part
  split at votes
  · next ends =>
    rw [if_pos ends, votes, ok_bind]
    split at slashes
    · next closes =>
      rw [if_pos closes, slashes]
      rfl
    · next closes =>
      obtain ⟨rfl, rfl⟩ := slashes
      rw [if_neg closes]
      rfl
  · next ends =>
    obtain ⟨rfl, rfl⟩ := votes
    rw [if_neg ends, pure_bind]
    split at slashes
    · next closes =>
      rw [if_pos closes, slashes]
      rfl
    · next closes =>
      obtain ⟨rfl, rfl⟩ := slashes
      rw [if_neg closes]
      rfl

/-- The store after a vote period: rates and counters are new, and the ballots are cleared. -/
theorem endVotePeriod_ok (ok : endVotePeriod ctx state = .ok (next, allocations)) :
    ∃ tallied targets, tallyVotes ctx state.store = .ok (tallied, targets) ∧
      rewardBallotWinners ctx state.bank targets tallied.claims = .ok (next.bank, allocations) ∧
      next.store = clearBallots ctx { state.store with
        exchangeRates := tallied.exchangeRates
        missCounters := (ctx.orders.misses.visit tallied.claims.entries).foldl
          (countMiss targets.entries.length) state.store.missCounters } := by
  simp only [endVotePeriod, ok_iffs, Prod.exists, Prod.mk.injEq] at ok
  obtain ⟨tallied, targets, counted, bank, allocations, rewarded, rfl, rfl⟩ := ok
  exact ⟨tallied, targets, counted, rewarded, rfl⟩

theorem endVotePeriod_of_parts {tallied : Tallied} {targets : VoteTargets} {bank : Bank}
    (counted : tallyVotes ctx state.store = .ok (tallied, targets))
    (rewarded : rewardBallotWinners ctx state.bank targets tallied.claims = .ok (bank, allocations)) :
    endVotePeriod ctx state = .ok (⟨clearBallots ctx { state.store with
      exchangeRates := tallied.exchangeRates
      missCounters := (ctx.orders.misses.visit tallied.claims.entries).foldl
        (countMiss targets.entries.length) state.store.missCounters }, bank⟩, allocations) := by
  rw [endVotePeriod, counted, ok_bind]
  dsimp only
  rw [rewarded]
  rfl

/-- After a slash window all counters are gone. -/
theorem endSlashWindow_ok (ok : endSlashWindow ctx state = .ok (next, slashed)) :
    slashAndResetMissCounters ctx state.store = .ok ({ state.store with missCounters := ∅ }, slashed) ∧
      next = { state with store := { state.store with missCounters := ∅ } } := by
  simp only [endSlashWindow, ok_iffs, Prod.exists, Prod.mk.injEq] at ok
  obtain ⟨store, slashed, reset, rfl, rfl⟩ := ok
  have emptied : store = { state.store with missCounters := ∅ } := by
    simp only [slashAndResetMissCounters, ok_iffs, Prod.mk.injEq] at reset
    obtain ⟨_, _, _, _, _, _, rfl, _⟩ := reset
    rfl
  subst emptied
  exact ⟨reset, rfl⟩

end Rotofury.Soundness.Oracle
