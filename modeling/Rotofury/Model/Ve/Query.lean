import Rotofury.Model.Ve.Types

/-! # Voting power at a time or at a block

In the past the power is read off the checkpoint before the queried time; in the future the last checkpoint is
carried forward week by week. A query by block interpolates the time between two checkpoints.
-/

namespace Rotofury.Model.Ve

open Model.Sdk

def wrapInt64 (value : ℤ) : ℤ := Int.bmod value (2 ^ 64)

/-- The binary search of `findTimeEpoch` and `findBlockEpoch`. -/
def searchEpoch (fits : ℕ → Bool) (low high : ℕ) : ℕ :=
  if low < high then
    let mid := (low + high + 1) / 2
    if fits mid then searchEpoch fits mid high else searchEpoch fits low (mid - 1)
  else low
termination_by high - low

/-- Where the epochs that fit come first, the search ends at the last of them. -/
theorem searchEpoch_spec {fits : ℕ → Bool} {low high : ℕ} (ordered : low ≤ high) (start : fits low = true)
    (downward : ∀ earlier later, earlier ≤ later → later ≤ high → fits later = true → fits earlier = true) :
    searchEpoch fits low high ≤ high ∧ fits (searchEpoch fits low high) = true ∧
      ∀ later, searchEpoch fits low high < later → later ≤ high → fits later = false := by
  fun_induction searchEpoch fits low high with
  | case1 low high smaller mid fitsMid ih => exact ih (by omega) fitsMid downward
  | case2 low high smaller mid misfit ih =>
    obtain ⟨bounded, found, beyond⟩ := ih (by omega) start fun earlier later before inside =>
      downward earlier later before (by omega)
    refine ⟨by omega, found, fun later after inside => ?_⟩
    by_cases reached : later ≤ mid - 1
    · exact beyond later after reached
    · rw [Bool.eq_false_iff]
      exact fun fitsLater => misfit (downward mid later (by omega) inside fitsLater)
  | case3 low high done =>
    obtain rfl : low = high := by omega
    exact ⟨le_rfl, start, fun later after inside => absurd inside (not_le.mpr after)⟩

/-- Where every epoch fits, the search ends at the last one. -/
theorem searchEpoch_of_fits {fits : ℕ → Bool} (always : ∀ epoch, fits epoch = true) {low high : ℕ}
    (ordered : low ≤ high) : searchEpoch fits low high = high := by
  obtain ⟨bounded, _, beyond⟩ := searchEpoch_spec ordered (always low) fun earlier _ _ _ _ => always earlier
  rcases bounded.eq_or_lt with done | before
  · exact done
  · have misfit := beyond high before le_rfl
    rw [always] at misfit
    cases misfit

/-- `findTimeEpoch` over the checkpoints of a ve or of the system. -/
def findTimeEpoch (points : ℕ → Checkpoint) (timestamp maxEpoch : ℕ) : ℕ :=
  searchEpoch (fun epoch => (points epoch).timestamp ≤ timestamp) 0 maxEpoch

section FindTimeEpoch

variable {points : ℕ → Checkpoint} {timestamp maxEpoch : ℕ} (start : (points 0).timestamp ≤ timestamp)
  (ordered : ∀ earlier later, earlier ≤ later → later ≤ maxEpoch → (points earlier).timestamp ≤ (points later).timestamp)

include start ordered

/-- Over checkpoints in the order of their times the search ends at the last one that is not after the time. -/
theorem findTimeEpoch_spec : findTimeEpoch points timestamp maxEpoch ≤ maxEpoch ∧
    (points (findTimeEpoch points timestamp maxEpoch)).timestamp ≤ timestamp ∧
      ∀ later, findTimeEpoch points timestamp maxEpoch < later → later ≤ maxEpoch → timestamp < (points later).timestamp := by
  obtain ⟨inside, found, beyond⟩ := @searchEpoch_spec (fun epoch => (points epoch).timestamp ≤ timestamp) _ _
    (Nat.zero_le maxEpoch) (by simpa using start) (fun earlier later before inside fits => by
      simp only [decide_eq_true_eq] at fits ⊢
      exact (ordered earlier later before inside).trans fits)
  simp only [decide_eq_true_eq, decide_eq_false_iff_not, not_le] at found beyond
  exact ⟨inside, found, beyond⟩

theorem findTimeEpoch_eq {epoch : ℕ} (inside : epoch ≤ maxEpoch) (reached : (points epoch).timestamp ≤ timestamp)
    (beyond : ∀ later, epoch < later → later ≤ maxEpoch → timestamp < (points later).timestamp) :
    findTimeEpoch points timestamp maxEpoch = epoch := by
  obtain ⟨foundInside, found, foundBeyond⟩ := findTimeEpoch_spec start ordered
  rcases lt_trichotomy (findTimeEpoch points timestamp maxEpoch) epoch with before | same | after
  · exact absurd (foundBeyond epoch before inside) (not_lt.mpr reached)
  · exact same
  · exact absurd (beyond _ after foundInside) (not_lt.mpr found)

end FindTimeEpoch

def findBlockEpoch (points : ℕ → Checkpoint) (block : ℤ) (maxEpoch : ℕ) : ℕ :=
  searchEpoch (fun epoch => (points epoch).block ≤ block) 0 maxEpoch

/-- Seconds from a checkpoint to a block, interpolated between it and a later block. -/
def blockLapse (point : Checkpoint) (atBlock laterBlock seconds : ℤ) : ℤ :=
  if point.block ≠ laterBlock then
    (wrapInt64 (wrapInt64 (atBlock - point.block) * seconds)).tdiv (wrapInt64 (laterBlock - point.block))
  else 0

/-- Seconds from the checkpoint of `targetEpoch` to a block. -/
def History.blockLapse (history : History) (ctx : Ctx) (targetEpoch : ℕ) (atBlock : ℤ) : ℤ :=
  let point := history.checkpoint targetEpoch
  if targetEpoch < history.epoch then
    let pointNext := history.checkpoint (targetEpoch + 1)
    Ve.blockLapse point atBlock pointNext.block (toInt64 (subUint64 pointNext.timestamp point.timestamp))
  else Ve.blockLapse point atBlock ctx.blockHeight (wrapInt64 (ctx.blockTime - toInt64 point.timestamp))

/-- The power of the system in the past. -/
def History.pastPower (history : History) (ctx : Ctx) (atTime : ℕ) : ℤ :=
  let targetEpoch := findTimeEpoch history.checkpoint atTime history.epoch
  let point := history.checkpoint targetEpoch
  let laterBlock := if targetEpoch < history.epoch then (history.checkpoint (targetEpoch + 1)).block else ctx.blockHeight
  let dt := if point.block ≠ laterBlock then toInt64 (subUint64 atTime point.timestamp) else 0
  point.bias - point.slope * dt

/-- The loop of `GetTotalVotingPower` for a time in the future; `ti` is the week reached. -/
def History.futurePower (history : History) (atTime ti : ℕ) (pointLast : Checkpoint) : Except Fault ℤ := do
  let _ ← nextRegulatedUnixTime ti
  -- the time `NextRegulatedUnixTime` has just returned
  let next := ti + regulatedPeriod
  if atTime ≤ next then
    pure (pointLast.bias - pointLast.slope * toInt64 (subUint64 atTime pointLast.timestamp))
  else
    history.futurePower atTime next
      { pointLast with
        bias := pointLast.bias - pointLast.slope * toInt64 (subUint64 next pointLast.timestamp)
        slope := pointLast.slope + history.slopeChange next
        timestamp := next }
termination_by atTime - ti
decreasing_by
  have period : 0 < regulatedPeriod := by decide
  omega

/-- A power that is negative reads as zero; one that was never computed panics. -/
def reportPower (power : Option ℤ) : Except Fault ℤ := do
  pure (max 0 (← deref power))

def getTotalVotingPower (ctx : Ctx) (history : History) (atTime : ℕ) (atBlock : ℤ) : Except Fault ℤ := do
  if 0 < atTime then
    if atTime ≤ history.last.timestamp then reportPower (some (history.pastPower ctx atTime))
    else
      let power ← history.futurePower atTime (regulatedUnixTime history.last.timestamp) history.last
      reportPower (some power)
  else if 0 < atBlock then
    let targetEpoch := findBlockEpoch history.checkpoint atBlock history.epoch
    let point := history.checkpoint targetEpoch
    reportPower (some (point.bias - point.slope * history.blockLapse ctx targetEpoch atBlock))
  else reportPower none

def getVotingPower (ctx : Ctx) (history : History) (veId atTime : ℕ) (atBlock : ℤ) : Except Fault ℤ :=
  if 0 < atTime then
    let latest := history.lastUser veId
    let userPoint :=
      if atTime ≤ latest.timestamp then
        -- ve id zero stands for the system
        let points := if veId = emptyVeId then history.checkpoint else history.userCheckpoint veId
        history.userCheckpoint veId (findTimeEpoch points atTime (history.userEpoch veId))
      else latest
    reportPower (some (userPoint.bias - userPoint.slope * toInt64 (subUint64 atTime userPoint.timestamp)))
  else if 0 < atBlock then
    let targetEpoch := findBlockEpoch history.checkpoint atBlock history.epoch
    let lapse := history.blockLapse ctx targetEpoch atBlock
    let blockTimestamp := (((history.checkpoint targetEpoch).timestamp + lapse) % 2 ^ 64).toNat
    let points := if veId = emptyVeId then history.checkpoint else history.userCheckpoint veId
    let userPoint := history.userCheckpoint veId (findBlockEpoch points atBlock (history.userEpoch veId))
    reportPower (some (userPoint.bias - userPoint.slope * toInt64 (subUint64 blockTimestamp userPoint.timestamp)))
  else reportPower none

end Rotofury.Model.Ve
