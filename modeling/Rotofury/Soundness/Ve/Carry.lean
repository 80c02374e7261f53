import Rotofury.Math.LinearDecay
import Rotofury.Model.Ve.Distribution

/-! # Carrying the system checkpoint

The locks of all ves are lines in the sense of `Math.Line`. A history tracks a family of locks when the slope
changes it schedules are those of the lines that stop, and its last system checkpoint has at least their slope.
Carrying such a checkpoint forward moves its bias with the total of the lines, less what its excess slope takes.
-/

namespace Rotofury.Model.Ve

/-- A lock as a decaying line. -/
def LockedBalance.line (locked : LockedBalance) : Math.Line :=
  ⟨if 0 < locked.amount then locked.amount.tdiv maxLockTime else 0, locked.endTime⟩

theorem LockedBalance.line_slope_nonneg (locked : LockedBalance) : 0 ≤ locked.line.slope := by
  unfold line
  dsimp only
  split
  · next positive => exact Int.tdiv_nonneg positive.le (Int.natCast_nonneg _)
  · exact le_rfl

/-- The lines of a family of locks. -/
def lines (locks : ℕ → LockedBalance) (veId : ℕ) : Math.Line := (locks veId).line

end Rotofury.Model.Ve

namespace Rotofury.Soundness.Ve

open Model.Sdk Model.Ve Except

/-- Ends of locks lie on whole weeks: none is strictly inside a week. -/
theorem apart_of_regulated {stop from' upTo : ℕ} (regulated : regulatedPeriod ∣ stop)
    (within : upTo ≤ regulatedUnixTime from' + regulatedPeriod) : stop ≤ from' ∨ upTo ≤ stop := by
  obtain ⟨weeks, rfl⟩ := regulated
  rcases Nat.lt_or_ge (from' / regulatedPeriod) weeks with later | before
  · refine .inr (within.trans ?_)
    calc regulatedUnixTime from' + regulatedPeriod = regulatedPeriod * (from' / regulatedPeriod + 1) := by
          rw [regulatedUnixTime]; ring
      _ ≤ regulatedPeriod * weeks := Nat.mul_le_mul_left _ later
  · refine .inl ?_
    calc regulatedPeriod * weeks ≤ regulatedPeriod * (from' / regulatedPeriod) := Nat.mul_le_mul_left _ before
      _ ≤ from' := Nat.mul_div_le _ _

section Carry

variable {ids : Finset ℕ} {locks : ℕ → LockedBalance} {origin : ℕ} {bias excess : ℤ}

/-- The bias at a time, before it is cut off at zero: it moves with the total of the lines from `bias` at
`origin`, and falls by the excess slope on top. -/
def carriedBias (ids : Finset ℕ) (locks : ℕ → LockedBalance) (origin : ℕ) (bias excess : ℤ) (t : ℕ) : ℤ :=
  bias + Math.total ids (lines locks) t - Math.total ids (lines locks) origin - excess * (t - origin)

/-- A checkpoint on the way: its slope is the live slope with the excess, its bias is cut off at zero. -/
structure Carried (ids : Finset ℕ) (locks : ℕ → LockedBalance) (origin : ℕ) (bias excess : ℤ)
    (point : Checkpoint) : Prop where
  bias_eq : point.bias = max 0 (carriedBias ids locks origin bias excess point.timestamp)
  slope_eq : point.slope = Math.liveSlope ids (lines locks) point.timestamp + excess

section

variable (regulated : ∀ i ∈ ids, regulatedPeriod ∣ (locks i).endTime)
include regulated

/-- Within a week the unclamped bias falls by slope times time. -/
theorem carriedBias_advance {t later : ℕ} (ordered : t ≤ later) (within : later ≤ regulatedUnixTime t + regulatedPeriod) :
    carriedBias ids locks origin bias excess later = carriedBias ids locks origin bias excess t -
      (Math.liveSlope ids (lines locks) t + excess) * (later - t : ℕ) := by
  have moved : Math.total ids (lines locks) later = _ :=
    Math.total_advance ordered fun i member => apart_of_regulated (regulated i member) within
  rw [carriedBias, carriedBias, moved]
  push_cast [ordered]
  ring

theorem slope_advance (t : ℕ) : Math.liveSlope ids (lines locks) (regulatedUnixTime t + regulatedPeriod) =
      Math.liveSlope ids (lines locks) t -
        Math.stoppingSlope ids (lines locks) (regulatedUnixTime t + regulatedPeriod) :=
  Math.liveSlope_advance (lt_regulatedUnixTime_add t) fun i member =>
    apart_of_regulated (regulated i member) le_rfl

theorem slope_steady {t later : ℕ} (ordered : t ≤ later) (within : later < regulatedUnixTime t + regulatedPeriod) :
    Math.liveSlope ids (lines locks) later = Math.liveSlope ids (lines locks) t := by
  refine Math.liveSlope_steady ordered fun i member => ?_
  exact (apart_of_regulated (regulated i member) (Nat.succ_le_of_lt within)).imp_right Nat.lt_of_succ_le

/-- One round: carry a checkpoint to the end of its week, or to an earlier time in it. -/
theorem Carried.carry (excessNonneg : 0 ≤ excess) {point : Checkpoint}
    (carried : Carried ids locks origin bias excess point) {ti : ℕ} {slopeChange : ℤ} (ordered : point.timestamp ≤ ti)
    (bounded : ti < 2 ^ 63)
    (change : ti < regulatedUnixTime point.timestamp + regulatedPeriod ∧ slopeChange = 0 ∨
      ti = regulatedUnixTime point.timestamp + regulatedPeriod ∧ slopeChange = -Math.stoppingSlope ids (lines locks) ti)
    (block : ℤ) : Carried ids locks origin bias excess (point.carry ti slopeChange block) := by
  have liveNonneg : ∀ t, 0 ≤ Math.liveSlope ids (lines locks) t :=
    Math.liveSlope_nonneg fun i _ => (locks i).line_slope_nonneg
  have within : ti ≤ regulatedUnixTime point.timestamp + regulatedPeriod := by omega
  have slope : Math.liveSlope ids (lines locks) ti = Math.liveSlope ids (lines locks) point.timestamp + slopeChange := by
    rcases change with ⟨inside, rfl⟩ | ⟨rfl, rfl⟩
    · rw [slope_steady regulated ordered inside, add_zero]
    · rw [slope_advance regulated, sub_eq_add_neg]
  constructor
  · simp only [Checkpoint.carry]
    rw [carriedBias_advance regulated ordered within, toInt64_subUint64 ordered (by omega) (by omega),
      carried.bias_eq, carried.slope_eq]
    have falls : 0 ≤ (Math.liveSlope ids (lines locks) point.timestamp + excess) *
        ((ti - point.timestamp : ℕ) : ℤ) :=
      mul_nonneg (add_nonneg (liveNonneg _) excessNonneg) (Int.natCast_nonneg _)
    omega
  · simp only [Checkpoint.carry]
    have := liveNonneg ti
    rw [carried.slope_eq]
    omega

end

/-- What the loop leaves of the history: nothing but new checkpoints, none of them later than now. -/
structure Regulated (now : ℕ) (history next : History) : Prop where
  userEpoch : next.userEpoch = history.userEpoch
  userCheckpoint : next.userCheckpoint = history.userCheckpoint
  slopeChange : next.slopeChange = history.slopeChange
  past : (∀ epoch, (history.checkpoint epoch).timestamp ≤ now) → ∀ epoch, (next.checkpoint epoch).timestamp ≤ now

/-- The loop carries the checkpoint to the time of the block. -/
theorem regulateRounds_ok (regulated : ∀ i ∈ ids, regulatedPeriod ∣ (locks i).endTime) (excessNonneg : 0 ≤ excess)
    {ctx : Ctx} {initial : Checkpoint} {blockSlope : Dec} {rounds : ℕ} {history next : History}
    {epoch nextEpoch ti : ℕ} {point last : Checkpoint} (carried : Carried ids locks origin bias excess point)
    (week : ti = regulatedUnixTime point.timestamp) (started : origin ≤ point.timestamp)
    (ordered : point.timestamp ≤ ctx.blockTime)
    (ok : regulateRounds ctx initial blockSlope rounds history epoch ti point = .ok (next, nextEpoch, last))
    (scheduled : ∀ τ, origin < τ → history.slopeChange τ = -Math.stoppingSlope ids (lines locks) τ) :
    epoch < nextEpoch ∧ last.timestamp = ctx.blockTime ∧ Carried ids locks origin bias excess last ∧
      Regulated ctx.blockTime history next := by
  have timeBound := ctx.time_lt
  induction rounds generalizing history epoch ti point with
  | zero => cases ok
  | succ rounds ih =>
    subst week
    simp only [regulateRounds, bind_ok_iff, nextRegulatedUnixTime_ok_iff] at ok
    obtain ⟨week, ⟨_, _, rfl⟩, elapsed, _, ok⟩ := ok
    have after := lt_regulatedUnixTime_add point.timestamp
    split_ifs at ok with inside reached reached
    · -- the week is not over: the loop ends in it
      simp only [pure_ok_iff, Prod.mk.injEq] at ok
      obtain ⟨rfl, rfl, rfl⟩ := ok
      have carried' := carried.carry regulated excessNonneg ordered timeBound (.inl ⟨inside, rfl⟩) ctx.blockHeight
      exact ⟨Nat.lt_succ_self _, rfl, ⟨carried'.bias_eq, carried'.slope_eq⟩, rfl, rfl, rfl, id⟩
    · exact absurd rfl reached
    · simp only [pure_ok_iff, Prod.mk.injEq] at ok
      obtain ⟨rfl, rfl, rfl⟩ := ok
      have carried' := carried.carry regulated excessNonneg after.le (by omega)
        (.inr ⟨rfl, scheduled _ (by omega)⟩) ctx.blockHeight
      exact ⟨Nat.lt_succ_self _, reached, ⟨carried'.bias_eq, carried'.slope_eq⟩, rfl, rfl, rfl, id⟩
    · have carried' := carried.carry regulated excessNonneg after.le (by omega)
        (.inr ⟨rfl, scheduled _ (by omega)⟩) (initial.block + elapsed)
      have onWeek : regulatedUnixTime (regulatedUnixTime point.timestamp + regulatedPeriod) =
          regulatedUnixTime point.timestamp + regulatedPeriod :=
        regulatedUnixTime_eq_iff.mpr (Dvd.dvd.add (Nat.dvd_mul_left _ _) dvd_rfl)
      obtain ⟨later, atNow, final, kept⟩ := ih carried' onWeek.symm (by simp only [Checkpoint.carry]; omega)
        (by simp only [Checkpoint.carry]; omega) ok scheduled
      refine ⟨by omega, atNow, final, kept.userEpoch, kept.userCheckpoint, kept.slopeChange, fun past => kept.past ?_⟩
      intro other
      simp only [History.setCheckpoint, Function.update_apply]
      split
      · simp only [Checkpoint.carry]
        omega
      · exact past other

end Carry

end Rotofury.Soundness.Ve
