import Rotofury.Soundness.Maker.Interest

/-! # Settling often

Each settlement rounds the interest of its period to a whole number and restarts the period, and anyone can cause one
by depositing a little collateral for the account. Over many settlements the rounding errors of equal periods add up
without bound, unless the principal earns a whole number of units every block; then no settlement rounds at all.
-/

namespace Rotofury.Soundness.Maker

open Model.Sdk Model.App Model.Maker

variable {rate : Dec} {principal units : ℤ}

/-- Settle the interest of a record at one height after the other. -/
def settleAt (ctx : Ctx) (rate : Dec) (records : TotalCollateral × PoolCollateral × AccountCollateral)
    (heights : List ℤ) : Except Fault (TotalCollateral × PoolCollateral × AccountCollateral) :=
  heights.foldlM (fun records height =>
    settleInterestFee { ctx with blockHeight := height } records.1 records.2.1 records.2.2 rate) records

/-- The interest that settlements at the given heights add up to. -/
def accruedInterest (principal : ℤ) (rate : Dec) (start : ℤ) : List ℤ → ℤ
  | [] => 0
  | height :: heights =>
    interestOf principal rate (height - start) + accruedInterest principal rate height heights

/-- Settlements succeed and leave the principal alone. -/
theorem settleAt_ok (ctx : Ctx) (rateNonneg : 0 ≤ rate.raw) (total : TotalCollateral) (pool : PoolCollateral)
    {record : AccountCollateral} (within : InterestWithin record) {heights : List ℤ}
    (ordered : List.IsChain (· ≤ ·) (record.lastSettlementBlock :: heights)) :
    ∃ settled, settleAt ctx rate (total, pool, record) heights = .ok settled ∧
      settled.2.2.lastInterest.amount = record.lastInterest.amount +
        accruedInterest (record.gridDebt.amount - record.lastInterest.amount) rate record.lastSettlementBlock heights := by
  induction heights generalizing total pool record with
  | nil => exact ⟨_, rfl, (add_zero _).symm⟩
  | cons height heights ih =>
    obtain ⟨elapsed, ordered⟩ := List.isChain_cons_cons.mp ordered
    obtain ⟨interest, accrued⟩ : ∃ interest, interest = interestOf
        (record.gridDebt.amount - record.lastInterest.amount) rate (height - record.lastSettlementBlock) := ⟨_, rfl⟩
    have nonneg : 0 ≤ interest := by
      rw [accrued]
      exact interestOf_nonneg (sub_nonneg.mpr within.within) rateNonneg (sub_nonneg.mpr elapsed)
    obtain ⟨settled, rest, reached⟩ := ih (shiftTotalCollateral total ⟨0, interest, 0, interest⟩)
      (shiftPoolCollateral pool ⟨0, interest, 0, interest⟩) (within.settle nonneg height) ordered
    refine ⟨settled, ?_, ?_⟩
    · rw [settleAt, List.foldlM_cons,
        settleInterestFee_of_within { ctx with blockHeight := height } total pool within rate accrued]
      exact rest
    · -- debt and interest have grown alike, so the principal is the same
      rw [reached, accruedInterest, ← accrued]
      simp only [shiftAccountCollateral, Coin.addAmount_amount, add_sub_add_right_eq_sub]
      ring

/-- Settling along the way or only at the end makes at most one unit of difference, for every account with the
principal, at the rate. -/
def SettlesAlike (principal : ℤ) (rate : Dec) : Prop :=
  ∀ (ctx : Ctx) (total : TotalCollateral) (pool : PoolCollateral) (record : AccountCollateral) (heights : List ℤ)
    (final : ℤ), InterestWithin record → record.gridDebt.amount - record.lastInterest.amount = principal →
    List.IsChain (· ≤ ·) (record.lastSettlementBlock :: (heights ++ [final])) →
    ∃ often once, settleAt ctx rate (total, pool, record) (heights ++ [final]) = .ok often ∧
      settleAt ctx rate (total, pool, record) [final] = .ok once ∧
      |often.2.2.lastInterest.amount - once.2.2.lastInterest.amount| ≤ 1

/-- The unit that interest is rounded to, as a principal times a rate over one block. -/
def wholeUnit : ℤ := blocksPerYear * Dec.precision

/-- Rounding is off by less than a unit. -/
theorem interestOf_bounds {period : ℤ} (nonneg : 0 ≤ principal * rate.raw * period) :
    wholeUnit * interestOf principal rate period < principal * rate.raw * period + wholeUnit ∧
      principal * rate.raw * period < wholeUnit * interestOf principal rate period + wholeUnit := by
  obtain ⟨lower, upper⟩ := Math.roundHalfEven_bounds ((principal * rate.raw * period).tdiv blocksPerYear) Dec.precision_pos
  have division := Int.mul_tdiv_add_tmod (principal * rate.raw * period) blocksPerYear
  have remainder := Int.tmod_lt_of_pos (principal * rate.raw * period) (show 0 < blocksPerYear by decide)
  have remainderNonneg := Int.tmod_nonneg blocksPerYear nonneg
  rw [← interestOf] at lower upper
  simp only [wholeUnit, blocksPerYear, Dec.precision] at *
  push_cast at *
  constructor <;> omega

/-- A principal that earns whole units settles without rounding. -/
theorem interestOf_whole (whole : principal * rate.raw = wholeUnit * units) (period : ℤ) :
    interestOf principal rate period = units * period := by
  have scaled : principal * rate.raw * period = units * period * Dec.precision * blocksPerYear := by
    rw [whole, wholeUnit]
    ring
  rw [interestOf, scaled, Int.mul_tdiv_cancel _ (by decide), Math.roundHalfEven_mul _ Dec.precision_pos]

/-- Without rounding only the first and the last height count. -/
theorem accruedInterest_whole (whole : principal * rate.raw = wholeUnit * units) (start : ℤ) (heights : List ℤ)
    (final : ℤ) :
    accruedInterest principal rate start (heights ++ [final]) = units * (final - start) := by
  induction heights generalizing start with
  | nil => simp [accruedInterest, interestOf_whole whole]
  | cons height heights ih =>
    rw [List.cons_append, accruedInterest, ih, interestOf_whole whole]
    ring

/-- The next blocks, one by one. -/
def blockByBlock (start : ℤ) : ℕ → List ℤ
  | 0 => []
  | count + 1 => (start + 1) :: blockByBlock (start + 1) count

theorem blockByBlock_ordered (start : ℤ) (count : ℕ) :
    List.IsChain (· ≤ ·) (start :: (blockByBlock start count ++ [start + count])) := by
  induction count generalizing start with
  | zero => simp [blockByBlock]
  | succ count ih =>
    have rest := ih (start + 1)
    rw [add_assoc, add_comm 1 (count : ℤ)] at rest
    rw [blockByBlock, List.cons_append, Nat.cast_succ]
    exact List.isChain_cons_cons.mpr ⟨by omega, rest⟩

/-- Settled every block, an account pays the rounded interest of one block every time. -/
theorem accruedInterest_blockByBlock (principal : ℤ) (rate : Dec) (start : ℤ) (count : ℕ) :
    accruedInterest principal rate start (blockByBlock start count ++ [start + count]) =
      count * interestOf principal rate 1 := by
  induction count generalizing start with
  | zero => simp [blockByBlock, accruedInterest, interestOf_zero]
  | succ count ih =>
    have rest := ih (start + 1)
    rw [add_assoc, add_comm 1 (count : ℤ)] at rest
    rw [blockByBlock, List.cons_append, accruedInterest, Nat.cast_succ, rest, add_sub_cancel_left]
    ring

/-- Rounding errors of one block add up past one unit, if there is an error at all. -/
theorem whole_of_blockByBlock (nonneg : 0 ≤ principal * rate.raw) {count : ℕ} (many : 2 * wholeUnit < count)
    (close : |count * interestOf principal rate 1 - interestOf principal rate count| ≤ 1) :
    principal * rate.raw = wholeUnit * interestOf principal rate 1 := by
  have unitPos : 0 < wholeUnit := by decide
  obtain ⟨upper, lower⟩ := interestOf_bounds (mul_nonneg nonneg (Int.natCast_nonneg count))
  obtain ⟨below, above⟩ := abs_le.mp close
  by_contra off
  rcases lt_or_gt_of_ne off with less | more
  · have drift : (count : ℤ) ≤ count * (wholeUnit * interestOf principal rate 1 - principal * rate.raw) := by
      nlinarith
    nlinarith
  · have drift : (count : ℤ) ≤ count * (principal * rate.raw - wholeUnit * interestOf principal rate 1) := by
      nlinarith
    nlinarith

/-- How often interest is settled does not matter beyond one unit exactly for a principal that earns a whole number of
units every block. -/
theorem settlesAlike_iff {principal : ℤ} {rate : Dec} (principalNonneg : 0 ≤ principal) (rateNonneg : 0 ≤ rate.raw) :
    SettlesAlike principal rate ↔ blocksPerYear * 10 ^ 18 ∣ principal * rate.raw := by
  have unit : blocksPerYear * 10 ^ 18 = wholeUnit := by decide
  rw [unit]
  constructor
  · intro alike
    -- an account that has just borrowed, settled every block for twice as many blocks as a unit has parts
    let record : AccountCollateral := ⟨0, ⟨"", 0⟩, ⟨microUSMDenom, principal⟩, ⟨attoIronDenom, 0⟩, ⟨microUSMDenom, 0⟩, 0⟩
    have within : InterestWithin record := ⟨rfl, rfl, le_rfl, principalNonneg⟩
    obtain ⟨count, many⟩ : ∃ count : ℕ, 2 * wholeUnit < count := ⟨(2 * wholeUnit).toNat + 1, by omega⟩
    have ordered := blockByBlock_ordered 0 count
    have single : List.IsChain (· ≤ ·) [0, 0 + (count : ℤ)] := by simp
    obtain ⟨ctx⟩ : Nonempty Ctx := ⟨⟨0, ⟨.zero, .zero, 0, .zero, .zero, .zero, .zero⟩, fun _ => none⟩⟩
    obtain ⟨often, once, oftenOk, onceOk, close⟩ := alike ctx zeroTotalCollateral (zeroPoolCollateral "") record
      (blockByBlock 0 count) (0 + count) within (sub_zero _) ordered
    obtain ⟨_, oftenOk', oftenInterest⟩ := settleAt_ok ctx rateNonneg _ _ within ordered
    obtain ⟨_, onceOk', onceInterest⟩ := settleAt_ok ctx rateNonneg _ _ within single
    cases oftenOk.symm.trans oftenOk'
    cases onceOk.symm.trans onceOk'
    rw [oftenInterest, onceInterest, accruedInterest_blockByBlock] at close
    simp only [record, sub_zero, accruedInterest, add_zero, zero_add] at close
    exact ⟨_, whole_of_blockByBlock (mul_nonneg principalNonneg rateNonneg) many close⟩
  · rintro ⟨units, whole⟩ ctx total pool record heights final within rfl ordered
    have single : List.IsChain (· ≤ ·) [record.lastSettlementBlock, final] := by
      have last := List.isChain_iff_pairwise.mp ordered
      simp only [List.pairwise_cons, List.mem_append, List.mem_singleton] at last
      simpa using last.1 final (.inr rfl)
    obtain ⟨often, oftenOk, oftenInterest⟩ := settleAt_ok ctx rateNonneg total pool within ordered
    obtain ⟨once, onceOk, onceInterest⟩ := settleAt_ok ctx rateNonneg total pool within single
    refine ⟨often, once, oftenOk, onceOk, ?_⟩
    rw [oftenInterest, onceInterest, accruedInterest_whole whole, ← List.nil_append [final], accruedInterest_whole whole]
    simp

theorem settlesAlike_iff_sample : SettlesAlike 5256000 Dec.one ∧ ¬ SettlesAlike 1000000 (Dec.withPrec 1 2) := by
  refine ⟨(settlesAlike_iff (by decide) (by decide)).mpr (by decide), fun alike => ?_⟩
  exact absurd ((settlesAlike_iff (by decide) (by decide)).mp alike) (by decide)

/-- One million borrowed at one percent and settled four times within 1048 blocks accrues nothing; settled once at the
end, it accrues two. -/
theorem settlement_drift_sample :
    let records := (zeroTotalCollateral, zeroPoolCollateral "ucoll",
      (⟨1, ⟨"ucoll", 0⟩, ⟨"uusm", 1000000⟩, ⟨"airon", 0⟩, ⟨"uusm", 0⟩, 0⟩ : AccountCollateral))
    (settleAt (sampleCtx 0) (Dec.withPrec 1 2) records [262, 524, 786, 1048]).map (·.2.2.lastInterest.amount) = .ok 0 ∧
      (settleAt (sampleCtx 0) (Dec.withPrec 1 2) records [1048]).map (·.2.2.lastInterest.amount) = .ok 2 := by
  decide +kernel

end Rotofury.Soundness.Maker
