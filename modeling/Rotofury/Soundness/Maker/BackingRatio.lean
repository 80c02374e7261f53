import Rotofury.Math.Cooldown
import Rotofury.Model.Maker.BackingRatio

/-! # The backing ratio over a run of blocks

The end of a block leaves the ratio alone or adjusts it once the cooldown is over. An adjustment keeps the ratio between
zero and one, goes against the price and by at most one step, so the ratio is a quantity with a cooldown.
-/

namespace Rotofury.Soundness.Maker

open Model.Sdk Model.Maker Except

/-- What the parameters' own check says about the ratio's parameters. -/
theorem validate_ratio_params {params : Params} (valid : params.validate = .ok ()) :
    (0 < params.backingRatioStep.raw ∧ params.backingRatioStep.raw ≤ Dec.one.raw) ∧
      0 < params.backingRatioPriceBand.raw ∧ 0 < params.backingRatioCooldownPeriod := by
  simp only [Params.validate, Params.requirePositiveRatio, ok_iffs, not_or, not_not, not_le] at valid
  obtain ⟨_, ⟨stepPositive, stepSmall⟩, _, ⟨bandPositive, _⟩, _, cooldown, _⟩ := valid
  exact ⟨⟨stepPositive, Int.not_lt.mp stepSmall⟩, bandPositive, cooldown⟩

/-- How the end of a block changes the ratio. -/
inductive RatioChange (ctx : Ctx) (store next : Store) : Prop
  | waits (unchanged : next = store)
  | adjusts (due : ctx.params.backingRatioCooldownPeriod ≤ ctx.blockHeight - store.getBackingRatioLastBlock) {price : Dec}
      (quoted : ctx.exchangeRate microUSMDenom = some price)
      (adjusted : next = { store with
        backingRatio := some (adjustedBackingRatio ctx.params price store.getBackingRatio)
        backingRatioLastBlock := some ctx.blockHeight })

theorem endBlocker_cases {ctx : Ctx} {store next : Store} (ok : endBlocker ctx store = .ok next) :
    RatioChange ctx store next := by
  unfold endBlocker adjustBackingRatio at ok
  split at ok
  · exact .waits (Except.ok.inj ok).symm
  · next due =>
    split at ok
    · exact .waits (Except.ok.inj ok).symm
    · simp only [quotedOrPanic, ok_iffs, Store.setBackingRatioLastBlock] at ok
      obtain ⟨price, quoted, _, _, rfl⟩ := ok
      split at quoted
      · next found =>
        cases quoted
        exact .adjusts (not_lt.mp due) found rfl
      · cases quoted

/-- With a price for the stablecoin, the end of a block does not fail. -/
theorem endBlocker_succeeds {ctx : Ctx} {price : Dec} (quoted : ctx.exchangeRate microUSMDenom = some price)
    (height : 0 ≤ ctx.blockHeight) (store : Store) : ∃ next, endBlocker ctx store = .ok next := by
  unfold endBlocker adjustBackingRatio
  split
  · exact ⟨_, rfl⟩
  · split
    · exact ⟨_, rfl⟩
    · simp only [quotedOrPanic, quoted, ok_bind, Store.setBackingRatioLastBlock, require, if_pos (not_lt.mpr height)]
      exact ⟨_, rfl⟩

/-- The end of a block fails only when an adjustment is due and there is no price, and then it panics. -/
theorem endBlocker_outcome {ctx : Ctx} (valid : ctx.params.validate = .ok ()) (height : 0 ≤ ctx.blockHeight)
    (store : Store) :
    let due := ctx.params.backingRatioCooldownPeriod ≤ ctx.blockHeight - store.getBackingRatioLastBlock
    (∃ next, endBlocker ctx store = .ok next ∧ next.getBackingRatioLastBlock =
        if due then ctx.blockHeight else store.getBackingRatioLastBlock) ∧
      (due → (ctx.exchangeRate microUSMDenom).isSome) ∨
    (∃ reason, endBlocker ctx store = .error (.panic reason)) ∧ due ∧ ctx.exchangeRate microUSMDenom = none := by
  intro due
  obtain ⟨⟨stepPositive, _⟩, _, _⟩ := validate_ratio_params valid
  have nonzero : ¬ ctx.params.backingRatioStep.isZero := stepPositive.ne'
  unfold endBlocker adjustBackingRatio
  by_cases isDue : due
  · rw [if_neg (not_lt.mpr isDue), if_neg nonzero, if_pos isDue]
    cases quoted : ctx.exchangeRate microUSMDenom with
    | none =>
      have failed : quotedOrPanic ctx microUSMDenom =
          .error (.panic s!"{microUSMDenom}: {errUnknownDenom.description}") := by
        rw [quotedOrPanic, quoted]
      rw [failed]
      exact .inr ⟨⟨_, rfl⟩, isDue, rfl⟩
    | some price =>
      have priced : quotedOrPanic ctx microUSMDenom = .ok price := by rw [quotedOrPanic, quoted]
      have recorded : ∀ before : Store, before.setBackingRatioLastBlock ctx.blockHeight =
          .ok { before with backingRatioLastBlock := some ctx.blockHeight } := fun before => by
        rw [Store.setBackingRatioLastBlock, require, if_pos (not_lt.mpr height)]
        rfl
      rw [priced]
      exact .inl ⟨⟨_, recorded _, rfl⟩, fun _ => rfl⟩
  · rw [if_pos (not_le.mp isDue), if_neg isDue]
    exact .inl ⟨⟨store, rfl, rfl⟩, fun wouldBe => absurd wouldBe isDue⟩

section Adjustment

variable {params : Params} {price ratio : Dec}

/-- The bounds of the price band; the target is one. -/
theorem priceBand_eq (params : Params) :
    microUSMTarget.mul params.backingRatioPriceBand = params.backingRatioPriceBand := by
  rw [Dec.mul_comm, microUSMTarget, Dec.mul_one]

/-- The three cases of an adjustment. -/
theorem adjustedBackingRatio_cases (params : Params) (price ratio : Dec) :
    (Dec.one + params.backingRatioPriceBand < price ∧ (adjustedBackingRatio params price ratio).raw =
        max (ratio.raw - params.backingRatioStep.raw) 0) ∨
      (price < Dec.one - params.backingRatioPriceBand ∧ (adjustedBackingRatio params price ratio).raw =
        min (ratio.raw + params.backingRatioStep.raw) Dec.one.raw) ∨
      adjustedBackingRatio params price ratio = ratio := by
  simp only [adjustedBackingRatio, priceBand_eq]
  split
  · next high => exact .inl ⟨high, Dec.raw_max ..⟩
  · split
    · next low => exact .inr (.inl ⟨low, Dec.raw_min ..⟩)
    · exact .inr (.inr rfl)

variable (stepPositive : 0 < params.backingRatioStep.raw) (within : 0 ≤ ratio.raw ∧ ratio.raw ≤ Dec.one.raw)
include stepPositive within

/-- An adjustment keeps the ratio between zero and one and moves it by at most one step. -/
theorem adjustedBackingRatio_bounds :
    (0 ≤ (adjustedBackingRatio params price ratio).raw ∧ (adjustedBackingRatio params price ratio).raw ≤ Dec.one.raw) ∧
      |(adjustedBackingRatio params price ratio).raw - ratio.raw| ≤ params.backingRatioStep.raw := by
  rw [abs_le]
  rcases adjustedBackingRatio_cases params price ratio with ⟨_, down⟩ | ⟨_, up⟩ | same
  · rw [down]
    omega
  · rw [up]
    omega
  · rw [same]
    omega

/-- A ratio goes down only on a price above the band. -/
theorem adjustedBackingRatio_down (less : (adjustedBackingRatio params price ratio).raw < ratio.raw) :
    Dec.one + params.backingRatioPriceBand < price := by
  rcases adjustedBackingRatio_cases params price ratio with ⟨high, _⟩ | ⟨_, up⟩ | same
  · exact high
  · rw [up] at less
    omega
  · rw [same] at less
    omega

/-- A ratio goes up only on a price below the band. -/
theorem adjustedBackingRatio_up (more : ratio.raw < (adjustedBackingRatio params price ratio).raw) :
    price < Dec.one - params.backingRatioPriceBand := by
  rcases adjustedBackingRatio_cases params price ratio with ⟨_, down⟩ | ⟨low, _⟩ | same
  · rw [down] at more
    omega
  · exact low
  · rw [same] at more
    omega

end Adjustment

/-- A run of blocks: each one's end is computed from the store it finds, and until the next end only the ratio and the
height of its last adjustment are kept. -/
def EndsBlocks (ctxs : ℕ → Ctx) (stores : ℕ → Store) : Prop :=
  ∀ n, ∃ next, endBlocker (ctxs n) (stores n) = .ok next ∧ (stores (n + 1)).backingRatio = next.backingRatio ∧
    (stores (n + 1)).backingRatioLastBlock = next.backingRatioLastBlock

/-- What one block does to ratio and height. -/
theorem EndsBlocks.change {ctxs : ℕ → Ctx} {stores : ℕ → Store} (run : EndsBlocks ctxs stores) (n : ℕ) :
    ((stores (n + 1)).getBackingRatio = (stores n).getBackingRatio ∧
        (stores (n + 1)).getBackingRatioLastBlock = (stores n).getBackingRatioLastBlock) ∨
      ((ctxs n).params.backingRatioCooldownPeriod ≤ (ctxs n).blockHeight - (stores n).getBackingRatioLastBlock ∧
        (stores (n + 1)).getBackingRatioLastBlock = (ctxs n).blockHeight ∧
        ∃ price, (ctxs n).exchangeRate microUSMDenom = some price ∧ (stores (n + 1)).getBackingRatio =
          adjustedBackingRatio (ctxs n).params price (stores n).getBackingRatio) := by
  obtain ⟨next, ok, ratio, last⟩ := run n
  simp only [Store.getBackingRatio, Store.getBackingRatioLastBlock, ratio, last]
  cases endBlocker_cases ok with
  | waits unchanged =>
    subst unchanged
    exact .inl ⟨rfl, rfl⟩
  | adjusts due quoted adjusted =>
    subst adjusted
    exact .inr ⟨due, rfl, _, quoted, rfl⟩

/-- Over blocks with constant valid parameters and a price for the stablecoin at each of them, the end of a block never
fails; the ratio stays between zero and one, goes down only on a price above the band and up only on one below it, and
over any `n` blocks changes by at most `⌊(n - 1) / cooldown⌋ + 1` steps. -/
theorem backingRatio_moves_slowly {params : Params} (valid : params.validate = .ok ()) (start : ℕ) (ctxs : ℕ → Ctx)
    (prices : ℕ → Dec) (constant : ∀ n, (ctxs n).params = params) (consecutive : ∀ n, (ctxs n).blockHeight = start + n)
    (quoted : ∀ n, (ctxs n).exchangeRate microUSMDenom = some (prices n)) :
    (∀ n store, ∃ next, endBlocker (ctxs n) store = .ok next) ∧
    ∀ stores, EndsBlocks ctxs stores →
      Dec.zero ≤ (stores 0).getBackingRatio → (stores 0).getBackingRatio ≤ Dec.one →
      (∀ n, Dec.zero ≤ (stores n).getBackingRatio ∧ (stores n).getBackingRatio ≤ Dec.one) ∧
      (∀ n, (stores (n + 1)).getBackingRatio < (stores n).getBackingRatio →
        Dec.one + params.backingRatioPriceBand < prices n) ∧
      (∀ n, (stores n).getBackingRatio < (stores (n + 1)).getBackingRatio →
        prices n < Dec.one - params.backingRatioPriceBand) ∧
      ∀ m n : ℕ, |(stores (m + n)).getBackingRatio.raw - (stores m).getBackingRatio.raw| ≤
        (((n : ℤ) - 1) / params.backingRatioCooldownPeriod + 1) * params.backingRatioStep.raw := by
  obtain ⟨⟨stepPositive, _⟩, _, cooldown⟩ := validate_ratio_params valid
  refine ⟨fun n store => endBlocker_succeeds (quoted n) ?_ store, fun stores run low high => ?_⟩
  · rw [consecutive]
    omega
  have changes : ∀ n, ((stores (n + 1)).getBackingRatio = (stores n).getBackingRatio ∧
        (stores (n + 1)).getBackingRatioLastBlock = (stores n).getBackingRatioLastBlock) ∨
      (params.backingRatioCooldownPeriod ≤ (start : ℤ) + n - (stores n).getBackingRatioLastBlock ∧
        (stores (n + 1)).getBackingRatioLastBlock = start + n ∧
        (stores (n + 1)).getBackingRatio = adjustedBackingRatio params (prices n) (stores n).getBackingRatio) := by
    intro n
    rcases run.change n with unchanged | ⟨due, last, price, found, adjusted⟩
    · exact .inl unchanged
    · cases (quoted n).symm.trans found
      rw [constant, consecutive] at due
      rw [consecutive] at last
      rw [constant] at adjusted
      exact .inr ⟨due, last, adjusted⟩
  have bounded : ∀ n, 0 ≤ (stores n).getBackingRatio.raw ∧ (stores n).getBackingRatio.raw ≤ Dec.one.raw := by
    intro n
    induction n with
    | zero => exact ⟨low, high⟩
    | succ n ih =>
      rcases changes n with ⟨same, _⟩ | ⟨_, _, adjusted⟩
      · rw [same]
        exact ih
      · rw [adjusted]
        exact (adjustedBackingRatio_bounds stepPositive ih).1
  refine ⟨bounded, fun n less => ?_, fun n more => ?_, fun m n => ?_⟩
  · rcases changes n with ⟨same, _⟩ | ⟨_, _, adjusted⟩
    · rw [same] at less
      exact absurd less (Int.lt_irrefl _)
    · rw [adjusted] at less
      exact adjustedBackingRatio_down stepPositive (bounded n) less
  · rcases changes n with ⟨same, _⟩ | ⟨_, _, adjusted⟩
    · rw [same] at more
      exact absurd more (Int.lt_irrefl _)
    · rw [adjusted] at more
      exact adjustedBackingRatio_up stepPositive (bounded n) more
  · apply Math.abs_change_le_of_coolsDown cooldown stepPositive.le (fun n => (stores n).getBackingRatio.raw)
      (fun n => (stores n).getBackingRatioLastBlock)
    intro n
    rcases changes n with ⟨same, last⟩ | ⟨due, last, adjusted⟩
    · exact .rests (congrArg Dec.raw same) last
    · refine .moves due ?_ last
      rw [adjusted]
      exact (adjustedBackingRatio_bounds stepPositive (bounded n)).2

theorem defaultParams_valid : defaultParams.validate = .ok () := by decide +kernel

/-- Blocks with the default parameters and a price of two. -/
def sampleBlocks (n : ℕ) : Ctx := ⟨n, defaultParams, fun _ => some ⟨2 * 10 ^ 18⟩⟩

/-- From the default ratio of one, a price of two takes at most two steps off within 1200 blocks. -/
theorem backingRatio_moves_slowly_sample : ∃ stores, stores 0 = Store.empty ∧ EndsBlocks sampleBlocks stores ∧
    |(stores 1200).getBackingRatio.raw - Dec.one.raw| ≤ 2 * (25 * 10 ^ 14) := by
  obtain ⟨succeeds, slow⟩ := backingRatio_moves_slowly defaultParams_valid 0 sampleBlocks (fun _ => ⟨2 * 10 ^ 18⟩)
    (fun _ => rfl) (fun n => (zero_add _).symm) (fun _ => rfl)
  choose next ended using succeeds
  have run : EndsBlocks sampleBlocks fun n => Nat.rec Store.empty next n :=
    fun n => ⟨_, ended n _, rfl, rfl⟩
  have low : Dec.zero ≤ Store.empty.getBackingRatio := by decide
  have high : Store.empty.getBackingRatio ≤ Dec.one := by decide
  exact ⟨_, rfl, run, (slow _ run low high).2.2.2 0 1200⟩

end Rotofury.Soundness.Maker
