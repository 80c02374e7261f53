import Rotofury.Model.App.Stablecoin
import Rotofury.Soundness.Maker.BackingRatio
import Rotofury.Soundness.Oracle.Rates

/-! # The oracle and the maker at the end of blocks

Every vote period the oracle forgets all rates and publishes those of the new ballots. The maker looks up the price of the
stablecoin once per cooldown period, whether there is one or not. Which blocks those are, and which tally each of them
reads, follows from the two periods and from where the run starts.
-/

namespace Rotofury.Soundness.App

open Model.Sdk Model.App Rotofury.Soundness.Oracle Rotofury.Soundness.Maker
open Model.Maker (microUSMDenom)

/-- Some blocks in a row. The oracle's own part succeeds in each of them; between the blocks votes, validators and everything
else may change, but only the end of a block writes rates and the height of the last adjustment. -/
structure BlockRun (oracleParams : Model.Oracle.Params) (makerParams : Model.Maker.Params) (start blocks : ℕ)
    (ctxs : ℕ → Model.Oracle.Ctx) (oracles : ℕ → Model.Oracle.State) (makers : ℕ → Model.Maker.Store) : Prop where
  height : ∀ n < blocks, (ctxs n).blockHeight = start + n
  params : ∀ n < blocks, (ctxs n).params = oracleParams
  oracleEnds : ∀ n < blocks, ∃ blockEnd, Model.Oracle.endBlocker (ctxs n) (oracles n) = .ok blockEnd ∧
    (oracles (n + 1)).store.exchangeRates = blockEnd.state.store.exchangeRates
  makerKept : ∀ n < blocks, ∀ blockEnd next, endBlock makerParams (ctxs n) (oracles n) (makers n) = .ok (blockEnd, next) →
    (makers (n + 1)).getBackingRatioLastBlock = next.getBackingRatioLastBlock

/-- The price of the stablecoin that the maker finds in block `n`: the last tally published one, or there was none yet
and the run started with one. -/
def PriceStands (oracleParams : Model.Oracle.Params) (start : ℕ) (ctxs : ℕ → Model.Oracle.Ctx)
    (oracles : ℕ → Model.Oracle.State) (n : ℕ) : Prop :=
  (∃ t ≤ n, (start + t + 1) % oracleParams.votePeriod = 0 ∧
      (∀ s, t < s → s ≤ n → (start + s + 1) % oracleParams.votePeriod ≠ 0) ∧
      Publishes (ctxs t) (oracles t).store microUSMDenom) ∨
    (∀ t ≤ n, (start + t + 1) % oracleParams.votePeriod ≠ 0) ∧ microUSMDenom ∈ (oracles 0).store.exchangeRates

section Run

variable {oracleParams : Model.Oracle.Params} {makerParams : Model.Maker.Params} {start blocks : ℕ}
  {ctxs : ℕ → Model.Oracle.Ctx} {oracles : ℕ → Model.Oracle.State} {makers : ℕ → Model.Maker.Store}

/-- In a block with a tally it is this tally that counts. -/
theorem priceStands_of_tally {n : ℕ} (tallied : (start + n + 1) % oracleParams.votePeriod = 0) :
    PriceStands oracleParams start ctxs oracles n ↔ Publishes (ctxs n) (oracles n).store microUSMDenom := by
  constructor
  · rintro (⟨t, le, _, latest, publishes⟩ | ⟨never, _⟩)
    · rcases le.eq_or_lt with rfl | less
      · exact publishes
      · exact absurd tallied (latest n less le_rfl)
    · exact absurd tallied (never n le_rfl)
  · intro publishes
    exact .inl ⟨n, le_rfl, tallied, fun s later le => absurd le (not_le.mpr later), publishes⟩

/-- In a block without one nothing changes. -/
theorem priceStands_succ_of_quiet {n : ℕ} (quiet : (start + (n + 1) + 1) % oracleParams.votePeriod ≠ 0) :
    PriceStands oracleParams start ctxs oracles (n + 1) ↔ PriceStands oracleParams start ctxs oracles n := by
  have le_succ : ∀ s, s ≤ n + 1 ↔ s ≤ n ∨ s = n + 1 := by omega
  constructor
  · rintro (⟨t, le, tallied, latest, publishes⟩ | ⟨never, initial⟩)
    · rcases (le_succ t).mp le with before | rfl
      · exact .inl ⟨t, before, tallied, fun s later le => latest s later (by omega), publishes⟩
      · exact absurd tallied quiet
    · exact .inr ⟨fun t le => never t (by omega), initial⟩
  · rintro (⟨t, le, tallied, latest, publishes⟩ | ⟨never, initial⟩)
    · refine .inl ⟨t, by omega, tallied, fun s later le => ?_, publishes⟩
      rcases (le_succ s).mp le with before | rfl
      · exact latest s later before
      · exact quiet
    · refine .inr ⟨fun t le => ?_, initial⟩
      rcases (le_succ t).mp le with before | rfl
      · exact never t before
      · exact quiet

variable (run : BlockRun oracleParams makerParams start blocks ctxs oracles makers)
include run

/-- The maker finds a price exactly when one stands. -/
theorem BlockRun.price_iff {n : ℕ} (within : n < blocks) :
    microUSMDenom ∈ (oracles (n + 1)).store.exchangeRates ↔ PriceStands oracleParams start ctxs oracles n := by
  have rates : ∀ m < blocks, (oracles (m + 1)).store.exchangeRates =
      if (start + m + 1) % oracleParams.votePeriod = 0 then talliedRates (ctxs m) (oracles m).store
      else (oracles m).store.exchangeRates := by
    intro m less
    obtain ⟨blockEnd, ok, kept⟩ := run.oracleEnds m less
    rw [kept, endBlocker_rates ok, run.height m less, run.params m less]
  induction n with
  | zero =>
    rw [rates 0 within]
    split
    · next tallied => rw [mem_talliedRates_iff, priceStands_of_tally tallied]
    · next quiet =>
      constructor
      · intro initial
        refine .inr ⟨fun t le => ?_, initial⟩
        rw [Nat.le_zero.mp le]
        exact quiet
      · rintro (⟨t, le, tallied, _⟩ | ⟨_, initial⟩)
        · rw [Nat.le_zero.mp le] at tallied
          exact absurd tallied quiet
        · exact initial
  | succ n ih =>
    rw [rates (n + 1) within]
    split
    · next tallied => rw [mem_talliedRates_iff, priceStands_of_tally tallied]
    · next quiet =>
      exact (ih (Nat.lt_of_succ_lt within)).trans (priceStands_succ_of_quiet quiet).symm

/-- One block: it ends and the height of the last adjustment follows the cooldown, or it panics because an adjustment is
due and no price stands. -/
theorem BlockRun.block (valid : makerParams.validate = .ok ()) {n : ℕ} (within : n < blocks) :
    let due := makerParams.backingRatioCooldownPeriod ≤ (start : ℤ) + n - (makers n).getBackingRatioLastBlock
    (∀ reason, endBlock makerParams (ctxs n) (oracles n) (makers n) ≠ .error (.panic reason)) ∧
        (makers (n + 1)).getBackingRatioLastBlock = (if due then (start : ℤ) + n else (makers n).getBackingRatioLastBlock) ∧
        (due → PriceStands oracleParams start ctxs oracles n) ∨
      (∃ reason, endBlock makerParams (ctxs n) (oracles n) (makers n) = .error (.panic reason)) ∧
        due ∧ ¬ PriceStands oracleParams start ctxs oracles n := by
  intro due
  obtain ⟨blockEnd, ok, kept⟩ := run.oracleEnds n within
  have found : (blockEnd.state.store.exchangeRates.lookup microUSMDenom).isSome ↔
      PriceStands oracleParams start ctxs oracles n := by
    rw [AList.lookup_isSome, ← kept]
    exact run.price_iff within
  have height : ((ctxs n).blockHeight : ℤ) = start + n := by
    rw [run.height n within]
    push_cast
    rfl
  have nonneg : 0 ≤ (makerCtx makerParams (ctxs n) blockEnd).blockHeight := Int.natCast_nonneg _
  have dueHere : makerParams.backingRatioCooldownPeriod ≤
      (makerCtx makerParams (ctxs n) blockEnd).blockHeight - (makers n).getBackingRatioLastBlock ↔ due := by
    rw [makerCtx, height]
  rcases endBlocker_outcome valid nonneg (makers n) with ⟨⟨next, ended, last⟩, quoted⟩ | ⟨⟨reason, failed⟩, isDue, missing⟩
  · have whole : endBlock makerParams (ctxs n) (oracles n) (makers n) = .ok (blockEnd, next) := by
      rw [endBlock, ok, Except.ok_bind, ended]
      rfl
    refine .inl ⟨fun reason failed => ?_, ?_, fun isDue => found.mp (quoted (dueHere.mpr isDue))⟩
    · rw [whole] at failed
      cases failed
    · rw [run.makerKept n within blockEnd next whole, last]
      simp only [makerCtx, height]
      rfl
  · refine .inr ⟨⟨reason, ?_⟩, dueHere.mp isDue, fun stands => ?_⟩
    · rw [endBlock, ok, Except.ok_bind, failed]
      rfl
    · have some := found.mpr stands
      rw [show blockEnd.state.store.exchangeRates.lookup microUSMDenom = none from missing] at some
      cases some

/-- As long as no block panics, adjustments are due once per cooldown period. -/
theorem BlockRun.due_iff (valid : makerParams.validate = .ok ()) {n : ℕ} (within : n < blocks)
    (fine : ∀ m < n, ∀ reason, endBlock makerParams (ctxs m) (oracles m) (makers m) ≠ .error (.panic reason)) :
    makerParams.backingRatioCooldownPeriod ≤ (start : ℤ) + n - (makers n).getBackingRatioLastBlock ↔
      ∃ k : ℕ, (start : ℤ) + n = max (start : ℤ) ((makers 0).getBackingRatioLastBlock +
        makerParams.backingRatioCooldownPeriod) + k * makerParams.backingRatioCooldownPeriod := by
  obtain ⟨_, _, cooldown⟩ := validate_ratio_params valid
  apply Math.due_iff_of_prompt cooldown (fun m less => ?_)
  rcases run.block valid (less.trans within) with ⟨_, last, _⟩ | ⟨⟨reason, failed⟩, _⟩
  · exact last
  · exact absurd failed (fine m less reason)

/-- The two modules end all blocks of a run without a panic exactly when a price stands in every block in which an
adjustment is due: those at the first height that is a cooldown period after the last adjustment, and every cooldown
period from there. -/
theorem endBlockers_never_panic_iff (valid : makerParams.validate = .ok ()) :
    (∀ n < blocks, ∀ reason, endBlock makerParams (ctxs n) (oracles n) (makers n) ≠ .error (.panic reason)) ↔
      ∀ n < blocks, (∃ k : ℕ, (start : ℤ) + n = max (start : ℤ) ((makers 0).getBackingRatioLastBlock +
        makerParams.backingRatioCooldownPeriod) + k * makerParams.backingRatioCooldownPeriod) →
          PriceStands oracleParams start ctxs oracles n := by
  constructor
  · intro fine n within regular
    have due := (run.due_iff valid within fun m less => fine m (less.trans within)).mpr regular
    rcases run.block valid within with ⟨_, _, stands⟩ | ⟨⟨reason, failed⟩, _⟩
    · exact stands due
    · exact absurd failed (fine n within reason)
  · intro stands n
    -- the schedule at a block is known once all blocks before it have ended
    induction n using Nat.strong_induction_on with
    | _ n ih =>
      intro within
      rcases run.block valid within with ⟨fine, _⟩ | ⟨_, due, missing⟩
      · exact fine
      · have regular := (run.due_iff valid within fun m less => ih m less (less.trans within)).mp due
        exact absurd (stands n within regular) missing

end Run

/-- Blocks 599 and 600 of two validators. -/
def sampleCtxs (n : ℕ) : Model.Oracle.Ctx := { Oracle.sampleCtx with blockHeight := 599 + n }

/-- Nobody votes; the stablecoin had a price before. -/
def sampleOracles : ℕ → Model.Oracle.State
  | 0 =>
    { Oracle.sampleState .zero with store :=
      { (Oracle.sampleState .zero).store with exchangeRates := AList.singleton microUSMDenom Dec.one, votes := ∅ } }
  | _ => { Oracle.sampleState .zero with store := { (Oracle.sampleState .zero).store with votes := ∅ } }

theorem ends_of_rates {ctx : Model.Oracle.Ctx} {state : Model.Oracle.State} {rates : AList fun _ : Denom => Dec}
    (ends : (fun blockEnd => blockEnd.state.store.exchangeRates.entries) <$> Model.Oracle.endBlocker ctx state =
      .ok rates.entries) :
    ∃ blockEnd, Model.Oracle.endBlocker ctx state = .ok blockEnd ∧ rates = blockEnd.state.store.exchangeRates := by
  obtain ⟨blockEnd, ok, same⟩ := Except.map_ok_iff.mp ends
  exact ⟨blockEnd, ok, AList.ext same.symm⟩

theorem kept_of_lastBlock {ctx : Model.Oracle.Ctx} {state : Model.Oracle.State} {maker after : Model.Maker.Store}
    (ends : (fun result => result.2.getBackingRatioLastBlock) <$> endBlock Model.Maker.defaultParams ctx state maker =
      .ok after.getBackingRatioLastBlock) (blockEnd : Model.Oracle.BlockEnd) (next : Model.Maker.Store)
    (ended : endBlock Model.Maker.defaultParams ctx state maker = .ok (blockEnd, next)) :
    after.getBackingRatioLastBlock = next.getBackingRatioLastBlock := by
  rw [ended] at ends
  exact (Except.ok.inj ends).symm

/-- In block 600 the first adjustment is due, and there is no price. -/
theorem sample_panics : endBlock Model.Maker.defaultParams (sampleCtxs 1) (sampleOracles 1) Model.Maker.Store.empty =
    .error (.panic "uusm: unknown denom") := rfl

theorem sampleRun : BlockRun Model.Oracle.defaultParams Model.Maker.defaultParams 599 2 sampleCtxs sampleOracles
    fun _ => Model.Maker.Store.empty where
  height _ _ := rfl
  params _ _ := rfl
  oracleEnds
    | 0, _ => ends_of_rates (by decide +kernel)
    | 1, _ => ends_of_rates (by decide +kernel)
  makerKept
    | 0, _ => kept_of_lastBlock (by decide +kernel)
    | 1, _ => fun _ _ ended => by
      rw [sample_panics] at ended
      cases ended

/-- The tally of block 599 removes the price, and in block 600 the first adjustment is due. -/
theorem adjustment_panics_sample :
    Model.Oracle.defaultParams.validate = .ok () ∧ Model.Maker.defaultParams.validate = .ok () ∧
    BlockRun Model.Oracle.defaultParams Model.Maker.defaultParams 599 2 sampleCtxs sampleOracles
      (fun _ => Model.Maker.Store.empty) ∧
    endBlock Model.Maker.defaultParams (sampleCtxs 1) (sampleOracles 1) Model.Maker.Store.empty =
      .error (.panic "uusm: unknown denom") :=
  ⟨by decide, defaultParams_valid, sampleRun, sample_panics⟩

/-- Both validators vote in block 599. -/
def votedOracles : ℕ → Model.Oracle.State
  | 0 => Oracle.sampleState .one
  | _ => sampleOracles 0

/-- The first adjustment is made in block 600. -/
def votedMakers : ℕ → Model.Maker.Store
  | 0 | 1 => .empty
  | _ => { Model.Maker.Store.empty with backingRatioLastBlock := some 600 }

theorem votedRun : BlockRun Model.Oracle.defaultParams Model.Maker.defaultParams 599 2 sampleCtxs votedOracles votedMakers where
  height _ _ := rfl
  params _ _ := rfl
  oracleEnds
    | 0, _ => ends_of_rates (by decide +kernel)
    | 1, _ => ends_of_rates (by decide +kernel)
  makerKept
    | 0, _ => kept_of_lastBlock (by decide +kernel)
    | 1, _ => kept_of_lastBlock (by decide +kernel)

theorem endBlockers_never_panic_iff_sample :
    BlockRun Model.Oracle.defaultParams Model.Maker.defaultParams 599 2 sampleCtxs votedOracles votedMakers ∧
    ∀ n < 2, ∀ reason,
      endBlock Model.Maker.defaultParams (sampleCtxs n) (votedOracles n) (votedMakers n) ≠ .error (.panic reason) := by
  refine ⟨votedRun, (endBlockers_never_panic_iff votedRun defaultParams_valid).mpr fun n within _ => ?_⟩
  refine .inl ⟨0, n.zero_le, by decide, fun s after le => ?_, (mem_talliedRates_iff _ _ _).mp (by decide +kernel)⟩
  obtain rfl : s = 1 := by omega
  decide

end Rotofury.Soundness.App
