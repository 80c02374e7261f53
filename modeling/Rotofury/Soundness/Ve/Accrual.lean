import Rotofury.Soundness.Ve.TotalPower

/-! # How rewards are split over weeks

What has arrived in the pool since the last call is recorded week by week, each week with the part for its time. The loop
counts the time of every week from the last call on, so a week is also given the parts of the weeks before it.
-/

namespace Rotofury.Soundness.Ve

open Model.Sdk Model.App Model.Ve Function Except

variable {now timeLast : ℕ} {amount : ℤ}

/-- The weeks that the time from the last call to now touches. -/
def weeksTouched (timeLast now : ℕ) : Finset ℕ :=
  {week ∈ Finset.Icc (regulatedUnixTime timeLast) (max timeLast (now - 1)) | regulatedUnixTime week = week}

/-- What the loop adds to a week: the part for the time from the last call to the end of the week. -/
def accrued (timeLast now : ℕ) (amount : ℤ) (week : ℕ) : ℤ :=
  if now ≤ week + regulatedPeriod then amount
  else (amount * (week + regulatedPeriod - timeLast : ℕ)).tdiv (now - timeLast : ℕ)

theorem dvd_regulatedUnixTime (t : ℕ) : regulatedPeriod ∣ regulatedUnixTime t := Nat.dvd_mul_left _ _

theorem regulated_regulated (t : ℕ) : regulatedUnixTime (regulatedUnixTime t) = regulatedUnixTime t :=
  regulatedUnixTime_eq_iff.mpr (dvd_regulatedUnixTime t)

/-- Different weeks are a week apart at least. -/
theorem next_week_le {week later : ℕ} (whole : regulatedUnixTime week = week) (wholeLater : regulatedUnixTime later = later)
    (before : week < later) : week + regulatedPeriod ≤ later := by
  have apart := Nat.le_of_dvd (Nat.sub_pos_of_lt before)
    (Nat.dvd_sub (regulatedUnixTime_eq_iff.mp wholeLater) (regulatedUnixTime_eq_iff.mp whole))
  omega

theorem update_add (table : ℕ → ℤ) (key query : ℕ) (added : ℤ) :
    update table key (table key + added) query = table query + if query = key then added else 0 := by
  rw [update_apply]
  split
  · next same => rw [same]
  · rw [add_zero]

section Loop

variable {perPeriod next : ℕ → ℤ} {epochTime : ℕ} (ordered : timeLast ≤ now) (bounded : now < 2 ^ 63)
include ordered bounded

/-- One turn of the loop gives the week what has accrued, and goes on while the next week has begun. -/
theorem accrue_turn (started : timeLast < epochTime + regulatedPeriod)
    (ok : accrue now timeLast (subUint64 now timeLast) amount perPeriod epochTime = .ok next) :
    let table := update perPeriod epochTime (perPeriod epochTime + accrued timeLast now amount epochTime)
    now ≤ epochTime + regulatedPeriod ∧ next = table ∨ epochTime + regulatedPeriod < now ∧
      accrue now timeLast (subUint64 now timeLast) amount table (epochTime + regulatedPeriod) = .ok next := by
  have duration : subUint64 now timeLast = now - timeLast := by
    unfold subUint64
    omega
  have lapse := toInt64_subUint64 ordered (by omega) (by omega)
  rw [accrue] at ok
  dsimp only at ok
  split at ok
  · next done =>
    have reached : now ≤ epochTime + regulatedPeriod := by omega
    rw [pure_ok_iff] at ok
    rw [accrued, if_pos reached]
    exact .inl ⟨reached, ok.symm⟩
  · next more =>
    simp only [bind_ok_iff] at ok
    obtain ⟨_, _, added, quotient, ok⟩ := ok
    have passed : toInt64 (subUint64 (min (epochTime + regulatedPeriod) now) timeLast) =
        (min (epochTime + regulatedPeriod) now - timeLast : ℕ) := toInt64_subUint64 (by omega) (by omega) (by omega)
    have some : ((now - timeLast : ℕ) : ℤ) ≠ 0 := by omega
    obtain rfl : accrued timeLast now amount epochTime = added := by
      rw [quo, passed, lapse, if_neg some] at quotient
      rw [← Except.ok.inj quotient, accrued]
      split
      · next reached => rw [min_eq_right reached, Int.mul_tdiv_cancel _ some]
      · next further => rw [min_eq_left (Nat.le_of_not_le further)]
    split at ok
    · next reached =>
      rw [pure_ok_iff] at ok
      exact .inl ⟨reached, ok.symm⟩
    · next further => exact .inr ⟨Nat.lt_of_not_le further, ok⟩

/-- The loop from a week on adds to that week and to the later ones. -/
theorem accrue_adds (whole : regulatedUnixTime epochTime = epochTime) (started : timeLast < epochTime + regulatedPeriod)
    (ongoing : epochTime ≤ max timeLast (now - 1))
    (ok : accrue now timeLast (subUint64 now timeLast) amount perPeriod epochTime = .ok next) (week : ℕ) :
    next week = perPeriod week + if regulatedUnixTime week = week ∧ epochTime ≤ week ∧ week ≤ max timeLast (now - 1) then
      accrued timeLast now amount week else 0 := by
  -- by induction on the time that is left, with the table and the week as the loop carries them
  induction left : now - epochTime using Nat.strong_induction_on generalizing perPeriod epochTime with | _ left ih => ?_
  have period : 0 < regulatedPeriod := by decide
  have later : regulatedUnixTime week = week → epochTime ≤ week → week ≠ epochTime → epochTime + regulatedPeriod ≤ week :=
    fun wholeWeek after other => next_week_le whole wholeWeek (lt_of_le_of_ne after other.symm)
  rcases accrue_turn ordered bounded started ok with ⟨reached, rfl⟩ | ⟨further, rest⟩
  · rw [update_add]
    have only : week = epochTime ↔ regulatedUnixTime week = week ∧ epochTime ≤ week ∧ week ≤ max timeLast (now - 1) := by
      refine ⟨by rintro rfl; exact ⟨whole, le_rfl, ongoing⟩, fun ⟨wholeWeek, after, inside⟩ => ?_⟩
      by_contra other
      have := later wholeWeek after other
      omega
    exact congrArg (perPeriod week + ·) (if_ctx_congr only (fun inside => by rw [only.mpr inside]) fun _ => rfl)
  · have wholeNext : regulatedUnixTime (epochTime + regulatedPeriod) = epochTime + regulatedPeriod :=
      regulatedUnixTime_eq_iff.mpr (Nat.dvd_add_self_right.mpr (regulatedUnixTime_eq_iff.mp whole))
    rw [ih _ (by omega) wholeNext (by omega) (le_max_of_le_right (by omega)) rest rfl, update_add, add_assoc]
    refine congrArg (perPeriod week + ·) ?_
    by_cases same : week = epochTime
    · subst same
      rw [if_pos rfl, if_neg fun inside => by omega, add_zero, if_pos ⟨whole, le_rfl, ongoing⟩]
    · rw [if_neg same, zero_add]
      refine if_congr (and_congr_right fun wholeWeek => and_congr_left fun _ => ⟨by omega, fun after => ?_⟩) rfl rfl
      exact later wholeWeek after same

end Loop

/-- What a call adds to a week. -/
def added (timeLast now : ℕ) (amount : ℤ) (week : ℕ) : ℤ :=
  if week ∈ weeksTouched timeLast now then accrued timeLast now amount week else 0

theorem mem_weeksTouched {week : ℕ} : week ∈ weeksTouched timeLast now ↔
    regulatedUnixTime week = week ∧ regulatedUnixTime timeLast ≤ week ∧ week ≤ max timeLast (now - 1) := by
  rw [weeksTouched, Finset.mem_filter, Finset.mem_Icc, and_comm]

section Call

variable {ctx : Ctx} {bank : Bank} {distribution next : Distribution}

/-- The spec of `DistributePerPeriod`. -/
theorem distributePerPeriod_adds (ordered : distribution.accruedLastTimestamp ≤ ctx.blockTime)
    (ok : distributePerPeriod ctx bank distribution = .ok next) (week : ℕ) :
    next.perPeriod week = distribution.perPeriod week + added distribution.accruedLastTimestamp ctx.blockTime
      (poolBalance ctx bank - distribution.totalAmount) week := by
  simp only [distributePerPeriod, ok_iffs] at ok
  obtain ⟨perPeriod, ok, rfl⟩ := ok
  have reached := regulatedUnixTime_le distribution.accruedLastTimestamp
  refine (accrue_adds ordered ctx.time_lt (regulated_regulated _) (lt_regulatedUnixTime_add _) (by omega) ok week).trans ?_
  exact congrArg (distribution.perPeriod week + ·) (if_congr mem_weeksTouched.symm rfl rfl)

end Call

theorem added_nonneg (nonneg : 0 ≤ amount) (week : ℕ) : 0 ≤ added timeLast now amount week := by
  unfold added accrued
  split_ifs
  · exact nonneg
  · exact Int.tdiv_nonneg (mul_nonneg nonneg (Int.natCast_nonneg _)) (Int.natCast_nonneg _)
  · exact le_rfl

/-! ## The split -/

/-- The time of a week between the last call and now. -/
def timeInside (timeLast now week : ℕ) : ℕ := min (week + regulatedPeriod) now - max week timeLast

/-- An amount is split over the weeks: no week loses, all is given but what rounding loses, and each week has the part for
its time to within one unit. -/
structure SplitOverWeeks (timeLast now : ℕ) (amount : ℤ) (increment : ℕ → ℤ) : Prop where
  nonneg : ∀ week, 0 ≤ increment week
  outside : ∀ week, week ∉ weeksTouched timeLast now → increment week = 0
  sum_le : ∑ week ∈ weeksTouched timeLast now, increment week ≤ amount
  lt_sum : amount - (weeksTouched timeLast now).card < ∑ week ∈ weeksTouched timeLast now, increment week
  proportional : ∀ week ∈ weeksTouched timeLast now,
    |increment week * (now - timeLast : ℕ) - amount * timeInside timeLast now week| ≤ (now - timeLast : ℕ)

/-- The last week that is touched. -/
def lastWeek (timeLast now : ℕ) : ℕ := regulatedUnixTime (max timeLast (now - 1))

/-- Less than one unit of the amount is for the time before the last week. -/
def LastWeekOnly (timeLast now : ℕ) (amount : ℤ) : Prop :=
  amount * (lastWeek timeLast now - timeLast : ℕ) < max 1 ((now : ℤ) - timeLast)

instance : Decidable (LastWeekOnly timeLast now amount) := inferInstanceAs (Decidable (_ < _))

section Split

theorem lastWeek_bounds (timeLast now : ℕ) : (lastWeek timeLast now ≤ timeLast ∨ lastWeek timeLast now ≤ now - 1) ∧
    timeLast < lastWeek timeLast now + regulatedPeriod ∧ now ≤ lastWeek timeLast now + regulatedPeriod := by
  have after := lt_regulatedUnixTime_add (max timeLast (now - 1))
  have current := (le_max_right timeLast (now - 1)).trans_lt after
  exact ⟨le_max_iff.mp (regulatedUnixTime_le _), (le_max_left _ _).trans_lt after, Nat.le_of_pred_lt current⟩

theorem lastWeek_touched (timeLast now : ℕ) : lastWeek timeLast now ∈ weeksTouched timeLast now :=
  mem_weeksTouched.mpr ⟨regulated_regulated _, regulatedUnixTime_mono (le_max_left _ _), regulatedUnixTime_le _⟩

/-- The last week is given everything. -/
theorem added_lastWeek : added timeLast now amount (lastWeek timeLast now) = amount := by
  have bounds := lastWeek_bounds timeLast now
  rw [added, if_pos (lastWeek_touched timeLast now), accrued, if_pos (by omega)]

/-- An earlier week ends by the start of the last. -/
theorem added_earlier (amount : ℤ) {week : ℕ} (touched : week ∈ weeksTouched timeLast now)
    (earlier : week ≠ lastWeek timeLast now) :
    timeLast < week + regulatedPeriod ∧ week + regulatedPeriod ≤ lastWeek timeLast now ∧ lastWeek timeLast now < now ∧
      added timeLast now amount week = (amount * (week + regulatedPeriod - timeLast : ℕ)).tdiv (now - timeLast : ℕ) := by
  obtain ⟨whole, after, inside⟩ := mem_weeksTouched.mp touched
  have bounds := lastWeek_bounds timeLast now
  have first := lt_regulatedUnixTime_add timeLast
  have before : week ≤ lastWeek timeLast now := by
    rw [← whole]
    exact regulatedUnixTime_mono inside
  have next : week + regulatedPeriod ≤ lastWeek timeLast now :=
    next_week_le whole (regulated_regulated _) (lt_of_le_of_ne before earlier)
  rw [added, if_pos touched, accrued, if_neg (by omega)]
  exact ⟨by omega, next, by omega, rfl⟩

variable (nonneg : 0 ≤ amount)
include nonneg

/-- What an earlier week is given is given once too often. -/
theorem SplitOverWeeks.lastWeekOnly (split : SplitOverWeeks timeLast now amount (added timeLast now amount)) :
    LastWeekOnly timeLast now amount := by
  have bounds := lastWeek_bounds timeLast now
  refine lt_of_not_ge fun much => ?_
  have apart : timeLast < lastWeek timeLast now := by
    by_contra near
    rw [Nat.sub_eq_zero_of_le (Nat.not_lt.mp near), Nat.cast_zero, mul_zero] at much
    omega
  have whole : regulatedUnixTime (lastWeek timeLast now) = lastWeek timeLast now := regulated_regulated _
  have enough : regulatedUnixTime timeLast + regulatedPeriod ≤ lastWeek timeLast now :=
    next_week_le (regulated_regulated _) whole ((regulatedUnixTime_le timeLast).trans_lt apart)
  have period : 0 < regulatedPeriod := by decide
  have prior : regulatedUnixTime (lastWeek timeLast now - regulatedPeriod) = lastWeek timeLast now - regulatedPeriod :=
    regulatedUnixTime_eq_iff.mpr (Nat.dvd_sub (regulatedUnixTime_eq_iff.mp whole) dvd_rfl)
  have touched : lastWeek timeLast now - regulatedPeriod ∈ weeksTouched timeLast now :=
    mem_weeksTouched.mpr ⟨prior, by omega, (Nat.sub_le _ _).trans (regulatedUnixTime_le _)⟩
  have some : 1 ≤ added timeLast now amount (lastWeek timeLast now - regulatedPeriod) := by
    obtain ⟨_, _, before, isAdded⟩ := added_earlier amount touched (by omega)
    have elapsed := apart.trans before
    rw [isAdded, Nat.sub_add_cancel (by omega), Int.tdiv_eq_ediv_of_nonneg (mul_nonneg nonneg (Int.natCast_nonneg _)),
      Int.le_ediv_iff_mul_le (Nat.cast_pos.mpr (Nat.sub_pos_of_lt elapsed)), one_mul, Nat.cast_sub elapsed.le]
    exact (le_max_right _ _).trans much
  have pair := Finset.sum_le_sum_of_subset_of_nonneg
    (Finset.insert_subset touched (Finset.singleton_subset_iff.mpr (lastWeek_touched timeLast now)))
    fun week _ _ => split.nonneg week
  rw [Finset.sum_pair (by omega), added_lastWeek] at pair
  linarith [split.sum_le]

theorem LastWeekOnly.split (only : LastWeekOnly timeLast now amount) :
    SplitOverWeeks timeLast now amount (added timeLast now amount) := by
  have bounds := lastWeek_bounds timeLast now
  have below : ∀ time : ℕ, time ≤ lastWeek timeLast now - timeLast → amount * time < max 1 ((now : ℤ) - timeLast) :=
    fun time short => (mul_le_mul_of_nonneg_left (Nat.cast_le.mpr short) nonneg).trans_lt only
  have nothing : ∀ week ∈ weeksTouched timeLast now, week ≠ lastWeek timeLast now → added timeLast now amount week = 0 := by
    intro week touched earlier
    obtain ⟨_, next, before, isAdded⟩ := added_earlier amount touched earlier
    have elapsed : timeLast + 1 ≤ now := by omega
    have small := below (week + regulatedPeriod - timeLast) (by omega)
    rw [max_eq_right (by omega), ← Nat.cast_sub (by omega)] at small
    rw [isAdded]
    exact Int.tdiv_eq_zero_of_lt (mul_nonneg nonneg (Int.natCast_nonneg _)) small
  have sum : ∑ week ∈ weeksTouched timeLast now, added timeLast now amount week = amount := by
    rw [Finset.sum_eq_single_of_mem _ (lastWeek_touched timeLast now) nothing, added_lastWeek]
  refine ⟨added_nonneg nonneg, fun week outside => if_neg outside, sum.le, ?_, fun week touched => ?_⟩
  · have some := Finset.card_pos.mpr ⟨_, lastWeek_touched timeLast now⟩
    omega
  · -- what a week is off by is the part for the time before the last week, or less
    suffices off : ∃ time : ℕ, time ≤ lastWeek timeLast now - timeLast ∧
        |added timeLast now amount week * (now - timeLast : ℕ) - amount * timeInside timeLast now week| = amount * time by
      obtain ⟨time, short, isTime⟩ := off
      rw [isTime]
      rcases lt_max_iff.mp (below time short) with none | part
      · omega
      · omega
    by_cases same : week = lastWeek timeLast now
    · have lost : ((now - timeLast : ℕ) - timeInside timeLast now week : ℤ) = (lastWeek timeLast now - timeLast : ℕ) := by
        unfold timeInside
        omega
      refine ⟨_, le_rfl, ?_⟩
      rw [same] at lost ⊢
      rw [added_lastWeek, ← mul_sub, lost, abs_of_nonneg (mul_nonneg nonneg (Int.natCast_nonneg _))]
    · obtain ⟨_, next, _, -⟩ := added_earlier amount touched same
      refine ⟨timeInside timeLast now week, by unfold timeInside; omega, ?_⟩
      rw [nothing week touched same, zero_mul, zero_sub, abs_neg, abs_of_nonneg (mul_nonneg nonneg (Int.natCast_nonneg _))]

end Split

/-- What has been received since the last call is split over the weeks exactly when less than one unit of it is for the
time before the last week. -/
theorem splitOverWeeks_iff {ctx : Ctx} {bank : Bank} {distribution next : Distribution}
    (ordered : distribution.accruedLastTimestamp ≤ ctx.blockTime) (received : distribution.totalAmount ≤ poolBalance ctx bank)
    (success : distributePerPeriod ctx bank distribution = .ok next) :
    SplitOverWeeks distribution.accruedLastTimestamp ctx.blockTime (poolBalance ctx bank - distribution.totalAmount)
        (fun week => next.perPeriod week - distribution.perPeriod week) ↔
      LastWeekOnly distribution.accruedLastTimestamp ctx.blockTime (poolBalance ctx bank - distribution.totalAmount) := by
  have nonneg := sub_nonneg.mpr received
  simp only [distributePerPeriod_adds ordered success, add_sub_cancel_left]
  exact ⟨fun split => split.lastWeekOnly nonneg, fun only => only.split nonneg⟩

/-- A pool that has received 100 coins. -/
def receivedBank : Bank where
  balance := fun account denom => if account = ModuleAccount.distributionPool.address ∧ denom = "airon" then 100 else 0
  supply := fun denom => if denom = "airon" then 100 else 0

/-- The coins are distributed at the end of the second week. -/
def distributeSince (timeLast : ℕ) : Except Fault Distribution :=
  distributePerPeriod (sampleCtx (2 * regulatedPeriod) 1 (by decide) (by decide)) receivedBank
    { Distribution.genesis with accruedLastTimestamp := timeLast }

theorem one_week_split : ∃ next, distributeSince regulatedPeriod = .ok next ∧
    SplitOverWeeks regulatedPeriod (2 * regulatedPeriod) 100 fun week => next.perPeriod week - 0 := by
  have loop : accrue (2 * regulatedPeriod) regulatedPeriod regulatedPeriod 100 (fun _ => 0) regulatedPeriod =
      .ok (update (fun _ => 0) regulatedPeriod 100) := by
    rw [accrue]
    rfl
  have success : distributeSince regulatedPeriod =
      .ok ⟨100, 2 * regulatedPeriod, update (fun _ => 0) regulatedPeriod 100, fun _ => 0⟩ := bind_ok_iff.mpr ⟨_, loop, rfl⟩
  exact ⟨_, success, (splitOverWeeks_iff (by decide) (by decide) success).mpr (by decide)⟩

/-- After two weeks the first is given 50 coins and the second all 100. -/
theorem two_weeks_not_split : ∃ next, distributeSince 0 = .ok next ∧
    next.perPeriod 0 = 50 ∧ next.perPeriod regulatedPeriod = 100 ∧
    ¬ SplitOverWeeks 0 (2 * regulatedPeriod) 100 fun week => next.perPeriod week - 0 := by
  have first : accrue (2 * regulatedPeriod) 0 (2 * regulatedPeriod) 100 (fun _ => 0) 0 =
      accrue (2 * regulatedPeriod) 0 (2 * regulatedPeriod) 100 (update (fun _ => 0) 0 50) regulatedPeriod := by
    rw [accrue]
    rfl
  have second : accrue (2 * regulatedPeriod) 0 (2 * regulatedPeriod) 100 (update (fun _ => 0) 0 50) regulatedPeriod =
      .ok (update (update (fun _ => 0) 0 50) regulatedPeriod 100) := by
    rw [accrue]
    rfl
  refine ⟨_, bind_ok_iff.mpr ⟨_, first.trans second, rfl⟩, rfl, rfl, fun split => ?_⟩
  have touched : {0, regulatedPeriod} ⊆ weeksTouched 0 (2 * regulatedPeriod) := by
    simp only [Finset.insert_subset_iff, Finset.singleton_subset_iff, mem_weeksTouched]
    decide
  have sum := (Finset.sum_le_sum_of_subset_of_nonneg touched fun week _ _ => split.nonneg week).trans split.sum_le
  rw [Finset.sum_pair (by decide)] at sum
  exact absurd sum (by decide)

end Rotofury.Soundness.Ve
