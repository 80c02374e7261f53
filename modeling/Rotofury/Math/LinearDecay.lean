import Mathlib

/-! # Sums of linearly decaying quantities

A line falls with constant slope and is zero from its stop on. A finite family of lines has a total that is
piecewise linear: between two stops it falls with the sum of the slopes still alive, and at a stop that sum
loses the slopes of the lines stopping there. A ledger that knows the total, the live slope and what stops
when can therefore be carried forward without the lines.
-/

namespace Math

variable {line : Line} {t later : ℕ}

/-- A quantity that falls by `slope` in every unit of time until it is zero at `stop`. -/
structure Line where
  slope : ℤ
  stop : ℕ
deriving DecidableEq, Repr

namespace Line

def value (line : Line) (t : ℕ) : ℤ := line.slope * (line.stop - t : ℕ)

def live (line : Line) (t : ℕ) : ℤ := if t < line.stop then line.slope else 0

def stopping (line : Line) (t : ℕ) : ℤ := if line.stop = t then line.slope else 0

theorem value_nonneg (nonneg : 0 ≤ line.slope) (t : ℕ) : 0 ≤ line.value t :=
  mul_nonneg nonneg (Int.natCast_nonneg _)

theorem live_nonneg (nonneg : 0 ≤ line.slope) (t : ℕ) : 0 ≤ line.live t := by
  unfold live
  split
  · exact nonneg
  · exact le_rfl

theorem value_antitone (nonneg : 0 ≤ line.slope) (ordered : t ≤ later) :
    line.value later ≤ line.value t :=
  mul_le_mul_of_nonneg_left (by omega) nonneg

theorem value_of_stopped (stopped : line.stop ≤ t) : line.value t = 0 := by
  simp [value, Nat.sub_eq_zero_of_le stopped]

theorem live_of_stopped (stopped : line.stop ≤ t) : line.live t = 0 :=
  if_neg (Nat.not_lt.mpr stopped)

/-- A line without value is over, or has always been flat. -/
theorem live_of_value (worthless : line.value t = 0) :
    line.live t = 0 := by
  unfold live
  split
  · next running =>
    have remaining : ((line.stop - t : ℕ) : ℤ) ≠ 0 := by omega
    exact (mul_eq_zero.mp worthless).resolve_right remaining
  · rfl

theorem value_advance (ordered : t ≤ later) (apart : line.stop ≤ t ∨ later ≤ line.stop) :
    line.value later = line.value t - line.live t * (later - t : ℕ) := by
  unfold value live
  rcases apart with stopped | alive
  · rw [if_neg (by omega), Nat.sub_eq_zero_of_le stopped, Nat.sub_eq_zero_of_le (stopped.trans ordered)]
    ring
  · rcases ordered.eq_or_lt with rfl | before
    · simp
    · rw [if_pos (by omega)]
      push_cast [alive, ordered, ordered.trans alive]
      ring

/-- The value at any later time is what is left of the live line, once it is cut off at zero. -/
theorem value_eq_max (nonneg : 0 ≤ line.slope) (ordered : t ≤ later) :
    line.value later = max 0 (line.value t - line.live t * (later - t : ℕ)) := by
  by_cases apart : line.stop ≤ t ∨ later ≤ line.stop
  · rw [← value_advance ordered apart, max_eq_right (value_nonneg nonneg later)]
  · have stopped : line.stop - later = 0 := by omega
    have overshoot : line.slope * (line.stop - t : ℕ) ≤ line.slope * (later - t : ℕ) :=
      mul_le_mul_of_nonneg_left (by omega) nonneg
    rw [value, stopped, value, live, if_pos (by omega), max_eq_left (by linarith)]
    simp

theorem live_advance (ordered : t < later) (apart : line.stop ≤ t ∨ later ≤ line.stop) :
    line.live later = line.live t - line.stopping later := by
  unfold live stopping
  split_ifs <;> omega

theorem live_steady (ordered : t ≤ later) (apart : line.stop ≤ t ∨ later < line.stop) :
    line.live later = line.live t := by
  unfold live
  split_ifs <;> omega

end Line

variable {ι : Type*}

/-- The sum of the lines with the given indices. -/
def total (ids : Finset ι) (lines : ι → Line) (t : ℕ) : ℤ := ∑ i ∈ ids, (lines i).value t

/-- The slope with which the sum falls right after `t`. -/
def liveSlope (ids : Finset ι) (lines : ι → Line) (t : ℕ) : ℤ := ∑ i ∈ ids, (lines i).live t

/-- The slope that ends at `t`. -/
def stoppingSlope (ids : Finset ι) (lines : ι → Line) (t : ℕ) : ℤ := ∑ i ∈ ids, (lines i).stopping t

variable {ids : Finset ι} {lines : ι → Line}

section

variable (nonneg : ∀ i ∈ ids, 0 ≤ (lines i).slope)
include nonneg

theorem total_nonneg (t : ℕ) : 0 ≤ total ids lines t :=
  Finset.sum_nonneg fun i member => Line.value_nonneg (nonneg i member) t

theorem liveSlope_nonneg (t : ℕ) : 0 ≤ liveSlope ids lines t :=
  Finset.sum_nonneg fun i member => Line.live_nonneg (nonneg i member) t

theorem total_antitone (ordered : t ≤ later) : total ids lines later ≤ total ids lines t :=
  Finset.sum_le_sum fun i member => Line.value_antitone (nonneg i member) ordered

end

/-- Between two stops the sum falls with the live slope. -/
theorem total_advance (ordered : t ≤ later) (apart : ∀ i ∈ ids, (lines i).stop ≤ t ∨ later ≤ (lines i).stop) :
    total ids lines later = total ids lines t - liveSlope ids lines t * (later - t : ℕ) := by
  rw [total, total, liveSlope, Finset.sum_mul, ← Finset.sum_sub_distrib]
  exact Finset.sum_congr rfl fun i member => Line.value_advance ordered (apart i member)

/-- At the next stop the live slope loses what stops there. -/
theorem liveSlope_advance (ordered : t < later) (apart : ∀ i ∈ ids, (lines i).stop ≤ t ∨ later ≤ (lines i).stop) :
    liveSlope ids lines later = liveSlope ids lines t - stoppingSlope ids lines later := by
  rw [liveSlope, liveSlope, stoppingSlope, ← Finset.sum_sub_distrib]
  exact Finset.sum_congr rfl fun i member => Line.live_advance ordered (apart i member)

/-- Before the next stop the live slope does not change. -/
theorem liveSlope_steady (ordered : t ≤ later) (apart : ∀ i ∈ ids, (lines i).stop ≤ t ∨ later < (lines i).stop) :
    liveSlope ids lines later = liveSlope ids lines t :=
  Finset.sum_congr rfl fun i member => Line.live_steady ordered (apart i member)

section Update

variable [DecidableEq ι] {i : ι} (member : i ∈ ids) (line : Line) (t : ℕ)
include member

private theorem sum_update (quantity : Line → ℤ) :
    ∑ j ∈ ids, quantity (Function.update lines i line j) =
      (∑ j ∈ ids, quantity (lines j)) - quantity (lines i) + quantity line := by
  have others : ∀ j ∈ ids.erase i, quantity (Function.update lines i line j) = quantity (lines j) := by
    intro j other
    rw [Function.update_of_ne (Finset.ne_of_mem_erase other)]
  rw [← Finset.add_sum_erase ids _ member, ← Finset.add_sum_erase ids (fun j => quantity (lines j)) member,
    Finset.sum_congr rfl others, Function.update_self]
  ring

theorem total_update :
    total ids (Function.update lines i line) t = total ids lines t - (lines i).value t + line.value t :=
  sum_update member line fun line => line.value t

theorem liveSlope_update :
    liveSlope ids (Function.update lines i line) t = liveSlope ids lines t - (lines i).live t + line.live t :=
  sum_update member line fun line => line.live t

theorem stoppingSlope_update :
    stoppingSlope ids (Function.update lines i line) t =
      stoppingSlope ids lines t - (lines i).stopping t + line.stopping t :=
  sum_update member line fun line => line.stopping t

end Update

end Math
