import Mathlib

/-! # Quantities with a cooldown

A quantity moves by at most a fixed step, and after a move it rests for a number of ticks. In any window of `n` ticks it
then moves at most `⌊(n - 1) / c⌋ + 1` times, wherever the window starts. One that moves as soon as it may does so at
regular ticks.
-/

namespace Math

variable {window step start : ℤ} {last : ℕ → ℤ} {n : ℕ}

/-- At tick `n` the quantity rests, or its cooldown since the last move is over and it moves. -/
inductive CoolsDown (period step : ℤ) (now : ℤ) (value last value' last' : ℤ) : Prop
  | rests (value_eq : value' = value) (last_eq : last' = last)
  | moves (due : period ≤ now - last) (small : |value' - value| ≤ step) (last_eq : last' = now)

/-- How many moves fit into a window of the given length that starts with a move. -/
def movesWithin (period window : ℤ) : ℤ := (max window 0 + period - 1) / period

variable {period : ℤ} (positive : 0 < period)
include positive

theorem movesWithin_mono {longer : ℤ} (le : window ≤ longer) :
    movesWithin period window ≤ movesWithin period longer := by
  apply Int.ediv_le_ediv positive
  have := max_le_max_right 0 le
  omega

theorem movesWithin_nonneg (window : ℤ) : 0 ≤ movesWithin period window := by
  apply Int.ediv_nonneg _ positive.le
  have := le_max_right window 0
  omega

/-- A move uses up the first `period` ticks of a window. -/
theorem movesWithin_succ (nonempty : 0 < window) :
    movesWithin period (window - period) + 1 ≤ movesWithin period window := by
  have whole : max window 0 = window := max_eq_left nonempty.le
  rw [movesWithin, movesWithin, whole]
  rcases le_or_gt 0 (window - period) with long | short
  · have shifted : window + period - 1 = window - period + period - 1 + 1 * period := by ring
    rw [max_eq_left long, shifted, Int.add_mul_ediv_right _ _ positive.ne']
  · rw [max_eq_right short.le, Int.ediv_eq_zero_of_lt (by omega) (by omega)]
    exact (Int.le_ediv_iff_mul_le positive).mpr (by omega)

/-- The closed form for a window of `n` ticks. -/
theorem movesWithin_eq (n : ℕ) : movesWithin period n = ((n : ℤ) - 1) / period + 1 := by
  have shifted : (n : ℤ) + period - 1 = (n - 1) + 1 * period := by ring
  rw [movesWithin, max_eq_left (Int.natCast_nonneg n), shifted, Int.add_mul_ediv_right _ _ positive.ne']

/-- The ticks that are still to be waited count towards the window. -/
private theorem abs_change_le_movesWithin (stepNonneg : 0 ≤ step) (value last : ℕ → ℤ)
    (cools : ∀ n : ℕ, CoolsDown period step (start + n) (value n) (last n) (value (n + 1)) (last (n + 1))) (m n : ℕ) :
    |value (m + n) - value m| ≤ movesWithin period (n - max (last m + period - (start + m)) 0) * step := by
  induction n generalizing m with
  | zero => simpa using mul_nonneg (movesWithin_nonneg positive _) stepNonneg
  | succ n ih =>
    have rest := ih (m + 1)
    rw [show m + 1 + n = m + (n + 1) by ring] at rest
    push_cast at rest ⊢
    cases cools m with
    | rests value_eq last_eq =>
      rw [value_eq, last_eq] at rest
      refine rest.trans (mul_le_mul_of_nonneg_right (movesWithin_mono positive ?_) stepNonneg)
      omega
    | moves due small last_eq =>
      have waited : max (last m + period - (start + m)) 0 = 0 := max_eq_right (by omega)
      have waiting : max (start + m + period - (start + (m + 1))) 0 = period - 1 := by
        rw [max_eq_left (by omega)]
        ring
      rw [last_eq, waiting] at rest
      have counted : movesWithin period (n - (period - 1)) + 1 ≤ movesWithin period (n + 1 - 0) := by
        have := movesWithin_succ positive (show (0 : ℤ) < n + 1 by omega)
        rwa [show (n : ℤ) + 1 - period = n - (period - 1) by ring, ← sub_zero ((n : ℤ) + 1)] at this
      rw [waited]
      calc |value (m + (n + 1)) - value m|
          ≤ |value (m + (n + 1)) - value (m + 1)| + |value (m + 1) - value m| := abs_sub_le ..
        _ ≤ movesWithin period (n - (period - 1)) * step + step := add_le_add rest small
        _ = (movesWithin period (n - (period - 1)) + 1) * step := by ring
        _ ≤ movesWithin period (n + 1 - 0) * step := mul_le_mul_of_nonneg_right counted stepNonneg

/-- Over any `n` ticks a quantity with a cooldown changes by at most `⌊(n - 1) / period⌋ + 1` steps. -/
theorem abs_change_le_of_coolsDown (stepNonneg : 0 ≤ step) (value last : ℕ → ℤ)
    (cools : ∀ n : ℕ, CoolsDown period step (start + n) (value n) (last n) (value (n + 1)) (last (n + 1))) (m n : ℕ) :
    |value (m + n) - value m| ≤ (((n : ℤ) - 1) / period + 1) * step := by
  rw [← movesWithin_eq positive]
  refine (abs_change_le_movesWithin positive stepNonneg value last cools m n).trans ?_
  apply mul_le_mul_of_nonneg_right _ stepNonneg
  apply movesWithin_mono positive
  have := le_max_right (last m + period - (start + m)) 0
  omega

variable (prompt : ∀ m < n, last (m + 1) = if period ≤ start + m - last m then start + m else last m)
include prompt

/-- The ticks of a quantity that moves as soon as it may, after some more ticks than the first possible one. -/
private theorem next_move_of_prompt :
    ∃ k : ℕ, max (start + n) (last n + period) = max start (last 0 + period) + k * period ∧
      (k = 0 ∨ max (start + n) (last n + period) < start + n + period) := by
  induction n with
  | zero => exact ⟨0, by simp, .inl rfl⟩
  | succ n ih =>
    obtain ⟨k, next, soon⟩ := ih fun m less => prompt m (Nat.lt_succ_of_lt less)
    have moved := prompt n (Nat.lt_succ_self n)
    push_cast
    split at moved
    · next due =>
      refine ⟨k + 1, ?_, .inr ?_⟩
      · push_cast
        rw [add_mul, moved]
        omega
      · omega
    · next waiting =>
      have same : max (start + (n + 1)) (last (n + 1) + period) = max (start + n) (last n + period) := by omega
      refine ⟨k, same.trans next, soon.imp_right fun less => ?_⟩
      omega

/-- A quantity that moves as soon as it may does so every `period` ticks. -/
theorem due_iff_of_prompt :
    period ≤ start + n - last n ↔ ∃ k : ℕ, start + n = max start (last 0 + period) + k * period := by
  obtain ⟨k, next, soon⟩ := next_move_of_prompt positive prompt
  constructor
  · intro due
    exact ⟨k, by omega⟩
  · rintro ⟨other, regular⟩
    suffices k = other by
      subst this
      omega
    have notBefore : (other : ℤ) * period ≤ k * period := by omega
    have notAfter : k = 0 ∨ (k : ℤ) * period < (other + 1) * period := soon.imp_right fun less => by
      rw [add_mul]
      omega
    have ge : (other : ℤ) ≤ k := le_of_mul_le_mul_right notBefore positive
    rcases notAfter with zero | less
    · omega
    · have := lt_of_mul_lt_mul_right less positive.le
      omega

end Math
