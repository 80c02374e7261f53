import Mathlib

/-! # Numbers as bytes

A number in a fixed count of bytes, the most significant one first. Two numbers that fit have the same bytes only if they
are the same.
-/

namespace Math

def bigEndian : ℕ → ℕ → List UInt8
  | 0, _ => []
  | width + 1, value => bigEndian width (value / 256) ++ [UInt8.ofNat value]

@[simp]
theorem length_bigEndian (width value : ℕ) : (bigEndian width value).length = width := by
  induction width generalizing value with
  | zero => rfl
  | succ width ih => simp [bigEndian, ih]

theorem bigEndian_injective {width left right : ℕ} (leftFits : left < 256 ^ width) (rightFits : right < 256 ^ width)
    (same : bigEndian width left = bigEndian width right) : left = right := by
  induction width generalizing left right with
  | zero => omega
  | succ width ih =>
    rw [pow_succ] at leftFits rightFits
    obtain ⟨front, last⟩ := List.append_inj' same rfl
    have high := ih (Nat.div_lt_of_lt_mul (by omega)) (Nat.div_lt_of_lt_mul (by omega)) front
    have low : left % 256 = right % 256 := by
      have bytes := congrArg UInt8.toNat (List.singleton_injective last)
      simpa using bytes
    omega

/-- What follows keys of one length tells numbers of one width apart. -/
theorem append_bigEndian_injective {width left right : ℕ} {front back : List UInt8} (leftFits : left < 256 ^ width)
    (rightFits : right < 256 ^ width) (same : front ++ bigEndian width left = back ++ bigEndian width right) :
    front = back ∧ left = right := by
  obtain ⟨fronts, numbers⟩ := List.append_inj' same (by simp)
  exact ⟨fronts, bigEndian_injective leftFits rightFits numbers⟩

end Math
