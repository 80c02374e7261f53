import Mathlib

/-! # Quantities that only fall

A step lowers a quantity or leaves it as it is; the condition says exactly when it leaves it as it is. Steps compose: a
quantity that only falls comes out as it went in exactly when no step has lowered it.
-/

variable {α : Type*} [PartialOrder α]

structure Falls (before after : α) (exact : Prop) : Prop where
  le : after ≤ before
  eq_iff : after = before ↔ exact

namespace Falls

theorem of_eq {before after : α} (same : after = before) : Falls before after True :=
  ⟨same.le, iff_of_true same trivial⟩

theorem trans {before middle after : α} {first second : Prop} (left : Falls before middle first)
    (right : Falls middle after second) : Falls before after (first ∧ second) := by
  refine ⟨right.le.trans left.le, ?_⟩
  rw [← left.eq_iff, ← right.eq_iff]
  constructor
  · rintro rfl
    have same := le_antisymm left.le right.le
    exact ⟨same, same.symm⟩
  · rintro ⟨rfl, rfl⟩
    rfl

theorem congr {before after : α} {exact other : Prop} (falls : Falls before after exact) (same : exact ↔ other) :
    Falls before after other :=
  ⟨falls.le, falls.eq_iff.trans same⟩

/-- Amounts that are not negative are taken off. -/
theorem of_sub {ι : Type*} {before after taken : ι → ℤ} {exact : Prop} (nonneg : ∀ i, 0 ≤ taken i)
    (less : ∀ i, after i = before i - taken i) (zero : (∀ i, taken i = 0) ↔ exact) : Falls before after exact := by
  constructor
  · intro i
    rw [less i]
    exact sub_le_self _ (nonneg i)
  · rw [← zero, funext_iff]
    refine forall_congr' fun i => ?_
    rw [less i]
    omega

end Falls
