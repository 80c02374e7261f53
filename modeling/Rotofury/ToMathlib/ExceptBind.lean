import Mathlib

/-! # Peeling fallible computations apart

A program in `Except` succeeds exactly when each of its steps does. The lemmas here turn the
success of a `do` block into the successes of its steps, so that a proof about a handler never
unfolds the monad.
-/

namespace Except

variable {ε α β : Type}

/-- A sequence succeeds exactly when its first step does and the rest succeeds on its result. -/
@[simp]
theorem bind_ok_iff {first : Except ε α} {rest : α → Except ε β} {result : β} :
    (first >>= rest) = .ok result ↔ ∃ value, first = .ok value ∧ rest value = .ok result := by
  cases first with
  | error fault => simp [bind, Except.bind]
  | ok value => simp [bind, Except.bind]

/-- A sequence fails with its first step's fault, or with the fault of the rest. -/
theorem bind_eq_error_iff {first : Except ε α} {rest : α → Except ε β} {fault : ε} :
    (first >>= rest) = .error fault ↔
      first = .error fault ∨ ∃ value, first = .ok value ∧ rest value = .error fault := by
  cases first with
  | error other => simp [bind, Except.bind]
  | ok value => simp [bind, Except.bind]

@[simp]
theorem map_ok_iff {first : Except ε α} {rest : α → β} {result : β} :
    rest <$> first = .ok result ↔ ∃ value, first = .ok value ∧ rest value = result := by
  cases first with
  | error fault => simp [Functor.map, Except.map]
  | ok value => simp [Functor.map, Except.map]

@[simp]
theorem pure_ok_iff {value result : α} :
    (pure value : Except ε α) = .ok result ↔ value = result := by
  simp [pure, Except.pure]

@[simp]
theorem ok_bind (value : α) (rest : α → Except ε β) : (Except.ok value >>= rest) = rest value := rfl

@[simp]
theorem error_bind (fault : ε) (rest : α → Except ε β) :
    ((Except.error fault : Except ε α) >>= rest) = .error fault := rfl

/-- A guard: continue when the condition holds, stop with the given fault otherwise. -/
def require (condition : Prop) [Decidable condition] (fault : ε) : Except ε Unit :=
  if condition then .ok () else .error fault

@[simp]
theorem require_ok_iff {condition : Prop} [Decidable condition] {fault : ε} {result : Unit} :
    require condition fault = .ok result ↔ condition := by
  unfold require
  split <;> simp_all

/-- The rules that read the success of a `do` block, as one set for `simp only`. -/
theorem ok_iffs {ε : Type} :
    (∀ {α β : Type} {first : Except ε α} {rest : α → Except ε β} {result : β},
      (first >>= rest) = .ok result ↔ ∃ value, first = .ok value ∧ rest value = .ok result) ∧
    (∀ {α : Type} {value result : α}, (pure value : Except ε α) = .ok result ↔ value = result) ∧
    ∀ {condition : Prop} [Decidable condition] {fault : ε} {result : Unit},
      require condition fault = .ok result ↔ condition :=
  ⟨bind_ok_iff, pure_ok_iff, require_ok_iff⟩

theorem require_eq_error_iff {condition : Prop} [Decidable condition] {fault other : ε} :
    require condition fault = .error other ↔ ¬ condition ∧ fault = other := by
  unfold require
  split <;> simp_all

/-- The computation may fail, but not in this way. -/
def Avoids (fault : ε) (result : Except ε α) : Prop := result ≠ .error fault

@[simp]
theorem avoids_ok (fault : ε) (value : α) : Avoids fault (.ok value) := by
  simp [Avoids]

@[simp]
theorem avoids_pure (fault : ε) (value : α) : Avoids fault (pure value) := by
  simp [Avoids, pure, Except.pure]

@[simp]
theorem avoids_error {fault other : ε} : Avoids fault (.error other : Except ε α) ↔ other ≠ fault := by
  simp [Avoids]

@[simp]
theorem avoids_require {condition : Prop} [Decidable condition] {fault other : ε} :
    Avoids fault (require condition other) ↔ (other = fault → condition) := by
  rw [Avoids, ne_eq, require_eq_error_iff]
  tauto

theorem Avoids.bind {fault : ε} {first : Except ε α} {rest : α → Except ε β} (start : Avoids fault first)
    (continued : ∀ value, first = .ok value → Avoids fault (rest value)) : Avoids fault (first >>= rest) := by
  intro failed
  rcases bind_eq_error_iff.mp failed with early | ⟨value, ok, late⟩
  · exact start early
  · exact continued value ok late

theorem Avoids.foldlM {fault : ε} {next : β → α → Except ε β} (each : ∀ state item, Avoids fault (next state item))
    (items : List α) (state : β) : Avoids fault (items.foldlM next state) := by
  induction items generalizing state with
  | nil => exact avoids_pure fault state
  | cons item rest ih =>
    rw [List.foldlM_cons]
    exact (each state item).bind fun value _ => ih value

end Except
