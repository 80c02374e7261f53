import Rotofury.ToMathlib.ExceptBind

/-! # Loops that can fail

What a loop in `Except` keeps or adds up follows from one turn of it, and a loop that fails does so at one place.
-/

namespace Except

variable {ε α β : Type} {body : β → α → Except ε β}

theorem foldlM_cons_ok_iff {item : α} {rest : List α} {start final : β} :
    (item :: rest).foldlM body start = .ok final ↔
      ∃ next, body start item = .ok next ∧ rest.foldlM body next = .ok final := by
  rw [List.foldlM_cons, bind_ok_iff]

/-- What every turn keeps, the loop keeps. -/
theorem foldlM_invariant (invariant : β → Prop) {items : List α} {start final : β} (initially : invariant start)
    (turn : ∀ before item after, item ∈ items → invariant before → body before item = .ok after → invariant after)
    (ok : items.foldlM body start = .ok final) : invariant final := by
  induction items generalizing start with
  | nil =>
    cases ok
    exact initially
  | cons item rest ih =>
    obtain ⟨next, first, later⟩ := foldlM_cons_ok_iff.mp ok
    apply ih (turn start item next (by simp) initially first) _ later
    intro before other after inside
    exact turn before other after (List.mem_cons_of_mem item inside)

/-- A quantity that every turn changes by an amount of its own has changed by their sum. -/
theorem foldlM_total (quantity : β → ℤ) (change : α → ℤ) {items : List α} {start final : β}
    (turn : ∀ before item after, body before item = .ok after → quantity after = quantity before + change item)
    (ok : items.foldlM body start = .ok final) :
    quantity final = quantity start + (items.map change).sum := by
  induction items generalizing start with
  | nil =>
    cases ok
    simp
  | cons item rest ih =>
    obtain ⟨next, first, later⟩ := foldlM_cons_ok_iff.mp ok
    rw [ih later, turn start item next first, List.map_cons, List.sum_cons]
    ring

/-- A loop that reaches a turn and fails there does not get beyond it. -/
theorem foldlM_append_cons_ne_ok {before after : List α} {item : α} {start reached final : β} {fault : ε}
    (reaches : before.foldlM body start = .ok reached) (fails : body reached item = .error fault) :
    (before ++ item :: after).foldlM body start ≠ .ok final := by
  intro ok
  rw [List.foldlM_append, bind_ok_iff] at ok
  obtain ⟨middle, same, rest⟩ := ok
  obtain rfl : reached = middle := Except.ok.inj (reaches.symm.trans same)
  obtain ⟨next, first, _⟩ := foldlM_cons_ok_iff.mp rest
  rw [fails] at first
  cases first

/-- There is one turn at which a loop fails. -/
theorem foldlM_stop_unique {before after other rest : List α} {item last : α} {start reached left : β} {fault reason : ε}
    (same : before ++ item :: after = other ++ last :: rest)
    (reaches : before.foldlM body start = .ok reached) (fails : body reached item = .error fault)
    (arrives : other.foldlM body start = .ok left) (stops : body left last = .error reason) :
    before = other ∧ item = last := by
  rcases List.append_eq_append_iff.mp same with ⟨middle, longer, tail⟩ | ⟨middle, longer, tail⟩
  · cases middle with
    | nil => simp_all
    | cons head middle =>
      obtain ⟨rfl, _⟩ := List.cons.inj tail
      exact absurd (longer ▸ arrives) (foldlM_append_cons_ne_ok reaches fails)
  · cases middle with
    | nil => simp_all
    | cons head middle =>
      obtain ⟨rfl, _⟩ := List.cons.inj tail
      exact absurd (longer ▸ reaches) (foldlM_append_cons_ne_ok arrives stops)

/-! ## Loops in any order

A loop over a map visits the entries in an order that differs from run to run. Where any two turns can be swapped, the
order is of no consequence: the loop succeeds in all orders, with one result, or in none.
-/

section

variable {ε α β : Type}

/-- Two turns that succeed one after the other do so the other way round, with the same result. -/
def Swaps (invariant : β → Prop) (body : β → α → Except ε β) (first second : α) : Prop :=
  ∀ before middle after, invariant before → body before first = .ok middle → body middle second = .ok after →
    ∃ other, body before second = .ok other ∧ body other first = .ok after

/-- Both ways. -/
def Commutes (invariant : β → Prop) (body : β → α → Except ε β) (first second : α) : Prop :=
  Swaps invariant body first second ∧ Swaps invariant body second first

variable {invariant : β → Prop} {body : β → α → Except ε β}

theorem Commutes.symm {first second : α} (both : Commutes invariant body first second) : Commutes invariant body second first :=
  And.symm both

variable (keeps : ∀ before item after, invariant before → body before item = .ok after → invariant after)
include keeps

private theorem foldlM_perm_ok {items others : List α} (perm : items.Perm others)
    (commutes : items.Pairwise (Commutes invariant body)) {start final : β} (initially : invariant start)
    (ok : items.foldlM body start = .ok final) : others.foldlM body start = .ok final := by
  induction perm generalizing start with
  | nil => exact ok
  | cons item _ ih =>
    obtain ⟨next, first, later⟩ := foldlM_cons_ok_iff.mp ok
    refine foldlM_cons_ok_iff.mpr ⟨next, first, ?_⟩
    exact ih (List.pairwise_cons.mp commutes).2 (keeps start item next initially first) later
  | swap second first rest =>
    obtain ⟨middle, one, later⟩ := foldlM_cons_ok_iff.mp ok
    obtain ⟨next, two, later⟩ := foldlM_cons_ok_iff.mp later
    have swaps := ((List.pairwise_cons.mp commutes).1 second (by simp)).1
    obtain ⟨other, two, one⟩ := swaps start middle next initially one two
    exact foldlM_cons_ok_iff.mpr ⟨other, two, foldlM_cons_ok_iff.mpr ⟨next, one, later⟩⟩
  | trans first _ ihFirst ihSecond =>
    exact ihSecond ((first.pairwise_iff Commutes.symm).mp commutes) initially (ihFirst commutes initially ok)

/-- A loop whose turns commute has one result in all orders. -/
theorem foldlM_perm {items others : List α} (perm : items.Perm others)
    (commutes : items.Pairwise (Commutes invariant body)) {start final : β} (initially : invariant start) :
    items.foldlM body start = .ok final ↔ others.foldlM body start = .ok final := by
  have commutes' := (perm.pairwise_iff Commutes.symm).mp commutes
  exact ⟨foldlM_perm_ok keeps perm commutes initially, foldlM_perm_ok keeps perm.symm commutes' initially⟩

end

end Except
