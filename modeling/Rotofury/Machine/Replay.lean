import Rotofury.ToMathlib.ExceptBind

/-! # Replaying events with rollback

A replicated state machine applies a list of events one after another. An event that fails leaves
the state as it was: its writes are discarded. `replay` is that run, and `replay_invariant` is the
one induction behind every safety result: what each successful event preserves holds after every run.
-/

namespace Machine

variable {σ ε φ : Type}

/-- One event with rollback on failure. -/
def advance (step : σ → ε → Except φ σ) (state : σ) (event : ε) : σ :=
  match step state event with
  | .ok next => next
  | .error _ => state

/-- A run: the events in order, each rolled back when it fails. -/
def replay (step : σ → ε → Except φ σ) (state : σ) (events : List ε) : σ :=
  events.foldl (advance step) state

section

variable (step : σ → ε → Except φ σ)
include step

variable (state : σ)
include state

@[simp]
theorem replay_nil : replay step state [] = state := rfl

@[simp]
theorem replay_cons (event : ε) (events : List ε) :
    replay step state (event :: events) = replay step (advance step state event) events := rfl

theorem replay_append (first second : List ε) :
    replay step state (first ++ second) = replay step (replay step state first) second :=
  List.foldl_append ..

theorem replay_concat (events : List ε) (event : ε) :
    replay step state (events ++ [event]) = advance step (replay step state events) event := by
  rw [replay_append]
  rfl

/-- An event either takes its successful step or changes nothing. -/
theorem advance_cases (event : ε) :
    step state event = .ok (advance step state event) ∨ advance step state event = state := by
  unfold advance
  split
  · next ok => exact .inl ok
  · exact .inr rfl

end

theorem advance_of_ok {step : σ → ε → Except φ σ} {state next : σ} {event : ε}
    (ok : step state event = .ok next) : advance step state event = next := by
  simp only [advance, ok]

/-- What every admitted successful step preserves holds after every run of admitted events. -/
theorem replay_invariant {step : σ → ε → Except φ σ} (Invariant : σ → Prop) (Admitted : ε → Prop)
    (preserved : ∀ state event next, Invariant state → Admitted event →
      step state event = .ok next → Invariant next)
    {state : σ} (initial : Invariant state) {events : List ε} (admitted : ∀ event ∈ events, Admitted event) :
    Invariant (replay step state events) := by
  induction events generalizing state with
  | nil => exact initial
  | cons event rest ih =>
    obtain ⟨head, tail⟩ := List.forall_mem_cons.mp admitted
    refine ih ?_ tail
    rcases advance_cases step state event with ok | unchanged
    · exact preserved _ _ _ initial head ok
    · rwa [unchanged]

/-- What every successful step preserves holds after every run. -/
theorem replay_always {step : σ → ε → Except φ σ} (Invariant : σ → Prop)
    (preserved : ∀ state event next, Invariant state → step state event = .ok next → Invariant next)
    {state : σ} (initial : Invariant state) (events : List ε) : Invariant (replay step state events) :=
  replay_invariant Invariant (fun _ => True) (fun state event next held _ => preserved state event next held)
    initial (fun _ _ => trivial)

/-- Every event of a run meets a condition in the state it finds. -/
def Throughout (step : σ → ε → Except φ σ) (Condition : σ → ε → Prop) (state : σ) (events : List ε) : Prop :=
  ∀ before event after, events = before ++ event :: after → Condition (replay step state before) event

theorem throughout_nil (step : σ → ε → Except φ σ) (Condition : σ → ε → Prop) (state : σ) :
    Throughout step Condition state [] := by
  intro before event after split
  simp at split

theorem throughout_cons {step : σ → ε → Except φ σ} {Condition : σ → ε → Prop} {state : σ} {event : ε} {events : List ε}
    (head : Condition state event) (tail : Throughout step Condition (advance step state event) events) :
    Throughout step Condition state (event :: events) := by
  intro before other after split
  cases before with
  | nil =>
    cases split
    exact head
  | cons first before =>
    cases split
    exact tail before other after rfl

/-- A condition on the last event of a run comes after those on the events before it. -/
theorem throughout_concat {step : σ → ε → Except φ σ} {Condition : σ → ε → Prop} {state : σ} {events : List ε}
    {event : ε} : Throughout step Condition state (events ++ [event]) ↔
      Throughout step Condition state events ∧ Condition (replay step state events) event := by
  constructor
  · intro met
    exact ⟨fun before other after split => met before other (after ++ [event]) (by simp [split]),
      met events event [] rfl⟩
  · rintro ⟨met, last⟩ before other after split
    rcases List.eq_nil_or_concat after with rfl | ⟨front, final, rfl⟩
    · obtain ⟨rfl, same⟩ := List.append_inj' split rfl
      cases same
      exact last
    · rw [List.concat_eq_append, ← List.cons_append, ← List.append_assoc] at split
      obtain ⟨inside, _⟩ := List.append_inj' split rfl
      exact met before other front inside

/-- An invariant of the steps that meet a condition holds after every run that meets it throughout. -/
theorem replay_throughout {step : σ → ε → Except φ σ} (Invariant : σ → Prop) (Condition : σ → ε → Prop)
    (preserved : ∀ state event next, Invariant state → Condition state event →
      step state event = .ok next → Invariant next)
    {state : σ} (initial : Invariant state) {events : List ε} (met : Throughout step Condition state events) :
    Invariant (replay step state events) := by
  induction events using List.reverseRecOn with
  | nil => exact initial
  | append_singleton before event ih =>
    obtain ⟨metBefore, metLast⟩ := throughout_concat.mp met
    have held := ih metBefore
    rw [replay_concat]
    rcases advance_cases step (replay step state before) event with ok | same
    · exact preserved _ event _ held metLast ok
    · rw [same]
      exact held

/-- A quantity that every step raises by something nonnegative is back at zero only if every step has raised
it by nothing. -/
theorem replay_eq_zero_iff {step : σ → ε → Except φ σ} (Invariant : σ → Prop) (Condition : σ → ε → Prop)
    (quantity : σ → ℤ) (gain : σ → ε → ℤ)
    (preserved : ∀ state event, Invariant state → Condition state event →
      Invariant (advance step state event) ∧ 0 ≤ gain state event ∧
        quantity (advance step state event) = quantity state + gain state event)
    {state : σ} (initial : Invariant state) (zero : quantity state = 0) {events : List ε}
    (met : Throughout step Condition state events) :
    quantity (replay step state events) = 0 ↔ Throughout step (fun state event => gain state event = 0) state events := by
  -- the invariant and the sign of the quantity are carried along
  suffices carried : Invariant (replay step state events) ∧ 0 ≤ quantity (replay step state events) ∧
      (quantity (replay step state events) = 0 ↔
        Throughout step (fun state event => gain state event = 0) state events) from carried.2.2
  induction events using List.reverseRecOn with
  | nil => exact ⟨initial, zero.ge, iff_of_true zero (throughout_nil step _ state)⟩
  | append_singleton before event ih =>
    obtain ⟨metBefore, metLast⟩ := throughout_concat.mp met
    obtain ⟨held, nonneg, same⟩ := ih metBefore
    obtain ⟨kept, gained, sum⟩ := preserved _ event held metLast
    rw [replay_concat, throughout_concat, ← same, sum]
    refine ⟨kept, by omega, ?_⟩
    constructor
    · intro total
      omega
    · rintro ⟨noQuantity, noGain⟩
      omega

/-- The event finds a state in which it does not fail. -/
def Succeeds (step : σ → ε → Except φ σ) (state : σ) (event : ε) : Prop := ∃ next, step state event = .ok next

/-- Where a condition says exactly when an admitted step keeps an invariant, a run of admitted events keeps it throughout
exactly when every step that is taken meets the condition. -/
theorem replay_exact_of {step : σ → ε → Except φ σ} (Invariant : σ → Prop) (Admitted : ε → Prop) (Condition : σ → ε → Prop)
    (exact : ∀ state event next, Invariant state → Admitted event → step state event = .ok next →
      (Invariant next ↔ Condition state event))
    {state : σ} (initial : Invariant state) {events : List ε} (admitted : ∀ event ∈ events, Admitted event) :
    (∀ before after, events = before ++ after → Invariant (replay step state before)) ↔
      Throughout step (fun state event => Succeeds step state event → Condition state event) state events := by
  constructor
  · rintro always before event after split ⟨next, ok⟩
    have held := always before (event :: after) split
    have kept := always (before ++ [event]) after (by simp [split])
    rw [replay_concat, advance_of_ok ok] at kept
    exact (exact _ event next held (admitted event (by simp [split])) ok).mp kept
  · intro met before after split
    induction before using List.reverseRecOn generalizing after with
    | nil => exact initial
    | append_singleton before event ih =>
      rw [List.append_assoc] at split
      have held := ih _ split
      rw [replay_concat]
      rcases advance_cases step (replay step state before) event with ok | same
      · have condition := met before event after split ⟨_, ok⟩
        exact (exact _ event _ held (admitted event (by simp [split])) ok).mpr condition
      · rw [same]
        exact held

/-- The same where every event is admitted. -/
theorem replay_exact {step : σ → ε → Except φ σ} (Invariant : σ → Prop) (Condition : σ → ε → Prop)
    (exact : ∀ state event next, Invariant state → step state event = .ok next → (Invariant next ↔ Condition state event))
    {state : σ} (initial : Invariant state) (events : List ε) :
    (∀ before after, events = before ++ after → Invariant (replay step state before)) ↔
      Throughout step (fun state event => Succeeds step state event → Condition state event) state events :=
  replay_exact_of Invariant (fun _ => True) Condition (fun state event next held _ => exact state event next held) initial
    fun _ _ => trivial

/-- A run without rollback is one in which every event succeeds. -/
theorem throughout_succeeds {step : σ → ε → Except φ σ} {state final : σ} {events : List ε}
    (ok : events.foldlM step state = .ok final) : Throughout step (Succeeds step) state events := by
  induction events generalizing state with
  | nil => exact throughout_nil step _ state
  | cons event rest ih =>
    rw [List.foldlM_cons, Except.bind_ok_iff] at ok
    obtain ⟨next, first, ok⟩ := ok
    refine throughout_cons ⟨next, first⟩ ?_
    rw [advance_of_ok first]
    exact ih ok

/-- Events in the order of their times. -/
def Chronological (clock : ε → ℕ) (events : List ε) : Prop :=
  events.Pairwise fun earlier later => clock earlier ≤ clock later

/-- The events before one that a chronological run reaches are no later than it. -/
theorem Chronological.before {clock : ε → ℕ} {events before after : List ε} {event : ε}
    (chronological : Chronological clock events) (split : events = before ++ event :: after) :
    Chronological clock before ∧ ∀ earlier ∈ before, clock earlier ≤ clock event := by
  rw [split] at chronological
  obtain ⟨ordered, _, sooner⟩ := List.pairwise_append.mp chronological
  exact ⟨ordered, fun earlier inside => sooner earlier inside event (by simp)⟩

/-- An invariant that may depend on the time: it survives waiting, and every successful step at the event's time that
meets the condition. -/
theorem replay_ordered_throughout {τ : Type} [Preorder τ] {step : σ → ε → Except φ σ} (clock : ε → τ)
    (Invariant : τ → σ → Prop) (Condition : σ → ε → Prop)
    (waiting : ∀ now later state, now ≤ later → Invariant now state → Invariant later state)
    (preserved : ∀ state event next, Invariant (clock event) state → Condition state event →
      step state event = .ok next → Invariant (clock event) next)
    {state : σ} (initial : ∀ now, Invariant now state) {events : List ε}
    (ordered : events.Pairwise fun earlier later => clock earlier ≤ clock later)
    (met : Throughout step Condition state events) {now : τ} (elapsed : ∀ event ∈ events, clock event ≤ now) :
    Invariant now (replay step state events) := by
  induction events using List.reverseRecOn generalizing now with
  | nil => exact initial now
  | append_singleton before event ih =>
    obtain ⟨ordered, _, sooner⟩ := List.pairwise_append.mp ordered
    obtain ⟨metBefore, metLast⟩ := throughout_concat.mp met
    have reached : Invariant (clock event) (replay step state before) :=
      ih ordered metBefore (fun earlier inside => sooner earlier inside event (by simp))
    apply waiting (clock event) now _ (elapsed event (by simp))
    rw [replay_concat]
    rcases advance_cases step (replay step state before) event with ok | unchanged
    · exact preserved _ _ _ reached metLast ok
    · rwa [unchanged]

/-- The same for a condition on the events alone. -/
theorem replay_ordered {τ : Type} [Preorder τ] {step : σ → ε → Except φ σ} (clock : ε → τ) (Invariant : τ → σ → Prop)
    (Admitted : ε → Prop) (waiting : ∀ now later state, now ≤ later → Invariant now state → Invariant later state)
    (preserved : ∀ state event next, Invariant (clock event) state → Admitted event →
      step state event = .ok next → Invariant (clock event) next)
    {state : σ} (initial : ∀ now, Invariant now state) {events : List ε}
    (ordered : events.Pairwise fun earlier later => clock earlier ≤ clock later)
    (admitted : ∀ event ∈ events, Admitted event) {now : τ} (elapsed : ∀ event ∈ events, clock event ≤ now) :
    Invariant now (replay step state events) :=
  replay_ordered_throughout clock Invariant (fun _ event => Admitted event) waiting preserved initial ordered
    (fun _ event _ split => admitted event (by simp [split])) elapsed

/-- The same for a run that starts at time zero. -/
theorem replay_clocked {step : σ → ε → Except φ σ} (clock : ε → ℕ) (Invariant : ℕ → σ → Prop)
    (Admitted : ε → Prop) (waiting : ∀ now later state, now ≤ later → Invariant now state → Invariant later state)
    (preserved : ∀ state event next, Invariant (clock event) state → Admitted event →
      step state event = .ok next → Invariant (clock event) next)
    {state : σ} (initial : Invariant 0 state) {events : List ε} (chronological : Chronological clock events)
    (admitted : ∀ event ∈ events, Admitted event) {now : ℕ} (elapsed : ∀ event ∈ events, clock event ≤ now) :
    Invariant now (replay step state events) :=
  replay_ordered clock Invariant Admitted waiting preserved (fun now => waiting 0 now _ (Nat.zero_le now) initial)
    chronological admitted elapsed

/-! ## Matching computations

Two fallible computations match when both fail with the same fault or both succeed with related results. Matching is kept by
sequencing, so two runs whose steps match step by step stay related, and nothing that is asked of related states tells
them apart.
-/

section

variable {σ τ ε φ ι α β γ δ : Type}

/-- Both fail with the same fault, or both succeed with related results. -/
inductive Matches (Related : α → β → Prop) : Except φ α → Except φ β → Prop where
  | ok {left : α} {right : β} (related : Related left right) : Matches Related (.ok left) (.ok right)
  | error (fault : φ) : Matches Related (.error fault) (.error fault)

namespace Matches

variable {Related : α → β → Prop} {first : Except φ α} {second : Except φ β}

section

variable (matching : Matches Related first second)
include matching

theorem error_iff (fault : φ) : first = .error fault ↔ second = .error fault := by
  cases matching with
  | ok related => simp
  | error other => simp

theorem bind {Next : γ → δ → Prop} {rest : α → Except φ γ} {other : β → Except φ δ}
    (continues : ∀ left right, Related left right → Matches Next (rest left) (other right)) :
    Matches Next (first >>= rest) (second >>= other) := by
  cases matching with
  | ok related => exact continues _ _ related
  | error fault => exact .error fault

theorem map {Next : γ → δ → Prop} {rest : α → γ} {other : β → δ}
    (continues : ∀ left right, Related left right → Next (rest left) (other right)) :
    Matches Next (rest <$> first) (other <$> second) := by
  cases matching with
  | ok related => exact .ok (continues _ _ related)
  | error fault => exact .error fault

end

/-- A computation that both make. -/
theorem of_eq {common other : Except φ α} (same : common = other) : Matches Eq common other := by
  subst same
  cases common with
  | ok value => exact .ok rfl
  | error fault => exact .error fault

end Matches

/-- Asked anything, before and after any events, two states answer the same, and what fails in one fails in the other. -/
def Indistinguishable (step : σ → ε → Except φ σ) (answer : σ → ι → α) (first second : σ) : Prop :=
  ∀ events, (∀ query, answer (replay step first events) query = answer (replay step second events) query) ∧
    ∀ event fault, step (replay step first events) event = .error fault ↔
      step (replay step second events) event = .error fault

section Simulation

variable {step : σ → ε → Except φ σ} {Related : σ → σ → Prop}

variable (steps : ∀ first second event, Related first second → Matches Related (step first event) (step second event))
include steps

theorem advance_related {first second : σ} (related : Related first second) (event : ε) :
    Related (advance step first event) (advance step second event) := by
  have matching := steps first second event related
  unfold advance
  generalize step first event = left at matching ⊢
  generalize step second event = right at matching ⊢
  cases matching with
  | ok next => exact next
  | error fault => exact related

theorem replay_related {first second : σ} (related : Related first second) (events : List ε) :
    Related (replay step first events) (replay step second events) := by
  induction events generalizing first second with
  | nil => exact related
  | cons event rest ih => exact ih (advance_related steps related event)

/-- States that a simulation relates and that answer alike are indistinguishable. -/
theorem Indistinguishable.of_related {answer : σ → ι → α}
    (answers : ∀ first second query, Related first second → answer first query = answer second query) {first second : σ}
    (related : Related first second) : Indistinguishable step answer first second := by
  intro events
  have reached := replay_related steps related events
  exact ⟨fun query => answers _ _ query reached, fun event fault => (steps _ _ event reached).error_iff fault⟩

end Simulation

end

end Machine
