import Rotofury.ToMathlib.ExceptBind

/-! # Batches of patches

A keyed store of records is changed by patches. A patch names the key of its record, must fit the record, and its
result must be allowed. A handler realizes such rules when it fails on a patch that does not fit, refuses a result that
is not allowed, and otherwise writes the patched record and nothing else. `Realizes.batch` then says what a batch of
patches does that stops at its first failure.
-/

namespace Machine

variable {κ ρ σ τ φ : Type} [DecidableEq κ]

/-- Where a patch goes, what it makes of a record, which records it fits and which results are allowed. -/
structure Patching (κ ρ : Type) where
  key : ρ → κ
  patched : ρ → ρ → ρ
  Fits : ρ → ρ → Prop
  Allowed : ρ → ρ → Prop

namespace Patching

/-- Every patch fits the record it finds, up to the first one whose result is not allowed. -/
def Ready (rules : Patching κ ρ) : (κ → Option ρ) → List ρ → Prop
  | _, [] => True
  | records, patch :: rest => ∀ record, records (rules.key patch) = some record →
      rules.Fits record patch ∧
        (rules.Allowed record patch →
          rules.Ready (Function.update records (rules.key patch) (some (rules.patched record patch))) rest)

/-- What the patches of one key make of a record. -/
def outcome (rules : Patching κ ρ) (patches : List ρ) (key : κ) (record : ρ) : ρ :=
  (patches.filter fun patch => rules.key patch = key).foldl rules.patched record

theorem ready_cons_iff {rules : Patching κ ρ} {records : κ → Option ρ} {patch record : ρ} {rest : List ρ}
    (found : records (rules.key patch) = some record) :
    rules.Ready records (patch :: rest) ↔ rules.Fits record patch ∧
      (rules.Allowed record patch →
        rules.Ready (Function.update records (rules.key patch) (some (rules.patched record patch))) rest) := by
  rw [Ready]
  constructor
  · intro ready
    exact ready record found
  · intro ready other same
    cases found.symm.trans same
    exact ready

/-- Patching one record first and then the rest. -/
theorem map_outcome_cons {rules : Patching κ ρ} {records : κ → Option ρ} {patch record : ρ}
    (found : records (rules.key patch) = some record) (rest : List ρ) (key : κ) :
    (Function.update records (rules.key patch) (some (rules.patched record patch)) key).map (rules.outcome rest key) =
      (records key).map (rules.outcome (patch :: rest) key) := by
  by_cases same : rules.key patch = key
  · subst same
    rw [Function.update_self, found]
    simp [outcome]
  · rw [Function.update_of_ne (Ne.symm same)]
    congr 1
    funext record
    simp [outcome, same]

/-- A handler for one patch, on states with such records among other things. Only good records are looked at, and
patching keeps them good. -/
structure Realizes (rules : Patching κ ρ) (records : σ → κ → Option ρ) (other : σ → τ) (Good : κ → ρ → Prop)
    (Panics : φ → Prop) (set : σ → ρ → Except φ σ) : Prop where
  missing : ∀ state patch, records state (rules.key patch) = none → ∃ fault, ¬ Panics fault ∧ set state patch = .error fault
  misfit : ∀ state patch record, records state (rules.key patch) = some record →
    Good (rules.key patch) record → ¬ rules.Fits record patch → ∃ fault, Panics fault ∧ set state patch = .error fault
  refused : ∀ state patch record, records state (rules.key patch) = some record →
    Good (rules.key patch) record → rules.Fits record patch → ¬ rules.Allowed record patch →
      ∃ fault, ¬ Panics fault ∧ set state patch = .error fault
  written : ∀ state patch record, records state (rules.key patch) = some record →
    Good (rules.key patch) record → rules.Fits record patch → rules.Allowed record patch →
      Good (rules.key patch) (rules.patched record patch) ∧ ∃ next, set state patch = .ok next ∧ other next = other state ∧
        records next = Function.update (records state) (rules.key patch) (some (rules.patched record patch))

/-- What a batch that is ready comes to: an error of the last check, or the outcome for every key. -/
inductive BatchResult (rules : Patching κ ρ) (records : σ → κ → Option ρ) (other : σ → τ) (Good : κ → ρ → Prop)
    (Panics : φ → Prop) (state : σ) (patches : List ρ) : Except φ σ → Prop
  | refused {fault : φ} (orderly : ¬ Panics fault) :
      BatchResult rules records other Good Panics state patches (.error fault)
  | written {next : σ} (others : other next = other state)
      (outcomes : ∀ key, records next key = (records state key).map (rules.outcome patches key))
      (good : ∀ key record, records next key = some record → Good key record) :
      BatchResult rules records other Good Panics state patches (.ok next)

variable {rules : Patching κ ρ} {records : σ → κ → Option ρ} {other : σ → τ} {Good : κ → ρ → Prop} {Panics : φ → Prop}
  {set : σ → ρ → Except φ σ}

/-- The first patch of a batch is written before the rest. -/
theorem BatchResult.after {state next : σ} {patch record : ρ} {rest : List ρ} {result : Except φ σ}
    (later : BatchResult rules records other Good Panics next rest result)
    (found : records state (rules.key patch) = some record) (others : other next = other state)
    (updated : records next = Function.update (records state) (rules.key patch) (some (rules.patched record patch))) :
    BatchResult rules records other Good Panics state (patch :: rest) result := by
  cases later with
  | refused orderly => exact .refused orderly
  | written same outcomes good =>
    refine .written (same.trans others) (fun key => ?_) good
    rw [outcomes, updated, map_outcome_cons found]

/-- A batch panics exactly when it reaches a patch that does not fit its record. -/
theorem Realizes.batch (realizes : rules.Realizes records other Good Panics set) (patches : List ρ) {state : σ}
    (good : ∀ key record, records state key = some record → Good key record) :
    (rules.Ready (records state) patches →
      BatchResult rules records other Good Panics state patches (patches.foldlM set state)) ∧
    (¬ rules.Ready (records state) patches → ∃ fault, Panics fault ∧ patches.foldlM set state = .error fault) := by
  induction patches generalizing state with
  | nil =>
    refine ⟨fun _ => .written rfl (fun key => ?_) good, fun unready => absurd trivial unready⟩
    cases records state key <;> rfl
  | cons patch rest ih =>
    rw [List.foldlM_cons]
    cases found : records state (rules.key patch) with
    | none =>
      obtain ⟨fault, orderly, failed⟩ := realizes.missing state patch found
      rw [failed, Except.error_bind]
      refine ⟨fun _ => .refused orderly, fun unready => absurd ?_ unready⟩
      intro record present
      cases found.symm.trans present
    | some record =>
      have sound := good _ record found
      rw [ready_cons_iff found]
      by_cases fits : rules.Fits record patch
      · by_cases allowed : rules.Allowed record patch
        · -- the patch is written, and the rest of the batch goes on from there
          obtain ⟨kept, next, ok, others, updated⟩ := realizes.written state patch record found sound fits allowed
          rw [ok, Except.ok_bind, ← updated]
          have stillGood : ∀ key record, records next key = some record → Good key record := by
            intro key other stored
            rw [updated, Function.update_apply] at stored
            split at stored
            · next same =>
              cases stored
              exact same ▸ kept
            · exact good key other stored
          obtain ⟨ready, unready⟩ := ih stillGood
          exact ⟨fun fit => (ready (fit.2 allowed)).after found others updated,
            fun misfit => unready fun later => misfit ⟨fits, fun _ => later⟩⟩
        · obtain ⟨fault, orderly, failed⟩ := realizes.refused state patch record found sound fits allowed
          rw [failed, Except.error_bind]
          exact ⟨fun _ => .refused orderly, fun misfit => absurd ⟨fits, fun ok => absurd ok allowed⟩ misfit⟩
      · obtain ⟨fault, panics, failed⟩ := realizes.misfit state patch record found sound fits
        rw [failed, Except.error_bind]
        exact ⟨fun fit => absurd fit.1 fits, fun _ => ⟨fault, panics, rfl⟩⟩

end Patching

end Machine
