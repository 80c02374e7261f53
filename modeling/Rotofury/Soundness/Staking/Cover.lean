import Rotofury.Machine.Replay
import Rotofury.Soundness.Staking.Balance

/-! # Unbonding entries that cover what their ves have

A slash of an unbonding entry takes the whole slash off the entry and, since the new balances of the ves are lost, nothing
off what the ves have in it. So an entry stays covered exactly as long as the slashes fit into the coins beside the ves.
-/

namespace Rotofury.Soundness.Staking

open Model.Sdk Model.App Model.Staking Except Machine

/-- Every unbonding entry holds at least what the ves have in the entry at the same index. -/
def Covered (state : State) : Prop :=
  ∀ delAddr valAddr, OnRecord state delAddr valAddr fun pairs => ∀ pair ∈ pairs, 0 ≤ unconstrainedBalance pair

/-- No entry is slashed by more than it holds beside the ves. -/
def SparesVes (state : State) (event : UnbondingSlash) : Prop :=
  OnRecord state event.delAddr event.valAddr fun pairs => ∀ pair ∈ pairs,
    pair.1.slashable event.ctx event.infractionHeight →
      unbondingSlashAmount event.slashFactor pair.1 ≤ unconstrainedBalance pair

theorem unconstrainedBalance_slashed (ctx : Ctx) (infractionHeight : ℤ) (slashFactor : Dec) (pair : UnbondingPair) :
    unconstrainedBalance (slashedEntry ctx infractionHeight slashFactor pair.1, pair.2) = unconstrainedBalance pair -
      if pair.1.slashable ctx infractionHeight then unbondingSlashAmount slashFactor pair.1 else 0 := by
  unfold unconstrainedBalance slashedEntry
  split
  · ring
  · ring

section Slash

variable {ctx : Ctx} {state next middle : State} {delAddr valAddr : Address} {ubd : List UnbondingDelegationEntry}
  {infractionHeight : ℤ} {slashFactor : Dec} {veUbd : List VeUnbondingDelegationEntry}

/-- A slash of a record on the store replaces it and leaves the others, and all shadows. -/
theorem SlashUnbondingParts.lookup
    (parts : SlashUnbondingParts ctx state delAddr valAddr ubd infractionHeight slashFactor next veUbd middle)
    (found : state.entries.unbondingDelegations.lookup (delAddr, valAddr) = some ubd) (query : DvPair) :
    next.entries.unbondingDelegations.lookup query = (if query = (delAddr, valAddr) then
        some (ubd.map (slashedEntry ctx infractionHeight slashFactor))
      else state.entries.unbondingDelegations.lookup query) ∧
      next.entries.veUnbondingDelegations = state.entries.veUnbondingDelegations := by
  rw [parts.burned.entries, parts.entries]
  refine ⟨?_, rfl⟩
  dsimp only
  split
  · next same =>
    rw [same]
    split
    · next here => rw [here, found]
    · rfl
  · exact AList.lookup_insert_eq_ite ..

theorem covered_slash_iff (covered : Covered state) {event : UnbondingSlash}
    (ok : event.step state = .ok next) : Covered next ↔ SparesVes state event := by
  unfold UnbondingSlash.step slashStoredUnbonding at ok
  split at ok
  · next none =>
    cases ok
    refine iff_of_true covered fun ubd veUbd found => ?_
    rw [none] at found
    cases found
  · next ubd found =>
    obtain ⟨⟨_, amount⟩, slashed, rfl⟩ := map_ok_iff.mp ok
    obtain ⟨veUbd, middle, parts⟩ := slashUnbondingDelegation_ok slashed
    have shadows := (parts.lookup found (event.delAddr, event.valAddr)).2
    have before := (onRecord_iff found parts.shadow).mp (covered event.delAddr event.valAddr)
    have slashedRecord := (parts.lookup found (event.delAddr, event.valAddr)).1.trans (if_pos rfl)
    have here : OnRecord _ event.delAddr event.valAddr (fun pairs => ∀ pair ∈ pairs, 0 ≤ unconstrainedBalance pair) ↔ _ :=
      onRecord_iff slashedRecord (shadows ▸ parts.shadow)
    rw [List.zip_map_left, List.forall_mem_map] at here
    rw [SparesVes, onRecord_iff found parts.shadow]
    constructor
    · intro after pair inside slashable
      have left := here.mp (after event.delAddr event.valAddr) pair inside
      rw [Prod.map, id, unconstrainedBalance_slashed, if_pos slashable] at left
      omega
    · intro spared delAddr valAddr
      by_cases same : (delAddr, valAddr) = (event.delAddr, event.valAddr)
      · obtain ⟨rfl, rfl⟩ := Prod.mk.inj same
        refine here.mpr fun pair inside => ?_
        have held := before pair inside
        rw [Prod.map, id, unconstrainedBalance_slashed]
        split
        · next slashable =>
          have fits := spared pair inside slashable
          omega
        · omega
      · intro record shadow foundRecord foundShadow
        rw [(parts.lookup found _).1, if_neg same] at foundRecord
        rw [shadows] at foundShadow
        exact covered delAddr valAddr record shadow foundRecord foundShadow

end Slash

section Complete

/-- The panic of `CompleteUnbonding`, for an entry that is not covered and for a record without its shadow. -/
def inconsistent : Fault := .panic "inconsistent ve unbonding delegation"

theorem completeEntries_avoids_inconsistent {ctx : Ctx} {delAddr : Address} {pairs : List UnbondingPair}
    (covered : ∀ pair ∈ pairs, 0 ≤ unconstrainedBalance pair) (state : State) :
    Avoids inconsistent (completeEntries ctx delAddr state pairs) := by
  induction pairs generalizing state with
  | nil => exact avoids_ok _ _
  | cons pair rest ih =>
    obtain ⟨here, later⟩ := List.forall_mem_cons.mp covered
    unfold completeEntries
    split
    · refine Avoids.bind (avoids_require.mpr fun _ => here) fun _ _ => ?_
      split
      · exact avoids_pure _ _
      · refine (newCoin_avoids (by decide) _ _).bind fun _ _ => ?_
        exact (ih later _).bind fun _ _ => avoids_pure _ _
    · exact (ih later _).bind fun _ _ => avoids_pure _ _

/-- From a covered state, completing panics over nothing but a missing shadow. -/
theorem completeUnbonding_avoids_inconsistent {state : State} (covered : Covered state) (ctx : Ctx) {delAddr valAddr : Address}
    (aligned : ∀ ubd, state.entries.unbondingDelegations.lookup (delAddr, valAddr) = some ubd →
      ∃ veUbd, state.entries.veUnbondingDelegations.lookup (delAddr, valAddr) = some veUbd ∧ veUbd.length = ubd.length) :
    Avoids inconsistent (completeUnbonding ctx state delAddr valAddr) := by
  unfold completeUnbonding
  split
  · exact avoids_ok _ _
  · next ubd found =>
    obtain ⟨veUbd, shadow, same⟩ := aligned ubd found
    have present : shadowOf state.entries.veUnbondingDelegations (delAddr, valAddr) ubd
        "inconsistent ve unbonding delegation" = .ok veUbd := by
      simp only [shadowOf, shadow, require, if_pos same]
      rfl
    rw [present, ok_bind]
    refine (completeEntries_avoids_inconsistent (covered delAddr valAddr ubd veUbd found shadow) state).bind
      fun completed _ => ?_
    rcases completed with ⟨reached, fault | ⟨kept, balances⟩⟩ <;> exact avoids_pure _ _

end Complete

/-- Slashes leave every entry covered, all along, exactly when each of them fits into the coins beside the ves; and as
long as the entries are covered no completion panics over them. -/
theorem slashes_cover_iff {state : State} (covered : Covered state) (events : List UnbondingSlash) :
    ((∀ before after, events = before ++ after → Covered (replay UnbondingSlash.step state before)) ↔
      Throughout UnbondingSlash.step
        (fun state event => Succeeds UnbondingSlash.step state event → SparesVes state event) state events) ∧
      ∀ reached, Covered reached → ∀ (ctx : Ctx) (delAddr valAddr : Address),
        (∀ ubd, reached.entries.unbondingDelegations.lookup (delAddr, valAddr) = some ubd →
          ∃ veUbd, reached.entries.veUnbondingDelegations.lookup (delAddr, valAddr) = some veUbd ∧
            veUbd.length = ubd.length) →
        Avoids inconsistent (completeUnbonding ctx reached delAddr valAddr) := by
  refine ⟨replay_exact Covered SparesVes (fun _ _ _ covered success => covered_slash_iff covered success) covered
    events, fun reached covered ctx delAddr valAddr aligned => ?_⟩
  exact completeUnbonding_avoids_inconsistent covered ctx aligned

/-- A slash of the entry of `sampleSlash` by one half. -/
def sampleHalf : UnbondingSlash := ⟨sampleCtx, 1, 9, 5, ⟨5 * 10 ^ 17⟩⟩

theorem sampleSlash_covered {balance : ℕ} (within : balance ≤ 10) : Covered (sampleSlash balance) := by
  intro delAddr valAddr ubd veUbd found shadow
  obtain ⟨rfl, rfl⟩ : delAddr = 1 ∧ valAddr = 9 := by
    have inside := AList.lookup_isSome.mp (Option.isSome_of_eq_some found)
    simpa [sampleSlash, AList.singleton] using inside
  cases found
  cases shadow
  simpa [unconstrainedBalance, VeUnbondingDelegationEntry.balance] using within

/-- A ve has four of the ten coins, and the slash leaves five. -/
theorem slashes_cover_sample : Covered (replay UnbondingSlash.step (sampleSlash 4) [sampleHalf]) := by
  refine (slashes_cover_iff (sampleSlash_covered (by decide)) [sampleHalf]).1.mpr ?_ _ [] (List.append_nil _).symm
  refine throughout_cons (fun _ ubd veUbd found shadow => ?_) (throughout_nil _ _ _)
  cases found
  cases shadow
  decide +kernel

/-- A ve has eight of the ten coins; the slash leaves five, and the completion panics. -/
theorem slashed_entry_panics_sample :
    ∃ next, Covered (sampleSlash 8) ∧ sampleHalf.step (sampleSlash 8) = .ok next ∧ ¬ Covered next ∧
      completeUnbonding sampleMaturity next 1 9 = .error inconsistent := by
  have run : (fun next : State => (next.entries.unbondingDelegations.lookup (1, 9),
      next.entries.veUnbondingDelegations.lookup (1, 9), (fun _ => ()) <$> completeUnbonding sampleMaturity next 1 9)) <$>
        sampleHalf.step (sampleSlash 8) =
      .ok (some [⟨5, 150 * 10 ^ 9, 10, 5⟩], some [⟨[⟨1, 8, 8⟩]⟩], .error inconsistent) := by decide +kernel
  obtain ⟨next, success, reached⟩ := map_ok_iff.mp run
  simp only [Prod.mk.injEq] at reached
  obtain ⟨found, shadow, panics⟩ := reached
  refine ⟨next, sampleSlash_covered (by decide), success, fun covered => ?_, ?_⟩
  · have uncovered := covered 1 9 _ _ found shadow
    exact absurd uncovered (by decide)
  · rcases outcome : completeUnbonding sampleMaturity next 1 9 with fault | result
    · rw [outcome] at panics
      exact congrArg Except.error (Except.error.inj panics)
    · rw [outcome] at panics
      cases panics

end Rotofury.Soundness.Staking
