import Rotofury.Machine.Pairing
import Rotofury.Soundness.Staking.Cover

/-! # Records and their shadows stay in step

Every unbonding record and every redelegation record has a shadow with what the ves have in its entries. In every run from
a state without records the entries at one index of a record and of its shadow were made by one call, and the entries of a
record are in the order of the calls. So the checks of the lengths never fail.
-/

namespace Rotofury.Soundness.Staking

open Model.Sdk Model.App Model.Staking Except Function Machine

variable {start : State} {events : List RecordEvent} {call : ℕ} {delAddr valAddr valSrcAddr valDstAddr : Address}
  {shares slashFactor : Dec} {infractionHeight : ℤ}

section Lookup

variable {κ α : Type} [DecidableEq κ]

theorem lookup_storeEntries_update (records : AList fun _ : κ => List α) (key : κ) (record : List α) :
    (fun query => (storeEntries records key record).lookup query) =
      update (fun query => records.lookup query) key (stored record) := by
  funext query
  unfold storeEntries stored
  split
  · rw [update_apply]
    split
    · next same =>
      rw [same]
      exact AList.lookup_erase _ _
    · next different => exact AList.lookup_erase_ne different
  · exact congrFun (AList.lookup_insert_eq_update records key record) query

end Lookup

/-- The unbonding that the call with so many calls before it has made, and its shadow. A slash changes the balance of the
entry only. -/
def UnbondingMade (start : State) (events : List RecordEvent) (call : ℕ) (pair : DvPair) (entry : UnbondingDelegationEntry)
    (veEntry : VeUnbondingDelegationEntry) : Prop :=
  ∃ before ctx shares after middle amount veTokens,
    events = before ++ ⟨ctx, .undelegate pair.1 pair.2 shares⟩ :: after ∧ before.length = call ∧
      unbond ctx (replay RecordEvent.step start before) pair.1 pair.2 shares false = .ok (middle, amount, veTokens) ∧
      entry.creationHeight = ctx.ve.blockHeight ∧ entry.completionTime = ctx.headerTime + ctx.unbondingTime ∧
      entry.initialBalance = amount ∧ veEntry = veUnbondingEntry veTokens

/-- The redelegation that the call with so many calls before it has made, and its shadow. -/
def RedelegationMade (start : State) (events : List RecordEvent) (call : ℕ) (triplet : DvvTriplet) (entry : RedelegationEntry)
    (veEntry : VeRedelegationEntry) : Prop :=
  ∃ before ctx shares after middle amount veTokens,
    events = before ++ ⟨ctx, .beginRedelegation triplet.1 triplet.2.1 triplet.2.2 shares⟩ :: after ∧ before.length = call ∧
      unbond ctx (replay RecordEvent.step start before) triplet.1 triplet.2.1 shares true =
        .ok (middle, amount, veTokens) ∧
      entry.initialBalance = amount ∧
      Entries.veRedelegationEntry veTokens entry.initialBalance entry.sharesDst = .ok veEntry

theorem UnbondingMade.extend {pair : DvPair} {entry : UnbondingDelegationEntry} {veEntry : VeUnbondingDelegationEntry}
    (made : UnbondingMade start events call pair entry veEntry) (event : RecordEvent) :
    UnbondingMade start (events ++ [event]) call pair entry veEntry := by
  obtain ⟨before, ctx, shares, after, middle, amount, veTokens, rfl, rest⟩ := made
  exact ⟨before, ctx, shares, after ++ [event], middle, amount, veTokens, by simp, rest⟩

theorem RedelegationMade.extend {triplet : DvvTriplet} {entry : RedelegationEntry} {veEntry : VeRedelegationEntry}
    (made : RedelegationMade start events call triplet entry veEntry) (event : RecordEvent) :
    RedelegationMade start (events ++ [event]) call triplet entry veEntry := by
  obtain ⟨before, ctx, shares, after, middle, amount, veTokens, rfl, rest⟩ := made
  exact ⟨before, ctx, shares, after ++ [event], middle, amount, veTokens, by simp, rest⟩

/-- The unbonding records and their shadows are paired after a run. -/
def UnbondingPaired (start : State) (events : List RecordEvent) (entries : Entries) : Prop :=
  Paired (UnbondingMade start events) events.length (fun pair => entries.unbondingDelegations.lookup pair)
    fun pair => entries.veUnbondingDelegations.lookup pair

/-- The redelegation records and their shadows are paired after a run. -/
def RedelegationPaired (start : State) (events : List RecordEvent) (entries : Entries) : Prop :=
  Paired (RedelegationMade start events) events.length (fun triplet => entries.redelegations.lookup triplet)
    fun triplet => entries.veRedelegations.lookup triplet

/-- The four tables are paired after a run. -/
structure RecordsPaired (start : State) (events : List RecordEvent) (entries : Entries) : Prop where
  unbonding : UnbondingPaired start events entries
  redelegation : RedelegationPaired start events entries

section Steps

variable {start next : State} {events : List RecordEvent} {ctx : Ctx}

theorem RecordsPaired.extend {entries : Entries} (paired : RecordsPaired start events entries) (event : RecordEvent) :
    RecordsPaired start (events ++ [event]) entries where
  unbonding := Paired.mono paired.unbonding (by simp) fun _ _ _ _ made => made.extend event
  redelegation := Paired.mono paired.redelegation (by simp) fun _ _ _ _ made => made.extend event

section

variable (paired : RecordsPaired start events (replay RecordEvent.step start events).entries)
include paired

theorem undelegate_paired {completion : ℕ}
    (ok : undelegate ctx (replay RecordEvent.step start events) delAddr valAddr shares = .ok (next, completion)) :
    RecordsPaired start (events ++ [⟨ctx, .undelegate delAddr valAddr shares⟩]) next.entries := by
  obtain ⟨validator, middle, amount, veTokens, bank, entries, parts⟩ := undelegate_ok ok
  have written : next.entries = _ := (congrArg State.entries parts.reached).trans parts.added.written
  rw [(unbond_unbonded parts.unbonded).entries] at written
  have known := Paired.mono paired.unbonding le_rfl
    fun _ _ _ _ made => made.extend ⟨ctx, .undelegate delAddr valAddr shares⟩
  have origin : UnbondingMade start (events ++ [⟨ctx, .undelegate delAddr valAddr shares⟩]) events.length (delAddr, valAddr)
      ⟨ctx.ve.blockHeight, ctx.headerTime + ctx.unbondingTime, amount, amount⟩ (veUnbondingEntry veTokens) :=
    ⟨events, ctx, shares, [], middle, amount, veTokens, rfl, rfl, parts.unbonded, rfl, rfl, rfl, rfl⟩
  rw [written]
  refine ⟨?_, (paired.extend _).redelegation⟩
  rw [UnbondingPaired, List.length_append, List.length_singleton, AList.lookup_insert_eq_update, AList.lookup_insert_eq_update]
  exact known.append origin

theorem beginRedelegation_paired {completion : Option ℕ}
    (ok : beginRedelegation ctx (replay RecordEvent.step start events) delAddr valSrcAddr valDstAddr shares = .ok (next, completion)) :
    RecordsPaired start (events ++ [⟨ctx, .beginRedelegation delAddr valSrcAddr valDstAddr shares⟩]) next.entries := by
  obtain ⟨srcValidator, dstValidator, middle, amount, veTokens, delegated, newShares, parts⟩ :=
    beginRedelegation_ok ok
  have same := (veDelegate_entries parts.delegates).trans (unbond_unbonded parts.unbonded).entries
  rcases parts.reached with rfl | ⟨height, completion, veEntry, entries, shadow, added, rfl⟩
  · rw [same]
    exact paired.extend _
  · have written : entries = _ := added.written
    rw [same] at written
    have known := Paired.mono paired.redelegation le_rfl
      fun _ _ _ _ made => made.extend ⟨ctx, .beginRedelegation delAddr valSrcAddr valDstAddr shares⟩
    have origin : RedelegationMade start (events ++ [⟨ctx, .beginRedelegation delAddr valSrcAddr valDstAddr shares⟩])
        events.length (delAddr, valSrcAddr, valDstAddr) ⟨height, completion, amount, ⟨newShares⟩⟩ veEntry :=
      ⟨events, ctx, shares, [], middle, amount, veTokens, rfl, rfl, parts.unbonded, rfl, shadow⟩
    rw [written]
    refine ⟨(paired.extend _).unbonding, ?_⟩
    rw [RedelegationPaired, List.length_append, List.length_singleton, AList.lookup_insert_eq_update, AList.lookup_insert_eq_update]
    exact known.append origin

end

variable {state : State} (paired : RecordsPaired start events state.entries)

include paired

theorem slashUnbonding_paired
    (ok : slashStoredUnbonding ctx state delAddr valAddr infractionHeight slashFactor = .ok next) :
    RecordsPaired start events next.entries := by
  unfold slashStoredUnbonding at ok
  split at ok
  · cases ok
    exact paired
  · next ubd found =>
    obtain ⟨⟨_, amount⟩, slashed, rfl⟩ := map_ok_iff.mp ok
    obtain ⟨veUbd, middle, parts⟩ := slashUnbondingDelegation_ok slashed
    -- a slash keeps everything about an entry but its balance
    have still : ∀ call entry veEntry, UnbondingMade start events call (delAddr, valAddr) entry veEntry →
        UnbondingMade start events call (delAddr, valAddr) (slashedEntry ctx infractionHeight slashFactor entry) veEntry := by
      rintro call entry veEntry ⟨before, ctx', shares, after, middle, amount, veTokens, run, rest⟩
      refine ⟨before, ctx', shares, after, middle, amount, veTokens, run, ?_⟩
      unfold slashedEntry
      split <;> exact rest
    have revised := Paired.revise paired.unbonding found _ still
    constructor
    · rw [UnbondingPaired, (parts.lookup found (delAddr, valAddr)).2]
      convert revised using 1
      funext query
      rw [(parts.lookup found query).1, update_apply]
    · rw [parts.burned.entries, parts.entries]
      exact paired.redelegation

/-- A slash of a redelegation writes no record. -/
theorem slashRedelegation_paired
    (ok : slashStoredRedelegation ctx state delAddr valSrcAddr valDstAddr infractionHeight slashFactor = .ok next) :
    RecordsPaired start events next.entries := by
  unfold slashStoredRedelegation at ok
  split at ok
  · cases ok
    exact paired
  · next red found =>
    obtain ⟨⟨_, amount⟩, slashed, rfl⟩ := map_ok_iff.mp ok
    obtain ⟨veRed, tally, middle, parts⟩ := slashRedelegation_ok slashed
    have kept : tally.state.entries = state.entries := by
      refine foldlM_invariant (fun tally => tally.state.entries = state.entries) rfl
        (fun before entry after _ same turn => ?_) parts.loop
      cases slashRedelegationEntry_ok turn with
      | spared _ unchanged _ => rw [unchanged, same]
      | unbonded _ _ _ _ unbonded _ => rw [(unbond_unbonded unbonded).entries, same]
    rw [parts.burned.entries, parts.entries, kept]
    exact paired

theorem completeUnbonding_paired {outcome : Except Fault ℤ}
    (ok : completeUnbonding ctx state delAddr valAddr = .ok (next, outcome)) :
    RecordsPaired start events next.entries := by
  rcases outcome with fault | balances
  · rw [completeUnbonding_error_entries ok]
    exact paired
  · obtain ⟨ubd, veUbd, parts⟩ := completeUnbonding_ok ok
    rw [parts.entries]
    refine ⟨?_, paired.redelegation⟩
    rw [UnbondingPaired, lookup_storeEntries_update, lookup_storeEntries_update]
    exact Paired.keep paired.unbonding parts.found parts.shadow fun entry => ¬ entry.isMature ctx

theorem completeRedelegation_paired {balances : ℤ}
    (ok : completeRedelegation ctx state delAddr valSrcAddr valDstAddr = .ok (next, balances)) :
    RecordsPaired start events next.entries := by
  obtain ⟨red, veRed, parts⟩ := completeRedelegation_ok ok
  rw [parts.reached]
  refine ⟨paired.unbonding, ?_⟩
  rw [RedelegationPaired, lookup_storeEntries_update, lookup_storeEntries_update]
  exact Paired.keep paired.redelegation parts.found parts.shadow fun entry => ¬ entry.isMature ctx

end Steps

theorem step_paired {next : State} {event : RecordEvent}
    (paired : RecordsPaired start events (replay RecordEvent.step start events).entries)
    (ok : event.step (replay RecordEvent.step start events) = .ok next) :
    RecordsPaired start (events ++ [event]) next.entries := by
  have waits := paired.extend event
  obtain ⟨ctx, call⟩ := event
  cases call with
  | undelegate delAddr valAddr shares =>
    obtain ⟨⟨_, completion⟩, undelegated, rfl⟩ := map_ok_iff.mp ok
    exact undelegate_paired paired undelegated
  | beginRedelegation delAddr valSrcAddr valDstAddr shares =>
    obtain ⟨⟨_, completion⟩, begun, rfl⟩ := map_ok_iff.mp ok
    exact beginRedelegation_paired paired begun
  | slashUnbondingDelegation delAddr valAddr infractionHeight slashFactor => exact slashUnbonding_paired waits ok
  | slashRedelegation delAddr valSrcAddr valDstAddr infractionHeight slashFactor =>
    exact slashRedelegation_paired waits ok
  | completeUnbonding delAddr valAddr =>
    obtain ⟨⟨_, outcome⟩, completed, rfl⟩ := map_ok_iff.mp ok
    exact completeUnbonding_paired waits completed
  | completeRedelegation delAddr valSrcAddr valDstAddr =>
    obtain ⟨⟨_, balances⟩, completed, rfl⟩ := map_ok_iff.mp ok
    exact completeRedelegation_paired waits completed
  | other holdings ve =>
    cases ok
    exact waits

theorem run_paired (holdings : Holdings) (ve : Model.Ve.State) (events : List RecordEvent) :
    RecordsPaired ⟨holdings, Entries.empty, ve⟩ events
      (replay RecordEvent.step ⟨holdings, Entries.empty, ve⟩ events).entries := by
  induction events using List.reverseRecOn with
  | nil => exact ⟨Paired.empty _ _, Paired.empty _ _⟩
  | append_singleton before event ih =>
    rw [replay_concat]
    rcases advance_cases RecordEvent.step (replay RecordEvent.step _ before) event with ok | same
    · exact step_paired ih ok
    · rw [same]
      exact ih.extend event

/-- No check of lengths fails, in whichever of the calls it is made. -/
structure GuardsPass (ctx : Ctx) (state : State) : Prop where
  undelegate : ∀ delAddr valAddr shares middle amount veTokens entry,
    unbond ctx state delAddr valAddr shares false = .ok (middle, amount, veTokens) →
      ∃ entries, middle.entries.addUnbonding (delAddr, valAddr) entry veTokens = .ok entries
  beginRedelegation : ∀ delAddr valSrcAddr valDstAddr shares middle amount veTokens status validator delegated newShares entry
      veEntry, unbond ctx state delAddr valSrcAddr shares true = .ok (middle, amount, veTokens) →
    veDelegate ctx middle delAddr amount veTokens status validator false = .ok (delegated, newShares) →
    Entries.veRedelegationEntry veTokens entry.initialBalance entry.sharesDst = .ok veEntry →
      ∃ entries, delegated.entries.addRedelegation (delAddr, valSrcAddr, valDstAddr) entry veTokens = .ok entries
  /-- in `SlashUnbondingDelegation` and `CompleteUnbonding` -/
  unbonding : ∀ pair ubd reason, state.entries.unbondingDelegations.lookup pair = some ubd →
    ∃ veUbd, shadowOf state.entries.veUnbondingDelegations pair ubd reason = .ok veUbd
  /-- in `SlashRedelegation` and `CompleteRedelegation` -/
  redelegation : ∀ triplet red reason, state.entries.redelegations.lookup triplet = some red →
    ∃ veRed, shadowOf state.entries.veRedelegations triplet red reason = .ok veRed

theorem shadowOf_of_lookup {κ α β : Type} [DecidableEq κ] {shadows : AList fun _ : κ => List β} {key : κ} {record : List α}
    {shadow : List β} (found : shadows.lookup key = some shadow) (aligned : shadow.length = record.length)
    (reason : String) : shadowOf shadows key record reason = .ok shadow := by
  simp only [shadowOf, found, require, if_pos aligned]
  rfl

theorem RecordsPaired.guardsPass {state : State} (paired : RecordsPaired start events state.entries) (ctx : Ctx) :
    GuardsPass ctx state where
  undelegate := by
    intro delAddr valAddr shares middle amount veTokens entry unbonded
    refine ⟨_, addUnbonding_ok_iff.mpr ⟨?_, rfl⟩⟩
    rw [(unbond_unbonded unbonded).entries]
    exact Paired.lengths paired.unbonding _
  beginRedelegation := by
    intro delAddr valSrcAddr valDstAddr shares middle amount veTokens status validator delegated newShares entry veEntry
      unbonded delegates shadow
    refine ⟨_, addRedelegation_ok_iff.mpr ⟨veEntry, shadow, ?_, rfl⟩⟩
    rw [veDelegate_entries delegates, (unbond_unbonded unbonded).entries]
    exact Paired.lengths paired.redelegation _
  unbonding := by
    intro pair ubd reason found
    obtain ⟨veUbd, shadow, aligned⟩ := Paired.shadow_of_some paired.unbonding found
    exact ⟨veUbd, shadowOf_of_lookup shadow aligned reason⟩
  redelegation := by
    intro triplet red reason found
    obtain ⟨veRed, shadow, aligned⟩ := Paired.shadow_of_some paired.redelegation found
    exact ⟨veRed, shadowOf_of_lookup shadow aligned reason⟩

/-- In every run from a state without records, a record is there exactly when its shadow is, with as many entries; the
entries of the two at one index were made by one call, in the order of the calls; and no check of their lengths fails. -/
theorem records_paired (holdings : Holdings) (ve : Model.Ve.State) (events : List RecordEvent) :
    let start : State := ⟨holdings, Entries.empty, ve⟩
    let state := replay RecordEvent.step start events
    (∀ pair, (state.entries.veUnbondingDelegations.lookup pair).map List.length =
        (state.entries.unbondingDelegations.lookup pair).map List.length) ∧
      (∀ triplet, (state.entries.veRedelegations.lookup triplet).map List.length =
        (state.entries.redelegations.lookup triplet).map List.length) ∧
      RecordsPaired start events state.entries ∧ ∀ ctx, GuardsPass ctx state := by
  intro start state
  have paired : RecordsPaired start events state.entries := run_paired holdings ve events
  exact ⟨Paired.map_length paired.unbonding, Paired.map_length paired.redelegation, paired,
    paired.guardsPass⟩

end Rotofury.Soundness.Staking
