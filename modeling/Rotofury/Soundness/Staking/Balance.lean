import Rotofury.Model.Staking.Keeper
import Rotofury.Soundness.Staking.Calls
import Rotofury.Soundness.Staking.Ledger
import Rotofury.ToMathlib.Falls

/-! # Which calls keep the ledger balanced

The surplus of a ve never grows. It falls where a record is settled that has gained, and where an unbonding entry of the ve
is slashed. So a call from a balanced state leads to a balanced state exactly when it does neither.
-/

namespace Rotofury.Soundness.Staking

open Model.Sdk Model.App Model.Staking Except

variable {validator : Validator} {bondAmt amount : ℤ} {veTokens : List VeTokens} {tokenSrc : BondStatus}
  {subtractAccount : Bool} {newShares : ℕ} {ubd : List UnbondingDelegationEntry} {entries : List RedelegationEntry}
  {tally final : RedelegationTally} {state next : State}

/-- The ve delegation under a key has gained nothing at the rate of its validator. -/
def NoGainFor (holdings : Holdings) (key : DvPair) : Prop :=
  ∀ validator, holdings.validators key.2 = some validator → NoGainAt holdings key validator

theorem noGainFor_iff {holdings : Holdings} {key : DvPair} (known : holdings.validators key.2 = some validator) :
    NoGainFor holdings key ↔ NoGainAt holdings key validator := by
  simp only [NoGainFor, known, Option.some.injEq, forall_eq']

section Delegations

variable {ctx : Ctx} {state next : State} {delAddr valAddr valSrcAddr valDstAddr : Address} {shares : Dec}

theorem veDelegate_falls
    (ok : veDelegate ctx state delAddr bondAmt veTokens tokenSrc validator subtractAccount = .ok (next, newShares))
    (keyed : Keyed ctx.world state.holdings) :
    Falls (surplus state) (surplus next) (NoGainAt state.holdings (delAddr, validator.operatorAddress) validator) :=
  .of_sub (gainsAt_nonneg _ _ _) (veDelegate_surplus ok keyed) noGainAt_iff.symm

/-- What is unbonded and still counts as delegated is owed. -/
theorem unbond_falls {updateVeAmt : Bool}
    (ok : unbond ctx state delAddr valAddr shares updateVeAmt = .ok (next, amount, veTokens))
    (keyed : Keyed ctx.world state.holdings) (known : state.holdings.validators valAddr = some validator) :
    Falls (surplus state) (fun veId => surplus next veId - if updateVeAmt then 0 else tokensIn veId veTokens)
      (NoGainFor state.holdings (delAddr, valAddr)) := by
  refine .of_sub (gainsAt_nonneg _ (delAddr, valAddr) validator) (fun veId => ?_)
    (noGainAt_iff.symm.trans (noGainFor_iff known).symm)
  rw [(unbond_unbonded ok).surplus keyed known]
  ring

theorem undelegate_falls {completion : ℕ} (ok : undelegate ctx state delAddr valAddr shares = .ok (next, completion))
    (keyed : Keyed ctx.world state.holdings) :
    Falls (surplus state) (surplus next) (NoGainFor state.holdings (delAddr, valAddr)) := by
  obtain ⟨validator, middle, amount, veTokens, bank, entries, parts⟩ := undelegate_ok ok
  have falls := unbond_falls parts.unbonded keyed parts.known
  -- the new entry holds what was unbonded
  have same : (fun veId => surplus middle veId - if false = true then 0 else tokensIn veId veTokens) = surplus next := by
    funext veId
    rw [if_neg Bool.false_ne_true, parts.reached, surplus, surplus, heldBy, heldBy]
    change _ = middle.holdings.veDelegatedAmount veId -
      (middle.holdings.veDelegations.total _ + entries.veUnbondingDelegations.total _)
    have added : entries.veUnbondingDelegations.total (fun _ veUbd => unbondingOf veId veUbd) =
        middle.entries.veUnbondingDelegations.total (fun _ veUbd => unbondingOf veId veUbd) + tokensIn veId veTokens := by
      rw [parts.added.written]
      refine AList.total_insert_of_share ?_
      rw [← balanceOf_veUnbondingEntry]
      rcases found : middle.entries.veUnbondingDelegations.lookup (delAddr, valAddr) with _ | veUbd
      · simp [AList.share_of_absent found, unbondingOf]
      · simp [AList.share_of_lookup found, unbondingOf]
    rw [added]
    ring
  rw [← same]
  exact falls

theorem veDelegate_entries
    (ok : veDelegate ctx state delAddr bondAmt veTokens tokenSrc validator subtractAccount = .ok (next, newShares)) :
    next.entries = state.entries := by
  obtain ⟨opened, veDelegation, bank, delegating, delegated, parts⟩ := veDelegate_ok ok
  have opening := parts.opening
  rw [parts.next]
  change opened.entries = state.entries
  unfold openVeDelegation at opening
  split at opening
  · cases opening
    rfl
  · obtain ⟨_, valAddr, burnt, settled⟩ := settleVeDelegation_settled opening
    rw [settled.written]
    exact settled.burned.entries

theorem beginRedelegation_falls {completion : Option ℕ}
    (ok : beginRedelegation ctx state delAddr valSrcAddr valDstAddr shares = .ok (next, completion))
    (keyed : Keyed ctx.world state.holdings) :
    Falls (surplus state) (surplus next)
      (NoGainFor state.holdings (delAddr, valSrcAddr) ∧ NoGainFor state.holdings (delAddr, valDstAddr)) := by
  obtain ⟨srcValidator, dstValidator, middle, amount, veTokens, delegated, newShares, parts⟩ :=
    beginRedelegation_ok ok
  obtain ⟨stillKeyed, others⟩ := (unbond_unbonded parts.unbonded).keeps keyed
  have operator := state.holdings.operators valDstAddr dstValidator parts.destination
  have leaves : Falls (surplus state) (surplus middle) (NoGainFor state.holdings (delAddr, valSrcAddr)) := by
    have falls := unbond_falls parts.unbonded keyed parts.source
    simpa only [if_true, sub_zero] using falls
  have arrives : Falls (surplus middle) (surplus delegated) (NoGainFor state.holdings (delAddr, valDstAddr)) := by
    refine (veDelegate_falls parts.delegates stillKeyed).congr ?_
    -- unbonding from the source leaves the record with the destination
    have different : (delAddr, valDstAddr) ≠ (delAddr, valSrcAddr) := by simpa using parts.different.symm
    rw [noGainFor_iff parts.destination, operator, NoGainAt, NoGainAt, others _ different]
  have same : surplus next = surplus delegated := by
    rcases parts.reached with rfl | ⟨_, _, veEntry, entries, _, added, rfl⟩
    · rfl
    · rw [added.written]
      rfl
  rw [same]
  exact leaves.trans arrives

end Delegations

section Unbondings

variable {ctx : Ctx} {state next : State} {delAddr valAddr : Address}

theorem total_storeEntries {κ α : Type} [DecidableEq κ] (records : AList fun _ : κ => List α) (quantity : κ → List α → ℤ)
    (key : κ) (record : List α) (blank : quantity key [] = 0) :
    (storeEntries records key record).total quantity =
      records.total quantity - records.share quantity key + quantity key record := by
  unfold storeEntries
  split
  · next none => rw [AList.total_erase, none, blank, add_zero]
  · exact AList.total_insert records quantity key record

/-- What a ve has in the entries of a record is in the mature ones and in those that stay. -/
theorem unbondingOf_split (ctx : Ctx) (veId : ℕ) {veUbd : List VeUnbondingDelegationEntry}
    (aligned : veUbd.length = ubd.length) :
    unbondingOf veId veUbd = balanceIn veId (maturePairs ctx (ubd.zip veUbd)) +
      unbondingOf veId ((laterPairs ctx (ubd.zip veUbd)).map Prod.snd) := by
  have split : (maturePairs ctx (ubd.zip veUbd) ++ laterPairs ctx (ubd.zip veUbd)).Perm (ubd.zip veUbd) := by
    simpa only [maturePairs, laterPairs, decide_not] using
      List.filter_append_perm (fun pair : UnbondingPair => decide (pair.1.isMature ctx)) (ubd.zip veUbd)
  have sum := (split.map fun pair => balanceOf veId pair.2).sum_eq
  rw [List.map_append, List.sum_append] at sum
  have seconds := congrArg (List.map (balanceOf veId)) (List.map_snd_zip aligned.le)
  rw [List.map_map] at seconds
  rw [unbondingOf, unbondingOf, balanceIn, List.map_map, ← seconds]
  exact sum.symm

theorem completeUnbonding_surplus {balances : ℤ}
    (ok : completeUnbonding ctx state delAddr valAddr = .ok (next, .ok balances)) : surplus next = surplus state := by
  obtain ⟨ubd, veUbd, parts⟩ := completeUnbonding_ok ok
  funext veId
  have kept : (releaseAll state.holdings (maturePairs ctx (ubd.zip veUbd))).veDelegations = state.holdings.veDelegations :=
    releaseAll_veDelegations _ _
  rw [surplus, surplus, heldBy, heldBy, parts.holdings, parts.entries, releaseAll_amount, kept,
    total_storeEntries _ _ _ _ rfl, AList.share_of_lookup parts.shadow, unbondingOf_split ctx veId parts.aligned]
  ring

/-- A slash takes its parts off the amounts, and leaves what the ves have in the entries. -/
theorem slashUnbondingDelegation_falls {infractionHeight : ℤ} {slashFactor : Dec}
    (ok : slashUnbondingDelegation ctx state delAddr valAddr ubd infractionHeight slashFactor = .ok (next, amount)) :
    Falls (surplus state) (surplus next)
      (∀ veUbd, state.entries.veUnbondingDelegations.lookup (delAddr, valAddr) = some veUbd →
        ∀ veId, slashOn ctx infractionHeight slashFactor (ubd.zip veUbd) veId ≤ 0) := by
  obtain ⟨veUbd, middle, parts⟩ := slashUnbondingDelegation_ok ok
  refine .of_sub parts.burned.nonneg (fun veId => ?_) ?_
  · have table : next.holdings.veDelegations = state.holdings.veDelegations := by
      rw [parts.burned.holdings, parts.holdings]
    rw [surplus, surplus, heldBy, heldBy, parts.burned.amount, parts.burned.entries, table, parts.holdings, parts.entries]
    ring
  · simp only [parts.shadow, Option.some.injEq, forall_eq']
    exact forall_congr' fun veId => max_eq_right_iff

end Unbondings

section Redelegations

variable {ctx : Ctx} {delAddr valDstAddr : Address} {infractionHeight : ℤ} {slashFactor : Dec}

/-- No entry of a redelegation meets a record that has gained: each unbonds from the state the one before has left. -/
def NoGainAlong (ctx : Ctx) (delAddr valDstAddr : Address) (infractionHeight : ℤ) (slashFactor : Dec) :
    State → List RedelegationEntry → Prop
  | _, [] => True
  | state, entry :: rest =>
    match slashedShares ctx state.holdings delAddr valDstAddr infractionHeight slashFactor entry with
    | none => NoGainAlong ctx delAddr valDstAddr infractionHeight slashFactor state rest
    | some shares => NoGainFor state.holdings (delAddr, valDstAddr) ∧
        ∀ next amount veTokens, unbond ctx state delAddr valDstAddr shares false = .ok (next, amount, veTokens) →
          NoGainAlong ctx delAddr valDstAddr infractionHeight slashFactor next rest

/-- The surplus beyond what is still to be burned. -/
def unburned (tally : RedelegationTally) (veId : ℕ) : ℤ := surplus tally.state veId - amountOn tally.veBurnedAmounts veId

section

variable
  (loop : entries.foldlM (slashRedelegationEntry ctx delAddr valDstAddr infractionHeight slashFactor) tally = .ok final)
include loop

theorem slashRedelegationEntries_falls (keyed : Keyed ctx.world tally.state.holdings) :
    Falls (unburned tally) (unburned final)
      (NoGainAlong ctx delAddr valDstAddr infractionHeight slashFactor tally.state entries) := by
  induction entries generalizing tally with
  | nil =>
    cases loop
    exact .of_eq rfl
  | cons entry rest ih =>
    obtain ⟨middle, turn, later⟩ := foldlM_cons_ok_iff.mp loop
    cases slashRedelegationEntry_ok turn with
    | spared none state amounts =>
      have same : unburned middle = unburned tally := by
        funext veId
        rw [unburned, unburned, state, amounts]
      rw [NoGainAlong, none, ← same, ← state]
      exact ih later (state ▸ keyed)
    | unbonded shares amount veTokens some unbonded amounts =>
      obtain ⟨validator, known⟩ := unbond_known unbonded
      have first : Falls (unburned tally) (unburned middle) (NoGainFor tally.state.holdings (delAddr, valDstAddr)) := by
        refine .of_sub (gainsAt_nonneg _ (delAddr, valDstAddr) validator) (fun veId => ?_)
          (noGainAt_iff.symm.trans (noGainFor_iff known).symm)
        rw [unburned, unburned, amounts, amountOn_addToMap, (unbond_unbonded unbonded).surplus keyed known,
          if_neg Bool.false_ne_true]
        ring
      have stillKeyed := ((unbond_unbonded unbonded).keeps keyed).1
      refine (first.trans (ih later stillKeyed)).congr ?_
      rw [NoGainAlong, some]
      refine and_congr_right fun _ => ?_
      constructor
      · rintro holds next amount' veTokens' same
        rw [unbonded] at same
        cases same
        exact holds
      · exact fun holds => holds _ _ _ unbonded

/-- What is to be burned from a ve is never negative. -/
theorem slashRedelegationEntries_nonneg (nonneg : ∀ veId, 0 ≤ amountOn tally.veBurnedAmounts veId) :
    ∀ veId, 0 ≤ amountOn final.veBurnedAmounts veId := by
  refine foldlM_invariant (fun tally => ∀ veId, 0 ≤ amountOn tally.veBurnedAmounts veId) nonneg
    (fun before entry after _ nonneg turn veId => ?_) loop
  cases slashRedelegationEntry_ok turn with
  | spared _ _ amounts =>
    rw [amounts]
    exact nonneg veId
  | unbonded _ _ veTokens _ _ amounts =>
    rw [amounts, amountOn_addToMap]
    exact add_nonneg (nonneg veId) (tokensIn_nonneg veId veTokens)

end

theorem slashRedelegation_falls {valSrcAddr : Address} {red : List RedelegationEntry}
    (ok : slashRedelegation ctx state delAddr valSrcAddr valDstAddr red infractionHeight slashFactor =
      .ok (next, amount)) (keyed : Keyed ctx.world state.holdings) :
    Falls (surplus state) (surplus next)
      (NoGainAlong ctx delAddr valDstAddr infractionHeight slashFactor state red) := by
  obtain ⟨veRed, tally, middle, parts⟩ := slashRedelegation_ok ok
  have start : unburned ⟨state, 0, 0, 0, ∅⟩ = surplus state := by
    funext veId
    exact sub_zero _
  have final : unburned tally = surplus next := by
    funext veId
    have nonneg := slashRedelegationEntries_nonneg parts.loop (fun _ => le_rfl) veId
    have table : next.holdings.veDelegations = tally.state.holdings.veDelegations := by
      rw [parts.burned.holdings, parts.holdings]
    rw [unburned, surplus, surplus, heldBy, heldBy, parts.burned.amount, parts.burned.entries, table, parts.holdings,
      parts.entries, max_eq_left nonneg]
    ring
  have falls := slashRedelegationEntries_falls parts.loop keyed
  rwa [start, final] at falls

end Redelegations

/-- The calls that leave no stray: no record they settle has gained, and no part of a slash falls on a ve that has a
balance in an unbonding entry. -/
def Exact (ctx : Ctx) (state : State) : Call → Prop
  | .veDelegate delAddr _ _ _ validator _ => NoGainAt state.holdings (delAddr, validator.operatorAddress) validator
  | .undelegate delAddr valAddr _ => NoGainFor state.holdings (delAddr, valAddr)
  | .beginRedelegation delAddr valSrcAddr valDstAddr _ =>
    NoGainFor state.holdings (delAddr, valSrcAddr) ∧ NoGainFor state.holdings (delAddr, valDstAddr)
  | .completeUnbonding _ _ => True
  | .slashUnbondingDelegation delAddr valAddr unbondingDelegation infractionHeight slashFactor =>
    ∀ veUbd, state.entries.veUnbondingDelegations.lookup (delAddr, valAddr) = some veUbd →
      ∀ veId, slashOn ctx infractionHeight slashFactor (unbondingDelegation.zip veUbd) veId ≤ 0
  | .slashRedelegation delAddr _ valDstAddr redelegation infractionHeight slashFactor =>
    NoGainAlong ctx delAddr valDstAddr infractionHeight slashFactor state redelegation

theorem call_falls {ctx : Ctx} {call : Call} (keyed : Keyed ctx.world state.holdings)
    (ok : call.run ctx state = .ok next) : Falls (surplus state) (surplus next) (Exact ctx state call) := by
  cases call with
  | veDelegate delAddr bondAmt veTokens tokenSrc validator subtractAccount =>
    obtain ⟨⟨_, newShares⟩, delegated, rfl⟩ := map_ok_iff.mp ok
    exact veDelegate_falls delegated keyed
  | undelegate delAddr valAddr sharesAmount =>
    obtain ⟨⟨_, completion⟩, undelegated, rfl⟩ := map_ok_iff.mp ok
    exact undelegate_falls undelegated keyed
  | beginRedelegation delAddr valSrcAddr valDstAddr sharesAmount =>
    obtain ⟨⟨_, completion⟩, begun, rfl⟩ := map_ok_iff.mp ok
    exact beginRedelegation_falls begun keyed
  | completeUnbonding delAddr valAddr =>
    simp only [Call.run, ok_iffs] at ok
    obtain ⟨⟨reached, outcome⟩, completed, balances, rfl, rfl⟩ := ok
    exact .of_eq (completeUnbonding_surplus completed)
  | slashUnbondingDelegation delAddr valAddr unbondingDelegation infractionHeight slashFactor =>
    obtain ⟨⟨_, amount⟩, slashed, rfl⟩ := map_ok_iff.mp ok
    exact slashUnbondingDelegation_falls slashed
  | slashRedelegation delAddr valSrcAddr valDstAddr redelegation infractionHeight slashFactor =>
    obtain ⟨⟨_, amount⟩, slashed, rfl⟩ := map_ok_iff.mp ok
    exact slashRedelegation_falls slashed keyed

/-- From a balanced state a call leads to a balanced state exactly when it leaves no stray. -/
theorem call_balanced_iff {ctx : Ctx} {state next : State} {call : Call} (balanced : Balanced state)
    (keyed : Keyed ctx.world state.holdings) (success : call.run ctx state = .ok next) :
    Balanced next ↔ Exact ctx state call := by
  rw [← (call_falls keyed success).eq_iff, funext_iff, balanced_iff]
  refine forall_congr' fun veId => ?_
  rw [balanced_iff.mp balanced veId]

/-- An unbonding entry of ten coins that matures later, of which a ve has some; they are in its lock. -/
def sampleSlash (balance : ℕ) : State where
  holdings := delegatedBy fun veId => if veId = 1 then balance else 0
  entries := { Entries.empty with
    unbondingDelegations := AList.singleton (1, 9) [⟨5, 150 * 10 ^ 9, 10, 10⟩]
    veUnbondingDelegations := AList.singleton (1, 9) [⟨[⟨1, balance, balance⟩]⟩] }
  ve := ⟨{ Model.Ve.Store.genesis.setLockedAmountByUser 1 ⟨balance, 0⟩ with totalLockedAmount := balance },
    ⟨fun account denom => if (account = poolAddress ∨ account = ModuleAccount.ve.address) ∧ denom = "airon" then 10 else 0,
      fun _ => 20⟩⟩

/-- The entry is slashed by one half. -/
def sampleSlashCall : Call := .slashUnbondingDelegation 1 9 [⟨5, 150 * 10 ^ 9, 10, 10⟩] 5 ⟨5 * 10 ^ 17⟩

theorem sampleSlash_balanced (balance : ℕ) :
    Balanced (sampleSlash balance) ∧ Keyed sampleWorld (sampleSlash balance).holdings := by
  constructor
  · intro veId
    have entries : (sampleSlash balance).entries.veUnbondingDelegations.total (fun _ veUbd => unbondingOf veId veUbd) =
        if veId = 1 then (balance : ℤ) else 0 := by
      simp [sampleSlash, AList.total, AList.singleton, unbondingOf, balanceOf, eq_comm]
    have records : (sampleSlash balance).holdings.veDelegations.total (fun _ delegation => tokensOf veId delegation) = 0 :=
      rfl
    rw [heldBy, entries, records, zero_add]
    rfl
  · intro key delegation found
    cases found

theorem sampleSlash_run :
    ∃ next, sampleSlashCall.run sampleCtx (sampleSlash 4) = .ok next ∧ next.holdings.veDelegatedAmount 1 = 2 ∧
      heldBy next 1 = 4 := by
  have run : (fun next : State => (next.holdings.veDelegatedAmount 1, heldBy next 1)) <$>
      sampleSlashCall.run sampleCtx (sampleSlash 4) = .ok (2, 4) := by decide +kernel
  obtain ⟨next, ok, amounts⟩ := map_ok_iff.mp run
  exact ⟨next, ok, congrArg Prod.fst amounts, congrArg Prod.snd amounts⟩

/-- The block in which the entry matures. -/
def sampleMaturity : Ctx :=
  { sampleCtx with
    ve := ⟨150, 6, "airon", none, by decide, by decide⟩
    headerTime := 150 * 10 ^ 9
    seconds := by decide }

/-- Not slashed, the entry is completed and the ve has nothing delegated any more. -/
theorem call_balanced_sample :
    ∃ next, (Call.completeUnbonding 1 9).run sampleMaturity (sampleSlash 4) = .ok next ∧
      next.holdings.veDelegatedAmount 1 = 0 ∧ Balanced next := by
  have run : (fun next : State => next.holdings.veDelegatedAmount 1) <$>
      (Call.completeUnbonding 1 9).run sampleMaturity (sampleSlash 4) = .ok 0 := by decide +kernel
  obtain ⟨balanced, keyed⟩ := sampleSlash_balanced 4
  obtain ⟨next, success, released⟩ := map_ok_iff.mp run
  exact ⟨next, success, released, (call_balanced_iff balanced keyed success).mpr trivial⟩

/-- The slash halves what the ve has delegated and leaves it its full balance in the entry. -/
theorem slashed_balance_stays_sample :
    ∃ next, Balanced (sampleSlash 4) ∧ Keyed sampleCtx.world (sampleSlash 4).holdings ∧
      sampleSlashCall.run sampleCtx (sampleSlash 4) = .ok next ∧ ¬ Balanced next := by
  obtain ⟨balanced, keyed⟩ := sampleSlash_balanced 4
  obtain ⟨next, success, amount, held⟩ := sampleSlash_run
  refine ⟨next, balanced, keyed, success, fun stays => ?_⟩
  have same := stays 1
  rw [amount, held] at same
  exact absurd same (by decide)

end Rotofury.Soundness.Staking
