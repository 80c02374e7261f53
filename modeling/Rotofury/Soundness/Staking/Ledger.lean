import Rotofury.Soundness.Staking.Completion
import Rotofury.Soundness.Staking.Drawing

/-! # The ledger of delegated amounts

What a ve has delegated is kept three times: in the ve delegations, in the ve unbonding entries, and as one amount. Every
call moves the amount along with the other two, except for two kinds of strays, which only ever make the amount too small.
Settling takes losses off the amount but does not add gains to it; and slashing an unbonding delegation takes the slash off
the amount while the balances in the entries stay, because it works on copies of them.
-/

namespace Rotofury.Soundness.Staking

open Model.Sdk Model.App Model.Staking

variable {holdings : Holdings} {validator : Validator} {delegation : VeDelegation}

/-- What a ve has in the entries of one record. -/
def unbondingOf (veId : ℕ) (veUbd : List VeUnbondingDelegationEntry) : ℤ := (veUbd.map (balanceOf veId)).sum

/-- What a ve has in ve delegations and in unbonding entries. -/
def heldBy (state : State) (veId : ℕ) : ℤ :=
  state.holdings.veDelegations.total (fun _ delegation => tokensOf veId delegation) +
    state.entries.veUnbondingDelegations.total fun _ veUbd => unbondingOf veId veUbd

/-- What a ve has delegated beyond what it has on record. -/
def surplus (state : State) (veId : ℕ) : ℤ := state.holdings.veDelegatedAmount veId - heldBy state veId

def Balanced (state : State) : Prop := ∀ veId, state.holdings.veDelegatedAmount veId = heldBy state veId

theorem balanced_iff {state : State} : Balanced state ↔ ∀ veId, surplus state veId = 0 :=
  forall_congr' fun _ => sub_eq_zero.symm

/-- The addresses that are written in a ve delegation. -/
def Names (world : World) (delegation : VeDelegation) (key : DvPair) : Prop :=
  delegation.delegatorAddress = key.1 ∧ world.valAddressFromBech32 delegation.validatorAddress = some key.2

/-- Every ve delegation is stored under the addresses that are written in it. -/
def Keyed (world : World) (holdings : Holdings) : Prop :=
  ∀ key delegation, holdings.veDelegations.lookup key = some delegation → Names world delegation key

section Table

variable {records : AList fun _ : DvPair => VeDelegation} {key : DvPair} {empty : Prop} [Decidable empty]
  {delegation : VeDelegation} {quantity : DvPair → VeDelegation → ℤ}

/-- Where an empty record counts nothing, a record counts the same whether it is written or removed. -/
theorem total_writeVeDelegation (blank : empty → quantity key delegation = 0) :
    (writeVeDelegation records key empty delegation).total quantity =
      records.total quantity - records.share quantity key + quantity key delegation := by
  unfold writeVeDelegation
  split
  · next none => rw [AList.total_erase, blank none, add_zero]
  · exact AList.total_insert records quantity key delegation

theorem share_writeVeDelegation (blank : empty → quantity key delegation = 0) (query : DvPair) :
    (writeVeDelegation records key empty delegation).share quantity query =
      if query = key then quantity key delegation else records.share quantity query := by
  unfold writeVeDelegation
  split
  · next none => rw [AList.share_erase, blank none]
  · exact AList.share_insert records quantity key query delegation

theorem lookup_writeVeDelegation (other : DvPair) (different : other ≠ key) :
    (writeVeDelegation records key empty delegation).lookup other = records.lookup other := by
  unfold writeVeDelegation
  split
  · exact AList.lookup_erase_ne different
  · exact AList.lookup_insert_ne different

theorem Keyed.write {world : World} {next : Holdings} (keyed : Keyed world holdings)
    (table : next.veDelegations = writeVeDelegation holdings.veDelegations key empty delegation)
    (names : Names world delegation key) : Keyed world next := by
  intro query record found
  rw [table] at found
  by_cases same : query = key
  · subst same
    unfold writeVeDelegation at found
    split at found
    · rw [AList.lookup_erase] at found
      cases found
    · rw [AList.lookup_insert] at found
      cases found
      exact names
  · rw [lookup_writeVeDelegation query same] at found
    exact keyed query record found

end Table

/-- What shares are worth beyond the tokens on record. -/
def gainOf (validator : Validator) (shares : VeShares) : ℤ :=
  max (validator.worth shares.shares - shares.tokensMayUnsettled) 0

def gainsOf (validator : Validator) (delegation : VeDelegation) (veId : ℕ) : ℤ :=
  (delegation.veShares.map fun shares => onVe shares.veId (gainOf validator shares) veId).sum

/-- No shares of a ve delegation are worth more than the tokens on record. -/
def NoGain (validator : Validator) (delegation : VeDelegation) : Prop :=
  ∀ shares ∈ delegation.veShares, (validator.worth shares.shares : ℤ) ≤ shares.tokensMayUnsettled

theorem gainsOf_nonneg (validator : Validator) (delegation : VeDelegation) (veId : ℕ) : 0 ≤ gainsOf validator delegation veId := by
  apply List.sum_nonneg
  intro gain inside
  obtain ⟨shares, _, rfl⟩ := List.mem_map.mp inside
  exact onVe_nonneg (le_max_right _ _)

theorem noGain_iff :
    NoGain validator delegation ↔ ∀ veId, gainsOf validator delegation veId = 0 := by
  constructor
  · intro none veId
    apply List.sum_eq_zero
    intro gain inside
    obtain ⟨shares, member, rfl⟩ := List.mem_map.mp inside
    rw [gainOf, max_eq_right (by have := none shares member; omega), onVe_zero]
  · intro zero shares member
    have here := List.all_zero_of_le_zero_le_of_sum_eq_zero
      (List.forall_mem_map.mpr fun _ _ => onVe_nonneg (le_max_right _ _)) (zero shares.veId) (List.mem_map_of_mem member)
    rw [onVe_self] at here
    have bound := le_max_left ((validator.worth shares.shares : ℤ) - shares.tokensMayUnsettled) 0
    rw [here] at bound
    omega

theorem tokensOf_settle (validator : Validator) (delegation : VeDelegation) (veId : ℕ) :
    tokensOf veId (delegation.settle validator) =
      tokensOf veId delegation - lossesOf validator delegation veId + gainsOf validator delegation veId := by
  simp only [tokensOf, lossesOf, gainsOf, VeDelegation.settle, List.map_map]
  induction delegation.veShares with
  | nil => rfl
  | cons shares rest ih =>
    have here : onVe shares.veId (validator.worth shares.shares) veId =
        onVe shares.veId shares.tokensMayUnsettled veId - onVe shares.veId (lossOf validator shares) veId +
          onVe shares.veId (gainOf validator shares) veId := by
      rw [← onVe_sub, ← onVe_add]
      congr 1
      unfold lossOf gainOf
      omega
    simp only [List.map_cons, List.sum_cons]
    rw [ih, Function.comp_apply]
    change onVe shares.veId (validator.worth shares.shares) veId + _ = _
    rw [here]
    ring

/-- A settled record without shares has no tokens. -/
theorem tokensOf_settle_of_no_shares (none : (delegation.settle validator).shares = 0) (veId : ℕ) :
    tokensOf veId (delegation.settle validator) = 0 := by
  apply List.sum_eq_zero
  intro tokens inside
  obtain ⟨shares, member, rfl⟩ := List.mem_map.mp inside
  have zero : shares.shares = 0 := List.sum_eq_zero_iff.mp none shares.shares (List.mem_map_of_mem member)
  rw [settle_atWorth validator delegation shares member, zero, worth_zero]
  exact onVe_zero _ _

section Settled

variable {ctx : Ctx} {state next burnt : State} {delegation : VeDelegation} {validator : Validator} {key : DvPair}
  {valAddr : Address}

section

variable (settled : Settled ctx state delegation validator next valAddr burnt)
include settled

/-- The settled record is written where the record was found. -/
theorem Settled.table (names : Names ctx.world delegation key) :
    next.holdings.veDelegations = writeVeDelegation state.holdings.veDelegations key
      ((delegation.settle validator).shares = 0) (delegation.settle validator) := by
  obtain ⟨delegator, parsed⟩ := names
  obtain rfl : valAddr = key.2 := Option.some.inj (settled.address.symm.trans parsed)
  have same : (delegation.delegatorAddress, key.2) = key := by rw [delegator]
  rw [settled.written, ← same]
  rfl

variable (found : state.holdings.veDelegations.lookup key = some delegation)
include found

theorem Settled.total (names : Names ctx.world delegation key) (quantity : DvPair → VeDelegation → ℤ)
    (blank : (delegation.settle validator).shares = 0 → quantity key (delegation.settle validator) = 0) :
    next.holdings.veDelegations.total quantity = state.holdings.veDelegations.total quantity - quantity key delegation +
        quantity key (delegation.settle validator) ∧
      next.holdings.veDelegations.share quantity key = quantity key (delegation.settle validator) := by
  rw [settled.table names, total_writeVeDelegation blank, share_writeVeDelegation blank, if_pos rfl,
    AList.share_of_lookup found]
  exact ⟨rfl, rfl⟩

/-- Settling leaves the surplus smaller by the gains. -/
theorem Settled.surplus (names : Names ctx.world delegation key) (veId : ℕ) :
    surplus next veId = surplus state veId - gainsOf validator delegation veId ∧
      next.holdings.veDelegations.share (fun _ delegation => tokensOf veId delegation) key =
        tokensOf veId (delegation.settle validator) := by
  obtain ⟨total, share⟩ := settled.total found names (fun _ delegation => tokensOf veId delegation)
    fun none => tokensOf_settle_of_no_shares none veId
  have amount : next.holdings.veDelegatedAmount veId =
      state.holdings.veDelegatedAmount veId - lossesOf validator delegation veId := by
    rw [settled.written]
    exact settled.burned.amount veId
  have entries : next.entries = state.entries := by
    rw [settled.written]
    exact settled.burned.entries
  refine ⟨?_, share⟩
  have sum := tokensOf_settle validator delegation veId
  rw [Staking.surplus, Staking.surplus, heldBy, heldBy, total, amount, entries]
  omega

end

/-- What is left after a draw is written where the record was found. -/
theorem VesDrawn.table {drawn : Holdings} {delegated shares : Dec} {updateVeAmt : Bool} {veTokens : List VeTokens}
    {left : VeDelegation}
    (drawing : VesDrawn ctx holdings delegation validator delegated shares updateVeAmt drawn veTokens valAddr left)
    (names : Names ctx.world delegation key) :
    drawn.veDelegations = writeVeDelegation holdings.veDelegations key (left.veShares = []) left ∧
      Names ctx.world left key := by
  obtain ⟨delegator, parsed⟩ := names
  obtain rfl : valAddr = key.2 := Option.some.inj (drawing.address.symm.trans parsed)
  have same : (delegation.delegatorAddress, key.2) = key := by rw [delegator]
  refine ⟨?_, drawing.delegatorAddress.trans delegator, ?_⟩
  · rw [drawing.veDelegations, ← same]
  · rw [drawing.validatorAddress, parsed]

end Settled

/-- What the ve delegation under a key has gained, where there is one. -/
def gainsAt (holdings : Holdings) (key : DvPair) (validator : Validator) (veId : ℕ) : ℤ :=
  holdings.veDelegations.share (fun _ delegation => gainsOf validator delegation veId) key

/-- The ve delegation under a key, where there is one, has gained nothing. -/
def NoGainAt (holdings : Holdings) (key : DvPair) (validator : Validator) : Prop :=
  ∀ delegation, holdings.veDelegations.lookup key = some delegation → NoGain validator delegation

theorem gainsAt_nonneg (holdings : Holdings) (key : DvPair) (validator : Validator) (veId : ℕ) :
    0 ≤ gainsAt holdings key validator veId :=
  AList.share_nonneg _ (fun _ delegation _ => gainsOf_nonneg validator delegation veId) key

theorem noGainAt_iff {key : DvPair} :
    NoGainAt holdings key validator ↔ ∀ veId, gainsAt holdings key validator veId = 0 := by
  rcases found : holdings.veDelegations.lookup key with _ | delegation
  · refine iff_of_true (fun delegation present => ?_) fun veId => AList.share_of_absent found
    rw [found] at present
    cases present
  · rw [NoGainAt, found]
    simp only [gainsAt, AList.share_of_lookup found, ← noGain_iff, Option.some.injEq, forall_eq']

section VeDelegate

variable {ctx : Ctx} {state next opened : State} {delAddr : Address} {bondAmt : ℤ} {veTokens : List VeTokens}
  {tokenSrc : BondStatus} {validator : Validator} {subtractAccount : Bool} {newShares : ℕ} {veDelegation : VeDelegation}
  {bank : Bank} {delegating delegated : Delegating}

section Parts

variable (parts : VeDelegateParts ctx state delAddr bondAmt veTokens tokenSrc validator subtractAccount next newShares opened
    veDelegation bank delegating delegated)
  (delegator : veDelegation.delegatorAddress = delAddr)
  (named : ∀ valAddr, ctx.world.valAddressFromBech32 veDelegation.validatorAddress = some valAddr →
    valAddr = validator.operatorAddress)

include parts delegator named

/-- The opened ve delegation is replaced by the one that was delegated to. -/
theorem VeDelegateParts.total {quantity : DvPair → VeDelegation → ℤ}
    (contributes : opened.holdings.veDelegations.share quantity (delAddr, validator.operatorAddress) =
      quantity (delAddr, validator.operatorAddress) veDelegation) :
    next.holdings.veDelegations.total quantity = opened.holdings.veDelegations.total quantity -
      quantity (delAddr, validator.operatorAddress) veDelegation +
        quantity (delAddr, validator.operatorAddress) delegated.veDelegation := by
  have ves := delegateVes_ok parts.loop
  have table : next.holdings.veDelegations = delegated.holdings.veDelegations := by
    rw [parts.next]
    exact (addVeDelegatorShares_eq delegated.holdings validator.operatorAddress delegated.totalNewShares).2.1
  by_cases none : veTokens = []
  · rw [table, ves.idle none, parts.coins.ves.veDelegations, parts.coins.veDelegation]
    ring
  · obtain ⟨valAddr, address, written⟩ := ves.written none
    rw [parts.coins.veDelegation] at address written
    obtain rfl := named valAddr address
    rw [table, written, delegator, parts.coins.ves.veDelegations, AList.total_insert, contributes]

/-- From the opened ve delegation on, what is added to the amount is added to the record. -/
theorem VeDelegateParts.surplus (veId : ℕ)
    (contributes : opened.holdings.veDelegations.share (fun _ delegation => tokensOf veId delegation)
      (delAddr, validator.operatorAddress) = tokensOf veId veDelegation) : surplus next veId = surplus opened veId := by
  have ves := delegateVes_ok parts.loop
  have amount : next.holdings.veDelegatedAmount veId = opened.holdings.veDelegatedAmount veId + tokensIn veId veTokens := by
    rw [← parts.coins.ves.veDelegatedAmount, ← ves.amounts, parts.next]
    exact congrFun (addVeDelegatorShares_eq delegated.holdings validator.operatorAddress delegated.totalNewShares).1 veId
  have entries : next.entries = opened.entries := by
    rw [parts.next]
    rfl
  have tokens := ves.tokens veId
  rw [parts.coins.veDelegation] at tokens
  rw [Staking.surplus, Staking.surplus, heldBy, heldBy, parts.total delegator named contributes, amount, entries, tokens]
  ring

end Parts

theorem veDelegate_surplus
    (ok : veDelegate ctx state delAddr bondAmt veTokens tokenSrc validator subtractAccount = .ok (next, newShares))
    (keyed : Keyed ctx.world state.holdings) (veId : ℕ) :
    surplus next veId =
      surplus state veId - gainsAt state.holdings (delAddr, validator.operatorAddress) validator veId := by
  obtain ⟨opened, veDelegation, bank, delegating, delegated, parts⟩ := veDelegate_ok ok
  have opening := parts.opening
  unfold openVeDelegation at opening
  split at opening
  · next absent =>
    cases opening
    rw [parts.surplus rfl (ctx.world.validatorString_own validator) veId (AList.share_of_absent absent), gainsAt,
      AList.share_of_absent absent, sub_zero]
  · next delegation found =>
    obtain ⟨rfl, valAddr, burnt, settled⟩ := settleVeDelegation_settled opening
    have names := keyed _ _ found
    obtain ⟨less, contributes⟩ := settled.surplus found names veId
    rw [parts.surplus names.1 (fun valAddr parsed => Option.some.inj (parsed.symm.trans names.2)) veId contributes, less,
      gainsAt, AList.share_of_lookup found]

end VeDelegate

section Unbond

variable {ctx : Ctx} {state next : State} {delAddr valAddr : Address} {shares : Dec} {updateVeAmt : Bool}
  {veTokens : List VeTokens}

variable (unbonded : Unbonded ctx state delAddr valAddr shares updateVeAmt next veTokens)
include unbonded

/-- Unbonding takes the drawn tokens off the record, and off the amount where it is asked to. -/
theorem Unbonded.surplus (keyed : Keyed ctx.world state.holdings)
    (known : state.holdings.validators valAddr = some validator) (veId : ℕ) :
    surplus next veId = surplus state veId - gainsAt state.holdings (delAddr, valAddr) validator veId +
      if updateVeAmt then 0 else tokensIn veId veTokens := by
  cases unbonded with
  | coins absent holdings reached none ves =>
    rw [reached, gainsAt, AList.share_of_absent absent, none, tokensIn_nil, ite_self, sub_zero, add_zero,
      Staking.surplus, Staking.surplus, heldBy, heldBy]
    change holdings.veDelegatedAmount veId - (holdings.veDelegations.total _ + _) = _
    rw [ves.veDelegatedAmount, ves.veDelegations]
    rfl
  | ves delegated delegation found' settled burnt settledAt drawnAt holdings left _ found known' settling reached drawing =>
    obtain rfl : validator = found' := Option.some.inj (known.symm.trans known')
    have names := keyed _ _ found
    obtain ⟨less, contributes⟩ := settling.surplus found names veId
    obtain ⟨table, _⟩ := drawing.table (names : Names ctx.world (delegation.settle validator) _)
    have blank : left.veShares = [] → tokensOf veId left = 0 := fun none => by simp [tokensOf, none]
    have amount := drawing.amounts veId
    have tokens := drawing.tokens veId
    rw [gainsAt, AList.share_of_lookup found, ← less, reached, Staking.surplus, Staking.surplus, heldBy, heldBy]
    change holdings.veDelegatedAmount veId - (holdings.veDelegations.total _ + settled.entries.veUnbondingDelegations.total _) = _
    rw [table, total_writeVeDelegation blank, contributes, amount]
    split <;> omega

/-- Unbonding keeps the records under their keys and touches no other record. -/
theorem Unbonded.keeps (keyed : Keyed ctx.world state.holdings) :
    Keyed ctx.world next.holdings ∧ ∀ other, other ≠ (delAddr, valAddr) →
      next.holdings.veDelegations.lookup other = state.holdings.veDelegations.lookup other := by
  cases unbonded with
  | coins absent holdings reached none ves =>
    have table : next.holdings.veDelegations = state.holdings.veDelegations := by
      rw [reached]
      exact ves.veDelegations
    refine ⟨fun key delegation found => ?_, fun other _ => by rw [table]⟩
    rw [table] at found
    exact keyed key delegation found
  | ves delegated delegation validator settled burnt settledAt drawnAt holdings left _ found known settling reached drawing =>
    have before := keyed _ _ found
    have names : Names ctx.world (delegation.settle validator) (delAddr, valAddr) := before
    have first := settling.table before
    obtain ⟨second, leftNames⟩ := drawing.table names
    have same : next.holdings = holdings := by
      rw [reached]
      rfl
    rw [same]
    refine ⟨(keyed.write first names).write second leftNames, fun other different => ?_⟩
    rw [second, lookup_writeVeDelegation other different, first, lookup_writeVeDelegation other different]

end Unbond

end Rotofury.Soundness.Staking
