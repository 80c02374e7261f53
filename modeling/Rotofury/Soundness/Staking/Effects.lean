import Rotofury.Model.Staking.Slash
import Rotofury.ToMathlib.ExceptFold

/-! # What the steps of a delegation do

Burning from ves lowers what they have delegated and what they have locked by the same amounts and touches nothing else;
the other lemmas say what settling, delegating and unbonding write, so that no later proof unfolds them.
-/

namespace Rotofury.Soundness.Staking

open Model.Sdk Model.App Model.Staking Except

variable {veId : ℕ} {state next : State} {ctx : Ctx} {validator : Validator} {delegation : VeDelegation}

/-- An amount that falls on one ve. -/
def onVe (veId : ℕ) (amount : ℤ) (query : ℕ) : ℤ := if query = veId then amount else 0

@[simp] theorem onVe_self (veId : ℕ) (amount : ℤ) : onVe veId amount veId = amount := if_pos rfl

@[simp]
theorem onVe_zero (veId query : ℕ) : onVe veId 0 query = 0 := by
  unfold onVe
  split <;> rfl

theorem onVe_nonneg {query : ℕ} {amount : ℤ} (nonneg : 0 ≤ amount) : 0 ≤ onVe veId amount query := by
  unfold onVe
  split <;> omega

theorem onVe_sub (veId query : ℕ) (left right : ℤ) : onVe veId (left - right) query = onVe veId left query - onVe veId right query := by
  unfold onVe
  split <;> omega

theorem onVe_add (veId query : ℕ) (left right : ℤ) : onVe veId (left + right) query = onVe veId left query + onVe veId right query := by
  unfold onVe
  split <;> omega

/-- Amounts were burned from ves: they have that much less delegated and locked, and nothing else has changed but the
bank and the history of the locks. -/
structure Burned (state next : State) (burned : ℕ → ℤ) : Prop where
  entries : next.entries = state.entries
  holdings : next.holdings = { state.holdings with
    veDelegatedAmount := fun veId => state.holdings.veDelegatedAmount veId - burned veId }
  locked : ∀ veId, (next.ve.store.lockedAmountByUser veId).amount =
    (state.ve.store.lockedAmountByUser veId).amount - burned veId
  endTime : ∀ veId, (next.ve.store.lockedAmountByUser veId).endTime = (state.ve.store.lockedAmountByUser veId).endTime
  nonneg : ∀ veId, 0 ≤ burned veId

namespace Burned

theorem refl (state : State) : Burned state state fun _ => 0 where
  entries := rfl
  holdings := by simp
  locked := by simp
  endTime _ := rfl
  nonneg _ := le_rfl

theorem trans {middle : State} {first second : ℕ → ℤ} (before : Burned state middle first)
    (after : Burned middle next second) : Burned state next fun veId => first veId + second veId where
  entries := after.entries.trans before.entries
  holdings := by
    rw [after.holdings, before.holdings]
    simp only [sub_sub]
  locked veId := by
    rw [after.locked, before.locked]
    ring
  endTime veId := (after.endTime veId).trans (before.endTime veId)
  nonneg veId := add_nonneg (before.nonneg veId) (after.nonneg veId)

theorem amount {burned : ℕ → ℤ} (effect : Burned state next burned) (veId : ℕ) :
    next.holdings.veDelegatedAmount veId = state.holdings.veDelegatedAmount veId - burned veId := by
  rw [effect.holdings]

/-- A loop that burns in every turn burns the sum. -/
theorem foldlM {α : Type} {body : State → α → Except Fault State} {burned : α → ℕ → ℤ} {items : List α}
    (turn : ∀ before item after, body before item = .ok after → Burned before after (burned item))
    (ok : items.foldlM body state = .ok next) :
    Burned state next fun veId => (items.map fun item => burned item veId).sum := by
  induction items generalizing state with
  | nil =>
    cases ok
    exact refl _
  | cons item rest ih =>
    obtain ⟨middle, first, later⟩ := foldlM_cons_ok_iff.mp ok
    simp only [List.map_cons, List.sum_cons]
    exact (turn _ item middle first).trans (ih later)

end Burned

theorem slashVeDelegatedAmount_burned {burnAmount : ℤ}
    (ok : slashVeDelegatedAmount ctx state veId burnAmount = .ok next) :
    Burned state next (onVe veId (max burnAmount 0)) := by
  unfold slashVeDelegatedAmount at ok
  split at ok
  · next positive =>
    simp only [Model.Ve.slashLockedAmountByUser, ok_iffs] at ok
    obtain ⟨ve, ⟨coin, _, bank, _, history, _, rfl⟩, rfl⟩ := ok
    rw [max_eq_left positive.le]
    refine ⟨rfl, ?_, fun query => ?_, fun query => ?_, fun query => onVe_nonneg positive.le⟩
    · simp only [Holdings.subVeDelegatedAmount, Holdings.setVeDelegatedAmount]
      congr 1
      funext query
      simp only [Function.update_apply, onVe]
      split
      · next same => rw [same]
      · rw [sub_zero]
    all_goals
      simp only [Model.Ve.Store.setLockedAmountByUser, Function.update_apply, onVe]
      split
      · next same => rw [same]
      · simp
  · next none =>
    cases ok
    rw [max_eq_right (not_lt.mp none)]
    rw [show onVe veId 0 = fun _ => 0 from funext (onVe_zero veId)]
    exact Burned.refl state

/-- What the shares of a ve have lost since they were settled. -/
def lossOf (validator : Validator) (shares : VeShares) : ℤ :=
  max (shares.tokensMayUnsettled - validator.worth shares.shares) 0

theorem burnUnsettled_burned {shares : VeShares} (ok : burnUnsettled ctx validator state shares = .ok next) :
    Burned state next (onVe shares.veId (lossOf validator shares)) := by
  simp only [burnUnsettled, bind_ok_iff] at ok
  obtain ⟨tokens, valued, slashed⟩ := ok
  rw [lossOf, Validator.worth_of_ok valued]
  exact slashVeDelegatedAmount_burned slashed

/-- What a ve delegation has lost since it was settled, by ve. -/
def lossesOf (validator : Validator) (delegation : VeDelegation) (veId : ℕ) : ℤ :=
  (delegation.veShares.map fun shares => onVe shares.veId (lossOf validator shares) veId).sum

/-- The table of ve delegations after one of them was written; one without shares, or without ves, is removed. -/
def writeVeDelegation (records : AList fun _ : DvPair => VeDelegation) (key : DvPair) (empty : Prop) [Decidable empty]
    (delegation : VeDelegation) : AList fun _ : DvPair => VeDelegation :=
  if empty then records.erase key else records.insert key delegation

theorem storeVeDelegation_ok {holdings next : Holdings} {world : World} {empty : Prop} [Decidable empty]
    (ok : holdings.storeVeDelegation world empty delegation = .ok next) :
    ∃ valAddr, world.valAddressFromBech32 delegation.validatorAddress = some valAddr ∧
      next = { holdings with
        veDelegations := writeVeDelegation holdings.veDelegations (delegation.delegatorAddress, valAddr) empty delegation } := by
  unfold Holdings.storeVeDelegation at ok
  unfold writeVeDelegation
  split at ok
  · next none =>
    simp only [Holdings.removeVeDelegation, ok_iffs, mustValAddress_ok_iff] at ok
    obtain ⟨valAddr, address, rfl⟩ := ok
    exact ⟨valAddr, address, by rw [if_pos none]⟩
  · next some =>
    simp only [Holdings.setVeDelegation, ok_iffs, mustValAddress_ok_iff] at ok
    obtain ⟨valAddr, address, rfl⟩ := ok
    exact ⟨valAddr, address, by rw [if_neg some]⟩

/-- What settling a ve delegation does: losses are burned, and the settled record is written under the address in it. -/
structure Settled (ctx : Ctx) (state : State) (delegation : VeDelegation) (validator : Validator) (next : State)
    (valAddr : Address) (burnt : State) : Prop where
  burned : Burned state burnt (lossesOf validator delegation)
  address : ctx.world.valAddressFromBech32 delegation.validatorAddress = some valAddr
  written : next = burnt.setHoldings { burnt.holdings with
    veDelegations := writeVeDelegation state.holdings.veDelegations (delegation.delegatorAddress, valAddr)
      ((delegation.settle validator).shares = 0) (delegation.settle validator) }

theorem settleVeDelegation_settled {settled : VeDelegation}
    (ok : settleVeDelegation ctx state delegation validator = .ok (next, settled)) :
    settled = delegation.settle validator ∧
      ∃ valAddr burnt, Settled ctx state delegation validator next valAddr burnt := by
  simp only [settleVeDelegation, ok_iffs, Prod.mk.injEq] at ok
  obtain ⟨burnt, loop, holdings, write, rfl, rfl⟩ := ok
  have burned : Burned state burnt (lossesOf validator delegation) :=
    Burned.foldlM (fun _ _ _ turn => burnUnsettled_burned turn) loop
  have same : burnt.holdings.veDelegations = state.holdings.veDelegations := by rw [burned.holdings]
  obtain ⟨valAddr, address, rfl⟩ := storeVeDelegation_ok write
  refine ⟨rfl, valAddr, burnt, burned, address, ?_⟩
  rw [same]
  rfl

theorem burnFromVes_burned {amounts : BurnedAmounts} (ok : burnFromVesIn .listed ctx state amounts = .ok next) :
    Burned state next fun veId => max ((amounts.lookup veId).getD 0) 0 := by
  have burned : Burned state next fun veId => (amounts.entries.map fun entry => onVe entry.1 (max entry.2 0) veId).sum := by
    refine Burned.foldlM (fun before entry after turn => ?_) ok
    unfold burnEntry at turn
    split at turn
    · exact slashVeDelegatedAmount_burned turn
    · next none =>
      cases turn
      rw [max_eq_right (not_lt.mp none), show onVe entry.1 0 = fun _ => 0 from funext (onVe_zero entry.1)]
      exact Burned.refl before
  have same : (fun veId => (amounts.entries.map fun entry => onVe entry.1 (max entry.2 0) veId).sum) =
      fun veId => max ((amounts.lookup veId).getD 0) 0 := by
    funext veId
    have total : amounts.total (fun key amount => onVe key (max amount 0) veId) =
        amounts.share (fun key amount => onVe key (max amount 0) veId) veId :=
      AList.total_eq_share fun other amount different => if_neg different.symm
    refine total.trans ?_
    rcases found : amounts.lookup veId with _ | amount
    · rw [AList.share_of_absent found]
      rfl
    · rw [AList.share_of_lookup found, onVe_self]
      rfl
  rwa [same] at burned

section Sums

/-- The tokens of a ve in a list. -/
def tokensIn (veId : ℕ) (veTokens : List VeTokens) : ℤ := (veTokens.map fun vt => onVe vt.veId vt.tokens veId).sum

@[simp] theorem tokensIn_nil (veId : ℕ) : tokensIn veId [] = 0 := rfl

@[simp]
theorem tokensIn_cons (veId : ℕ) (head : VeTokens) (rest : List VeTokens) :
    tokensIn veId (head :: rest) = onVe head.veId head.tokens veId + tokensIn veId rest := by
  simp [tokensIn]

theorem tokensIn_nonneg (veId : ℕ) (veTokens : List VeTokens) : 0 ≤ tokensIn veId veTokens :=
  List.sum_nonneg (List.forall_mem_map.mpr fun _ _ => onVe_nonneg (Int.natCast_nonneg _))

/-- The tokens of a ve in a ve delegation. -/
def tokensOf (veId : ℕ) (delegation : VeDelegation) : ℤ :=
  (delegation.veShares.map fun shares => onVe shares.veId shares.tokensMayUnsettled veId).sum

variable (quantity : VeShares → ℤ)

/-- Writing the shares of a ve changes a sum by the difference to the ones it had. -/
theorem sum_replaceShares {veShares : List VeShares} (nodup : (veShares.map (·.veId)).Nodup) (shares : VeShares)
    (blank : quantity ⟨shares.veId, 0, 0⟩ = 0) :
    ((VeDelegation.replaceShares veShares shares).map quantity).sum = (veShares.map quantity).sum -
      quantity ((veShares.find? fun old => old.veId = shares.veId).getD ⟨shares.veId, 0, 0⟩) + quantity shares := by
  induction veShares with
  | nil => simp [VeDelegation.replaceShares, blank]
  | cons head rest ih =>
    obtain ⟨fresh, nodup⟩ := List.nodup_cons.mp nodup
    by_cases same : head.veId = shares.veId
    · -- the rest has no shares of this ve
      have kept : (rest.map fun old => if old.veId = shares.veId then shares else old) = rest := by
        refine (List.map_congr_left fun old inside => if_neg ?_).trans (List.map_id _)
        intro equal
        exact fresh (List.mem_map.mpr ⟨old, inside, equal.trans same.symm⟩)
      simp [VeDelegation.replaceShares, same, kept, add_comm]
    · have step := ih nodup
      have order : VeDelegation.replaceShares (head :: rest) shares =
          head :: VeDelegation.replaceShares rest shares := by
        unfold VeDelegation.replaceShares
        simp only [List.map_cons, List.mem_cons, Ne.symm same, false_or, same, if_false, List.cons_append]
        split <;> rfl
      rw [order, List.map_cons, List.sum_cons, step, List.map_cons, List.sum_cons,
        List.find?_cons_of_neg (by simpa using same)]
      ring

end Sums

theorem tokensOf_setSharesByVeId (veId : ℕ) (delegation : VeDelegation) (shares : VeShares) :
    tokensOf veId (delegation.setSharesByVeId shares) = tokensOf veId delegation -
      onVe shares.veId (delegation.getSharesByVeId shares.veId).tokensMayUnsettled veId +
        onVe shares.veId shares.tokensMayUnsettled veId := by
  have sum := sum_replaceShares (fun shares => onVe shares.veId shares.tokensMayUnsettled veId) delegation.nodup shares
    (onVe_zero _ _)
  refine sum.trans ?_
  congr 2
  rcases found : delegation.veShares.find? fun old => old.veId = shares.veId with _ | old
  · simp [VeDelegation.getSharesByVeId, found]
  · have same : old.veId = shares.veId := by simpa using List.find?_some found
    simp [VeDelegation.getSharesByVeId, found, same]

theorem shares_setSharesByVeId (delegation : VeDelegation) (shares : VeShares) :
    ((delegation.setSharesByVeId shares).shares : ℤ) = delegation.shares -
      (delegation.getSharesByVeId shares.veId).shares + shares.shares := by
  have sum := sum_replaceShares (fun shares => (shares.shares : ℤ)) delegation.nodup shares rfl
  simpa [VeDelegation.shares, VeDelegation.setSharesByVeId, VeDelegation.getSharesByVeId, List.map_map,
    Function.comp_def] using sum

end Rotofury.Soundness.Staking
