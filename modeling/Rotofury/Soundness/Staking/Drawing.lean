import Rotofury.Soundness.Staking.Delegating

/-! # What unbonding writes

Shares are drawn from the ves of a settled delegation. A ve that gives all its shares gives all its tokens with them, so
the tokens that go and the tokens that stay add up to those on record, and so do the shares.
-/

namespace Rotofury.Soundness.Staking

open Model.Sdk Model.App Model.Staking Except

variable {validator : Validator} {updateVeAmt : Bool} {holdings next : Holdings} {delAddr valAddr : Address}
  {shares delegated : Dec} {amount : ℤ} {ctx : Ctx} {veTokens : List VeTokens} {state : State}

theorem worth_zero (validator : Validator) : validator.worth 0 = 0 := by
  rcases valued : validator.wholeTokensFromShares 0 with fault | tokens
  · simp [Validator.worth, valued, Except.toOption]
  · rw [Validator.worth_of_ok valued]
    simp only [Validator.wholeTokensFromShares, ok_iffs] at valued
    obtain ⟨value, ok, rfl⟩ := valued
    have nonzero := Validator.shares_ne_zero ok
    simp only [Validator.tokensFromShares, Dec.mulInt, Dec.quo, Dec.scaledQuo, if_neg nonzero, Nat.cast_zero, zero_mul,
      Int.zero_tdiv, ok_bind, pure_ok_iff] at ok
    rw [← ok]
    decide

section Draw

variable {validator : Validator}

/-- The record says what the shares are worth. -/
def AtWorth (validator : Validator) (veShares : List VeShares) : Prop :=
  ∀ shares ∈ veShares, shares.tokensMayUnsettled = validator.worth shares.shares

theorem settle_atWorth (validator : Validator) (delegation : VeDelegation) :
    AtWorth validator (delegation.settle validator).veShares := by
  intro shares inside
  obtain ⟨old, _, rfl⟩ := List.mem_map.mp inside
  rfl

theorem leftShares_tokens {shares : VeShares} {minShares : ℕ} (bounded : minShares ≤ shares.shares)
    (atWorth : shares.tokensMayUnsettled = validator.worth shares.shares) (veId : ℕ) :
    ((leftShares validator (shares, minShares)).toList.map fun left => onVe left.veId left.tokensMayUnsettled veId).sum =
      onVe shares.veId shares.tokensMayUnsettled veId - onVe shares.veId (takenTokens validator (shares, minShares)) veId := by
  unfold leftShares
  split
  · next all =>
    -- everything goes: the tokens are worth exactly the shares drawn
    have same : minShares = shares.shares := by
      dsimp only at all
      omega
    have taken : (takenTokens validator (shares, minShares) : ℤ) = shares.tokensMayUnsettled := by
      rw [atWorth, same, takenTokens]
      split
      · rfl
      · next none =>
        have zero : shares.shares = 0 := by
          dsimp only at none
          omega
        rw [zero, worth_zero]
    rw [taken]
    simp
  · simp [onVe_sub]

theorem draw_tokens {veShares : List VeShares} (atWorth : AtWorth validator veShares) (remaining veId : ℕ) :
    (((draw remaining veShares).left validator).map fun left => onVe left.veId left.tokensMayUnsettled veId).sum =
      (veShares.map fun shares => onVe shares.veId shares.tokensMayUnsettled veId).sum -
        ((draw remaining veShares).taken.map fun take => onVe take.1.veId (takenTokens validator take) veId).sum := by
  induction veShares generalizing remaining with
  | nil => simp [draw, Drawing.left]
  | cons shares rest ih =>
    obtain ⟨here, later⟩ := List.forall_mem_cons.mp atWorth
    unfold draw
    split
    · simp [Drawing.left]
    · have step := ih later (remaining - min remaining shares.shares)
      have first := leftShares_tokens (min_le_right remaining shares.shares) here veId
      simp only [Drawing.left, List.filterMap_eq_flatMap_toList, List.flatMap_cons, List.map_append, List.sum_append,
        List.map_cons, List.sum_cons, first] at step ⊢
      linarith

theorem leftShares_shares (shares : VeShares) (minShares : ℕ) :
    ((leftShares validator (shares, minShares)).toList.map (·.shares)).sum = shares.shares - minShares := by
  unfold leftShares
  split
  · next none =>
    dsimp only at none
    simp [none]
  · simp

/-- The shares that go are those to be drawn, but for what is not found. -/
theorem draw_shares (validator : Validator) (remaining : ℕ) (veShares : List VeShares) :
    (((draw remaining veShares).left validator).map (·.shares)).sum + remaining =
      (veShares.map (·.shares)).sum + (draw remaining veShares).remaining := by
  induction veShares generalizing remaining with
  | nil => simp [draw, Drawing.left]
  | cons shares rest ih =>
    unfold draw
    split
    · next none => simp [Drawing.left, none]
    · have step := ih (remaining - min remaining shares.shares)
      have first := @leftShares_shares validator shares (min remaining shares.shares)
      simp only [Drawing.left, List.filterMap_eq_flatMap_toList, List.flatMap_cons, List.map_append, List.sum_append,
        List.map_cons, List.sum_cons, first] at step ⊢
      omega

theorem tokensIn_veTokens (drawing : Drawing) (validator : Validator) (veId : ℕ) :
    tokensIn veId (drawing.veTokens validator) =
      (drawing.taken.map fun take => onVe take.1.veId (takenTokens validator take) veId).sum := by
  unfold Drawing.veTokens
  induction drawing.taken with
  | nil => rfl
  | cons take rest ih =>
    rw [List.filterMap_cons, List.map_cons, List.sum_cons, ← ih, takenTokens]
    split_ifs with some
    · simp
    · simp

end Draw

theorem takeShares_ok {take : VeShares × ℕ} (ok : takeShares validator updateVeAmt holdings take = .ok next) :
    next.veValidators = holdings.veValidators ∧ next.veDelegations = holdings.veDelegations ∧
      ∀ veId, next.veDelegatedAmount veId = holdings.veDelegatedAmount veId -
        if updateVeAmt then onVe take.1.veId (takenTokens validator take) veId else 0 := by
  simp only [takeShares, drawnTokens, ok_iffs] at ok
  obtain ⟨amt, drawn, _, _, rfl⟩ := ok
  have amount : takenTokens validator take = amt := by
    unfold takenTokens
    split at drawn
    · next some => rw [if_pos some, Validator.worth_of_ok drawn]
    · next none =>
      cases drawn
      rw [if_neg none]
  rw [amount]
  cases updateVeAmt with
  | false => exact ⟨rfl, rfl, fun veId => (sub_zero _).symm⟩
  | true =>
    refine ⟨rfl, rfl, fun veId => ?_⟩
    simp only [Holdings.subVeDelegatedAmount, Holdings.setVeDelegatedAmount, Function.update_apply, onVe, if_true]
    split
    · next same => rw [same]
    · rw [sub_zero]

theorem takeAll_ok {drawing : Drawing}
    (ok : drawing.taken.foldlM (takeShares validator updateVeAmt) holdings = .ok next) :
    next.veValidators = holdings.veValidators ∧ next.veDelegations = holdings.veDelegations ∧
      ∀ veId, next.veDelegatedAmount veId = holdings.veDelegatedAmount veId -
        if updateVeAmt then tokensIn veId (drawing.veTokens validator) else 0 := by
  simp only [tokensIn_veTokens]
  generalize drawing.taken = taken at ok ⊢
  induction taken generalizing holdings with
  | nil =>
    cases ok
    refine ⟨rfl, rfl, fun veId => ?_⟩
    split <;> simp
  | cons take rest ih =>
    obtain ⟨middle, first, later⟩ := foldlM_cons_ok_iff.mp ok
    obtain ⟨validators, delegations, amounts⟩ := takeShares_ok first
    obtain ⟨laterValidators, laterDelegations, laterAmounts⟩ := ih later
    refine ⟨laterValidators.trans validators, laterDelegations.trans delegations, fun veId => ?_⟩
    rw [laterAmounts, amounts, List.map_cons, List.sum_cons]
    split <;> ring

theorem jailBelowMinimum_ok {jailed : Validator}
    (ok : holdings.jailBelowMinimum delAddr validator shares = .ok (next, jailed)) :
    SameVes holdings next ∧ jailed.operatorAddress = validator.operatorAddress ∧ jailed.status = validator.status ∧
      jailed.delegatorShares = validator.delegatorShares ∧ jailed.worth = validator.worth := by
  unfold Holdings.jailBelowMinimum at ok
  split at ok
  · simp only [bind_ok_iff] at ok
    obtain ⟨value, _, ok⟩ := ok
    split at ok
    · cases ok
      exact ⟨⟨rfl, rfl, rfl⟩, rfl, rfl, rfl, rfl⟩
    · cases ok
      exact ⟨.refl _, rfl, rfl, rfl, rfl⟩
  · cases ok
    exact ⟨.refl _, rfl, rfl, rfl, rfl⟩

theorem removeDelShares_ok {next : Validator} (ok : validator.removeDelShares shares = .ok (next, amount)) :
    next.operatorAddress = validator.operatorAddress ∧ next.status = validator.status ∧
      next.delegatorShares = validator.delegatorShares - shares := by
  unfold Validator.removeDelShares at ok
  split at ok
  · cases ok
    exact ⟨rfl, rfl, rfl⟩
  · split at ok
    · cases ok
    · split at ok
      · cases ok
        exact ⟨rfl, rfl, rfl⟩
      · cases ok

theorem removeValidatorTokensAndShares_ok {removed : Validator}
    (ok : holdings.removeValidatorTokensAndShares validator shares = .ok (next, removed, amount)) :
    SameVes holdings next ∧ removed.operatorAddress = validator.operatorAddress ∧ removed.status = validator.status ∧
      removed.delegatorShares = validator.delegatorShares - shares := by
  simp only [Holdings.removeValidatorTokensAndShares, ok_iffs, Prod.mk.injEq] at ok
  obtain ⟨⟨validator', tokens⟩, removal, rfl, rfl, rfl⟩ := ok
  exact ⟨⟨rfl, rfl, rfl⟩, removeDelShares_ok removal⟩

theorem storeDelegation_sameVes (holdings : Holdings) (pair : DvPair) (shares : Dec) :
    SameVes holdings (holdings.storeDelegation pair shares) := by
  unfold Holdings.storeDelegation
  split <;> exact ⟨rfl, rfl, rfl⟩

/-- The ve shares of a validator on record. -/
def veSharesOf (holdings : Holdings) (valAddr : Address) : ℤ := ((holdings.veValidators valAddr).getD .zero).raw

/-- An unbonded validator that loses these shares has none left. -/
def Emptied (validator : Validator) (shares : Dec) : Prop :=
  (validator.delegatorShares - shares).isZero ∧ validator.status = .unbonded

instance (validator : Validator) (shares : Dec) : Decidable (Emptied validator shares) :=
  inferInstanceAs (Decidable (_ ∧ _))

theorem removeVeDelegatorShares_ok {totalVeShares : ℕ}
    (ok : holdings.removeVeDelegatorShares validator totalVeShares = .ok next) :
    next.veDelegations = holdings.veDelegations ∧ next.veDelegatedAmount = holdings.veDelegatedAmount ∧
      ∀ query, veSharesOf next query = if query = validator.operatorAddress then
        if validator.delegatorShares.isZero ∧ validator.status = .unbonded then 0
        else veSharesOf holdings query - totalVeShares
      else veSharesOf holdings query := by
  unfold Holdings.removeVeDelegatorShares at ok
  split at ok
  · next emptied =>
    cases ok
    refine ⟨rfl, rfl, fun query => ?_⟩
    simp only [veSharesOf, Holdings.removeVeValidator, Holdings.removeValidator, Function.update_apply, if_pos emptied]
    split <;> rfl
  · next kept =>
    split at ok
    · dsimp only at ok
      split at ok
      · cases ok
      · next shares found =>
        simp only [ok_iffs] at ok
        obtain ⟨_, _, rfl⟩ := ok
        refine ⟨rfl, rfl, fun query => ?_⟩
        simp only [veSharesOf, Holdings.setVeValidator, Function.update_apply, if_neg kept]
        split
        · next same =>
          rw [same, found]
          rfl
        · rfl
    · next none =>
      cases ok
      have zero : totalVeShares = 0 := by omega
      refine ⟨rfl, rfl, fun query => ?_⟩
      simp only [zero, if_neg kept, Nat.cast_zero, sub_zero, ite_self]

/-- The shares an unbonding takes from the ves of a delegation: those beyond the shares of coins. -/
def veSharesDrawn (delegation : VeDelegation) (delegated shares : Dec) : ℕ :=
  (shares - (delegated - ⟨delegation.shares⟩)).raw.toNat

/-- What an unbonding from a settled ve delegation writes. -/
structure VesDrawn (ctx : Ctx) (holdings : Holdings) (delegation : VeDelegation) (validator : Validator)
    (delegated shares : Dec) (updateVeAmt : Bool) (next : Holdings) (veTokens : List VeTokens) (valAddr : Address)
    (left : VeDelegation) : Prop where
  address : ctx.world.valAddressFromBech32 delegation.validatorAddress = some valAddr
  delegatorAddress : left.delegatorAddress = delegation.delegatorAddress
  validatorAddress : left.validatorAddress = delegation.validatorAddress
  veDelegations : next.veDelegations = writeVeDelegation holdings.veDelegations (delegation.delegatorAddress, valAddr)
    (left.veShares = []) left
  amounts : ∀ veId, next.veDelegatedAmount veId = holdings.veDelegatedAmount veId -
    if updateVeAmt then tokensIn veId veTokens else 0
  tokens : ∀ veId, tokensOf veId left = tokensOf veId delegation - tokensIn veId veTokens
  total : left.shares + veSharesDrawn delegation delegated shares = delegation.shares
  veValidators : ∀ query, veSharesOf next query = if query = validator.operatorAddress then
      if Emptied validator shares then 0 else veSharesOf holdings query - veSharesDrawn delegation delegated shares
    else veSharesOf holdings query

theorem unbondSettled_ok {delegation : VeDelegation} (atWorth : AtWorth validator delegation.veShares)
    (ok : unbondSettled ctx holdings delAddr valAddr delegated shares updateVeAmt delegation validator =
      .ok (next, amount, veTokens)) :
    ∃ valAddr left, VesDrawn ctx holdings delegation validator delegated shares updateVeAmt next veTokens valAddr left := by
  simp only [unbondSettled, ok_iffs, Prod.mk.injEq] at ok
  obtain ⟨⟨inJail, jailed⟩, jailing, taken, taking, written, writing, _, found, ⟨reduced, removed, _⟩, removing, final,
    ending, rfl, _, rfl⟩ := ok
  obtain ⟨jailVes, operator, status, held, worth⟩ := jailBelowMinimum_ok jailing
  obtain ⟨takenValidators, takenDelegations, takenAmounts⟩ := takeAll_ok taking
  obtain ⟨address, parsed, rfl⟩ := storeVeDelegation_ok writing
  obtain ⟨removeVes, removedOperator, removedStatus, removedShares⟩ := removeValidatorTokensAndShares_ok removing
  obtain ⟨endDelegations, endAmounts, endValidators⟩ := removeVeDelegatorShares_ok ending
  have stored := (storeDelegation_sameVes _ _ _).trans removeVes
  have stillAtWorth : AtWorth jailed delegation.veShares := by
    intro part inside
    rw [worth]
    exact atWorth part inside
  refine ⟨address, delegation.drawn jailed (veSharesDrawn delegation delegated shares), parsed, rfl, rfl, ?_, fun veId => ?_,
    fun veId => ?_, ?_, fun query => ?_⟩
  · rw [endDelegations, stored.veDelegations, takenDelegations, jailVes.veDelegations]
    rfl
  · rw [endAmounts, stored.veDelegatedAmount, takenAmounts, jailVes.veDelegatedAmount]
  · have sum := draw_tokens stillAtWorth (veSharesDrawn delegation delegated shares) veId
    rw [← tokensIn_veTokens] at sum
    exact sum
  · have sum := draw_shares jailed (veSharesDrawn delegation delegated shares) delegation.veShares
    rw [show (draw (veSharesDrawn delegation delegated shares) delegation.veShares).remaining = 0 from found] at sum
    exact sum
  · have validators : veSharesOf reduced query = veSharesOf holdings query := by
      rw [veSharesOf, stored.veValidators, takenValidators, jailVes.veValidators]
      rfl
    rw [endValidators, removedOperator, operator, removedShares, held, removedStatus, status, validators]
    rfl

/-- The two ways of unbonding. -/
inductive Unbonded (ctx : Ctx) (state : State) (delAddr valAddr : Address) (shares : Dec) (updateVeAmt : Bool) (next : State)
    (veTokens : List VeTokens) : Prop where
  | coins (absent : state.holdings.veDelegations.lookup (delAddr, valAddr) = none) (holdings : Holdings)
      (reached : next = state.setHoldings holdings) (none : veTokens = []) (ves : SameVes state.holdings holdings)
  | ves (delegated : Dec) (delegation : VeDelegation) (validator : Validator) (settled burnt : State)
      (settledAt drawnAt : Address) (holdings : Holdings) (left : VeDelegation)
      (delegatedShares : state.holdings.delegations (delAddr, valAddr) = some delegated)
      (found : state.holdings.veDelegations.lookup (delAddr, valAddr) = some delegation)
      (known : state.holdings.validators valAddr = some validator)
      (settling : Settled ctx state delegation validator settled settledAt burnt)
      (reached : next = settled.setHoldings holdings)
      (drawing : VesDrawn ctx settled.holdings (delegation.settle validator) validator delegated shares updateVeAmt holdings
        veTokens drawnAt left)

theorem unbondCoins_sameVes (ok : unbondCoins holdings delAddr valAddr delegated shares = .ok (next, amount)) :
    SameVes holdings next := by
  simp only [unbondCoins, ok_iffs, Prod.mk.injEq] at ok
  obtain ⟨_, _, validator, _, ⟨inJail, jailed⟩, jailing, ⟨reduced, removed, _⟩, removing, rfl, _⟩ := ok
  have jailVes := (jailBelowMinimum_ok jailing).1
  have removeVes := (removeValidatorTokensAndShares_ok removing).1
  have dropped : SameVes reduced (reduced.dropEmptyValidator removed) := by
    unfold Holdings.dropEmptyValidator
    split <;> exact ⟨rfl, rfl, rfl⟩
  exact (jailVes.trans (storeDelegation_sameVes _ _ _)).trans (removeVes.trans dropped)

theorem Unbonded.entries {next : State}
    (unbonded : Unbonded ctx state delAddr valAddr shares updateVeAmt next veTokens) :
    next.entries = state.entries := by
  cases unbonded with
  | coins _ holdings reached _ _ =>
    rw [reached]
    rfl
  | ves _ delegation validator settled burnt settledAt drawnAt holdings left _ _ _ settling reached _ =>
    rw [reached, settling.written]
    exact settling.burned.entries

theorem unbond_known {result : State × ℤ × List VeTokens}
    (ok : unbond ctx state delAddr valAddr shares updateVeAmt = .ok result) :
    ∃ validator, state.holdings.validators valAddr = some validator := by
  simp only [unbond, bind_ok_iff] at ok
  obtain ⟨delegated, _, ok⟩ := ok
  split at ok
  · simp only [unbondCoins, bind_ok_iff, Holdings.validator_ok_iff] at ok
    obtain ⟨_, ⟨_, _, validator, known, _⟩, _⟩ := ok
    exact ⟨validator, known⟩
  · simp only [bind_ok_iff, Holdings.validator_ok_iff] at ok
    obtain ⟨_, _, validator, known, _⟩ := ok
    exact ⟨validator, known⟩

theorem unbond_unbonded {next : State}
    (ok : unbond ctx state delAddr valAddr shares updateVeAmt = .ok (next, amount, veTokens)) :
    Unbonded ctx state delAddr valAddr shares updateVeAmt next veTokens := by
  simp only [unbond, bind_ok_iff, Holdings.delegation_ok_iff] at ok
  obtain ⟨delegated, delegatedShares, ok⟩ := ok
  split at ok
  · next absent =>
    simp only [ok_iffs, Prod.mk.injEq] at ok
    obtain ⟨⟨holdings, _⟩, unbonded, rfl, _, rfl⟩ := ok
    exact .coins absent holdings rfl rfl (unbondCoins_sameVes unbonded)
  · next delegation found =>
    simp only [ok_iffs, Holdings.validator_ok_iff, Prod.mk.injEq] at ok
    obtain ⟨_, _, validator, known, ⟨settled, record⟩, settling, ⟨holdings, _, _⟩, drawing, rfl, _, rfl⟩ := ok
    obtain ⟨rfl, settledAt, burnt, settling⟩ := settleVeDelegation_settled settling
    obtain ⟨drawnAt, left, drawing⟩ := unbondSettled_ok (settle_atWorth validator delegation) drawing
    exact .ves delegated delegation validator settled burnt settledAt drawnAt holdings left delegatedShares found known
      settling rfl drawing

end Rotofury.Soundness.Staking
