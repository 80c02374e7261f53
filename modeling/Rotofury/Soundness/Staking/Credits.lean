import Rotofury.Soundness.Staking.ShareTotals

/-! # What a validator is credited with

`VeDelegate` adds every part of a delegation to the validator it was called with, not to the record that the part before
has stored. So the stored validator has the last part only, while the delegation has the shares of all parts.
-/

namespace Rotofury.Soundness.Staking

open Model.Sdk Model.App Model.Staking Except

variable {ctx : Ctx} {state next : State} {delAddr : Address} {validator : Validator} {start : Dec} {parts : List ℕ}
  {earlier last : ℕ} {locks : ℕ → Model.Ve.LockedBalance} {before after : Delegating}

/-- The amounts that are added one after the other. -/
def creditedParts (bondAmt : ℤ) (veTokens : List VeTokens) : List ℕ :=
  (if 0 < bondAmt - totalTokens veTokens then [(bondAmt - totalTokens veTokens).toNat] else []) ++
    veTokens.map (·.tokens)

theorem sum_eq_last (parts : List ℕ) : parts.sum = parts.dropLast.sum + parts.getLastD 0 := by
  rcases List.eq_nil_or_concat' parts with rfl | ⟨init, last, rfl⟩
  · rfl
  · rw [List.dropLast_concat, List.getLastD_concat, List.sum_append, List.sum_singleton]

/-- The store after some parts of a delegation that had `start` shares; `last` shares are for the last part. -/
structure Booked (delAddr : Address) (validator : Validator) (start : Dec) (parts : List ℕ) (earlier last : ℕ)
    (delegating : Delegating) : Prop where
  total : delegating.totalNewShares = earlier + last
  shares : delegating.shares = start + ⟨delegating.totalNewShares⟩
  delegation : (delegating.holdings.delegations (delAddr, validator.operatorAddress)).getD .zero = delegating.shares
  stored : ∃ stored, delegating.holdings.validators validator.operatorAddress = some stored ∧
    stored.tokens = validator.tokens + parts.getLastD 0 ∧ stored.delegatorShares = validator.delegatorShares + ⟨last⟩
  earlierNone : parts.dropLast.sum = 0 → earlier = 0
  lastNone : parts.getLastD 0 = 0 → last = 0

/-- A part of nothing gets no shares. -/
theorem issuedShares_zero {shares : ℕ} (ok : validator.issuedShares 0 = .ok shares) : shares = 0 := by
  unfold Validator.issuedShares Validator.sharesFromTokens at ok
  split at ok
  · exact (Except.ok.inj ok).symm.trans (Nat.zero_mul _)
  · split at ok
    · next issued =>
      simp only [ok_iffs] at issued
      obtain ⟨_, _, rfl⟩ := issued
      cases ok
      simp
    · cases ok

theorem addValidatorTokensAndShares_stored {holdings next : Holdings} {part shares : ℕ}
    (ok : holdings.addValidatorTokensAndShares validator part = .ok (next, shares)) :
    ∃ stored, next.validators validator.operatorAddress = some stored ∧
      stored.tokens = validator.tokens + part ∧ stored.delegatorShares = validator.delegatorShares + ⟨shares⟩ := by
  simp only [Holdings.addValidatorTokensAndShares, ok_iffs, Prod.mk.injEq] at ok
  obtain ⟨⟨added, _⟩, adding, rfl, rfl⟩ := ok
  unfold Validator.addTokensFromDel at adding
  split at adding
  · cases adding
  · cases adding
    exact ⟨_, Function.update_self .., rfl, rfl⟩

section

variable (booked : Booked delAddr validator start parts earlier last before)
include booked

/-- One more part is written over the one before. -/
theorem Booked.add {holdings next : Holdings} {part newShares : ℕ}
    (added : holdings.addValidatorTokensAndShares validator part = .ok (next, newShares))
    (validators : after.holdings.validators = next.validators) (shares : after.shares = before.shares + ⟨newShares⟩)
    (delegation : after.holdings.delegations (delAddr, validator.operatorAddress) = some after.shares)
    (total : after.totalNewShares = before.totalNewShares + newShares) :
    Booked delAddr validator start (parts ++ [part]) (earlier + last) newShares after := by
  refine ⟨by rw [total, booked.total], ?_, by rw [delegation]; rfl, ?_, ?_, ?_⟩
  · rw [shares, booked.shares, total]
    exact congrArg Dec.mk (by simp only [Dec.raw_add]; push_cast; ring)
  · rw [validators, List.getLastD_concat]
    exact addValidatorTokensAndShares_stored added
  · rw [List.dropLast_concat, sum_eq_last]
    intro none
    rw [booked.earlierNone (by omega), booked.lastNone (by omega)]
  · rw [List.getLastD_concat]
    rintro rfl
    exact issuedShares_zero (addValidatorTokensAndShares_ok added).1

theorem Booked.delegateVe {veTokens : VeTokens}
    (ok : delegateVe ctx locks delAddr validator before veTokens = .ok after) :
    ∃ earlier last, Booked delAddr validator start (parts ++ [veTokens.tokens]) earlier last after := by
  simp only [Model.Staking.delegateVe, Holdings.setVeDelegation, ok_iffs] at ok
  obtain ⟨_, _, _, _, _, _, ⟨_, newShares⟩, added, _, ⟨_, _, rfl⟩, rfl⟩ := ok
  exact ⟨earlier + last, newShares, booked.add added rfl rfl (Function.update_self ..) rfl⟩

theorem Booked.delegateVes {veTokens : List VeTokens}
    (ok : veTokens.foldlM (Model.Staking.delegateVe ctx locks delAddr validator) before = .ok after) :
    ∃ earlier last, Booked delAddr validator start (parts ++ veTokens.map (·.tokens)) earlier last after := by
  induction veTokens generalizing parts earlier last before with
  | nil =>
    cases ok
    exact ⟨earlier, last, by simpa using booked⟩
  | cons head rest ih =>
    obtain ⟨middle, first, later⟩ := foldlM_cons_ok_iff.mp ok
    obtain ⟨_, _, next⟩ := booked.delegateVe first
    simpa using ih next later

end

theorem delegateUnconstrained_booked {unconstrainedAmt : ℤ} {tokenSrc : BondStatus} {subtractAccount : Bool}
    {veDelegation : VeDelegation} {bank : Bank}
    (stored : state.holdings.validators validator.operatorAddress = some validator)
    (same : (state.holdings.delegations (delAddr, validator.operatorAddress)).getD .zero = start)
    (ok : delegateUnconstrained ctx state delAddr unconstrainedAmt tokenSrc validator subtractAccount veDelegation start =
      .ok (bank, after)) :
    ∃ earlier last, Booked delAddr validator start
      (if 0 < unconstrainedAmt then [unconstrainedAmt.toNat] else []) earlier last after := by
  have begun : Booked delAddr validator start [] 0 0 ⟨state.holdings, start, veDelegation, 0⟩ :=
    ⟨rfl, congrArg Dec.mk (add_zero _).symm, same, ⟨validator, stored, rfl, congrArg Dec.mk (add_zero _).symm⟩,
      fun _ => rfl, fun _ => rfl⟩
  unfold delegateUnconstrained at ok
  split at ok
  · next positive =>
    simp only [ok_iffs, Prod.mk.injEq] at ok
    obtain ⟨_, _, ⟨_, newShares⟩, added, _, rfl⟩ := ok
    rw [if_pos positive]
    exact ⟨_, newShares, begun.add added rfl rfl (Function.update_self ..) (Nat.zero_add _).symm⟩
  · next none =>
    cases ok
    rw [if_neg none]
    exact ⟨0, 0, begun⟩

/-- Opening the ve delegation leaves validators and delegations alone. -/
theorem openVeDelegation_same {opened : State} {veDelegation : VeDelegation}
    (opening : openVeDelegation ctx state delAddr validator = .ok (opened, veDelegation)) :
    opened.holdings.validators = state.holdings.validators ∧
      opened.holdings.delegations = state.holdings.delegations := by
  unfold openVeDelegation at opening
  split at opening
  · cases opening
    exact ⟨rfl, rfl⟩
  · obtain ⟨_, _, burnt, settled⟩ := settleVeDelegation_settled opening
    have same := settled.burned.holdings
    rw [settled.written]
    exact ⟨(congrArg Holdings.validators same :), (congrArg Holdings.delegations same :)⟩

theorem addVeDelegatorShares_same (holdings : Holdings) (valAddr : Address) (newShares : ℕ) :
    (addVeDelegatorShares holdings valAddr newShares).validators = holdings.validators ∧
      (addVeDelegatorShares holdings valAddr newShares).delegations = holdings.delegations := by
  unfold addVeDelegatorShares
  split <;> exact ⟨rfl, rfl⟩

/-- The stored validator has gained the whole amount and the new shares, as has the delegation. -/
def CreditedInFull (state next : State) (delAddr : Address) (validator : Validator) (bondAmt : ℤ) (newShares : ℕ) : Prop :=
  (∃ stored, next.holdings.validators validator.operatorAddress = some stored ∧
    stored.tokens = validator.tokens + bondAmt ∧ stored.delegatorShares = validator.delegatorShares + ⟨newShares⟩) ∧
  (next.holdings.delegations (delAddr, validator.operatorAddress)).getD .zero =
    (state.holdings.delegations (delAddr, validator.operatorAddress)).getD .zero + ⟨newShares⟩

theorem sum_creditedParts {bondAmt : ℤ} {veTokens : List VeTokens} (atMost : totalTokens veTokens ≤ bondAmt) :
    ((creditedParts bondAmt veTokens).sum : ℤ) = bondAmt := by
  have ves : (veTokens.map (·.tokens)).sum = totalTokens veTokens := rfl
  unfold creditedParts
  split <;> simp only [List.sum_append, List.sum_singleton, List.sum_nil, ves] <;> omega

/-- A validator is credited in full exactly when no part but the last is for anything. -/
theorem creditedInFull_iff {ctx : Ctx} {state next : State} {delAddr : Address} {bondAmt : ℤ} {veTokens : List VeTokens}
    {tokenSrc : BondStatus} {validator : Validator} {subtractAccount : Bool} {newShares : ℕ}
    (stored : state.holdings.validators validator.operatorAddress = some validator)
    (atMost : totalTokens veTokens ≤ bondAmt)
    (success : veDelegate ctx state delAddr bondAmt veTokens tokenSrc validator subtractAccount = .ok (next, newShares)) :
    CreditedInFull state next delAddr validator bondAmt newShares ↔
      ∀ part ∈ (creditedParts bondAmt veTokens).dropLast, part = 0 := by
  simp only [veDelegate, ok_iffs, Prod.mk.injEq] at success
  obtain ⟨_, _, ⟨opened, _⟩, opening, ⟨_, delegating⟩, coins, delegated, loop, rfl, rfl⟩ := success
  obtain ⟨sameValidators, sameDelegations⟩ := openVeDelegation_same opening
  obtain ⟨_, _, first⟩ := delegateUnconstrained_booked (by rw [sameValidators, stored]) (by rw [sameDelegations]) coins
  obtain ⟨earlier, last, booked⟩ : ∃ earlier last, Booked delAddr validator _ (creditedParts bondAmt veTokens) earlier last
    delegated := first.delegateVes loop
  obtain ⟨kept, isKept, tokens, shares⟩ := booked.stored
  obtain ⟨keptValidators, keptDelegations⟩ := addVeDelegatorShares_same delegated.holdings validator.operatorAddress
    delegated.totalNewShares
  have parts := sum_eq_last (creditedParts bondAmt veTokens)
  have whole := sum_creditedParts atMost
  rw [← List.sum_eq_zero_iff]
  constructor
  · rintro ⟨⟨other, isOther, full, _⟩, _⟩
    obtain rfl := Option.some.inj (isKept.symm.trans ((congrFun keptValidators _).symm.trans isOther))
    omega
  · intro none
    have total := booked.total
    rw [booked.earlierNone none, Nat.zero_add] at total
    refine ⟨⟨kept, (congrFun keptValidators _).trans isKept, by omega, by rw [shares, total]⟩, ?_⟩
    exact (congrArg (Option.getD · Dec.zero) (congrFun keptDelegations _)).trans
      (booked.delegation.trans booked.shares)

theorem creditedInFull_sample :
    ∃ next, veDelegate sampleCtx sampleMixed 1 2 [⟨1, 2⟩] .bonded sampleValidator false = .ok (next, 2 * 10 ^ 18) ∧
      CreditedInFull sampleMixed next 1 sampleValidator 2 (2 * 10 ^ 18) := by
  have run : Prod.snd <$> veDelegate sampleCtx sampleMixed 1 2 [⟨1, 2⟩] .bonded sampleValidator false =
      .ok (2 * 10 ^ 18) := by decide +kernel
  obtain ⟨⟨next, _⟩, success, rfl⟩ := map_ok_iff.mp run
  exact ⟨next, success, (creditedInFull_iff rfl (by decide) success).mpr (by decide)⟩

/-- Three coins and two tokens of a ve are delegated to a validator with two tokens, which has four then. -/
theorem last_part_credited :
    ∃ next, veDelegate sampleCtx sampleMixed 1 5 [⟨1, 2⟩] .bonded sampleValidator false = .ok (next, 5 * 10 ^ 18) ∧
      (next.holdings.validators 9).map (·.tokens) = some 4 ∧
        ¬ CreditedInFull sampleMixed next 1 sampleValidator 5 (5 * 10 ^ 18) := by
  have run : (fun result => (result.2, (result.1.holdings.validators 9).map (·.tokens))) <$>
      veDelegate sampleCtx sampleMixed 1 5 [⟨1, 2⟩] .bonded sampleValidator false = .ok (5 * 10 ^ 18, some 4) := by
    decide +kernel
  obtain ⟨⟨next, _⟩, success, facts⟩ := map_ok_iff.mp run
  obtain ⟨rfl, tokens⟩ := Prod.mk.inj facts
  refine ⟨next, success, tokens, ?_⟩
  rintro ⟨⟨stored, isStored, full, _⟩, _⟩
  obtain ⟨other, isOther, four⟩ := Option.map_eq_some_iff.mp tokens
  obtain rfl := Option.some.inj (isOther.symm.trans isStored)
  rw [four] at full
  exact absurd full (by decide)

end Rotofury.Soundness.Staking
