import Rotofury.Soundness.Staking.Balance

/-! # The ve shares of a validator

A validator has on record how many of its shares are held by ves, and a slash burns from the pools the fraction of the
others. Delegating adds all new shares to that number, those for coins included; unbonding drops the number when the
validator goes. So the number is the sum of the shares on record exactly where no coins are delegated along with the ves,
and where a validator goes only with the last of its ve shares.
-/

namespace Rotofury.Soundness.Staking

open Model.Sdk Model.App Model.Staking Except

variable {holdings : Holdings} {delegation veDelegation : VeDelegation} {ctx : Ctx} {state next : State}
  {validator : Validator} {delegating : Delegating} {delAddr : Address}

/-- What a ve delegation counts for a validator. -/
def sharesAt (valAddr : Address) (key : DvPair) (delegation : VeDelegation) : ℤ :=
  if key.2 = valAddr then delegation.shares else 0

/-- The shares of all ve delegations to a validator. -/
def veSharesHeld (holdings : Holdings) (valAddr : Address) : ℤ := holdings.veDelegations.total (sharesAt valAddr)

/-- Every validator has as many ve shares on record as the ve delegations to it hold. -/
def Tallied (holdings : Holdings) : Prop := ∀ valAddr, veSharesOf holdings valAddr = veSharesHeld holdings valAddr

/-- The ve shares on record beyond those held. -/
def excessShares (holdings : Holdings) (valAddr : Address) : ℤ := veSharesOf holdings valAddr - veSharesHeld holdings valAddr

theorem tallied_iff : Tallied holdings ↔ ∀ valAddr, excessShares holdings valAddr = 0 :=
  forall_congr' fun _ => sub_eq_zero.symm

theorem settle_shares (validator : Validator) (delegation : VeDelegation) :
    (delegation.settle validator).shares = delegation.shares := by
  simp only [VeDelegation.shares, VeDelegation.settle, List.map_map]
  rfl

theorem sharesAt_of_shares_eq_zero (none : delegation.shares = 0) (valAddr : Address) (key : DvPair) :
    sharesAt valAddr key delegation = 0 := by
  rw [sharesAt, none]
  exact ite_self _

/-- Settling changes tokens, not shares. -/
theorem Settled.veShares {burnt : State} {key : DvPair} {valAddr : Address}
    (settled : Settled ctx state delegation validator next valAddr burnt)
    (found : state.holdings.veDelegations.lookup key = some delegation) (names : Names ctx.world delegation key)
    (query : Address) :
    veSharesOf next.holdings query = veSharesOf state.holdings query ∧
      veSharesHeld next.holdings query = veSharesHeld state.holdings query ∧
      next.holdings.veDelegations.share (sharesAt query) key = sharesAt query key (delegation.settle validator) := by
  obtain ⟨total, share⟩ := settled.total found names (sharesAt query)
    fun none => sharesAt_of_shares_eq_zero none query key
  have kept : sharesAt query key (delegation.settle validator) = sharesAt query key delegation := by
    rw [sharesAt, sharesAt, settle_shares]
  refine ⟨?_, ?_, share⟩
  · rw [settled.written]
    change ((burnt.holdings.veValidators query).getD .zero).raw = _
    rw [settled.burned.holdings]
    rfl
  · rw [veSharesHeld, veSharesHeld, total, kept]
    ring

section VeDelegate

variable {ctx : Ctx} {state next : State} {delAddr : Address} {bondAmt : ℤ} {veTokens : List VeTokens}
  {tokenSrc : BondStatus} {validator : Validator} {subtractAccount : Bool} {newShares : ℕ}

/-- No shares are issued for the part of a delegation that is not of ves. -/
def NoCoinShares (validator : Validator) (unconstrainedAmt : ℤ) : Prop :=
  0 < unconstrainedAmt → validator.issuedShares unconstrainedAmt.toNat = .ok 0

theorem coins_eq_zero_iff {unconstrainedAmt : ℤ}
    (coins : CoinsDelegated holdings unconstrainedAmt validator veDelegation delegating) :
    delegating.totalNewShares = 0 ↔ NoCoinShares validator unconstrainedAmt := by
  by_cases positive : 0 < unconstrainedAmt
  · rw [NoCoinShares, coins.issued positive, Except.ok.injEq]
    exact ⟨fun zero _ => zero, fun zero => zero positive⟩
  · exact iff_of_true (coins.none positive) fun some => absurd some positive

/-- From the opened ve delegation on, the shares issued for coins come in excess. -/
theorem VeDelegateParts.excessShares {opened : State} {bank : Bank} {delegated : Delegating}
    (parts : VeDelegateParts ctx state delAddr bondAmt veTokens tokenSrc validator
      subtractAccount next newShares opened veDelegation bank delegating delegated)
    (delegator : veDelegation.delegatorAddress = delAddr)
    (named : ∀ valAddr, ctx.world.valAddressFromBech32 veDelegation.validatorAddress = some valAddr →
      valAddr = validator.operatorAddress) (query : Address)
    (contributes : opened.holdings.veDelegations.share (sharesAt query) (delAddr, validator.operatorAddress) =
      sharesAt query (delAddr, validator.operatorAddress) veDelegation) :
    excessShares next.holdings query = excessShares opened.holdings query +
      if query = validator.operatorAddress then (delegating.totalNewShares : ℤ) else 0 := by
  have ves := delegateVes_ok parts.loop
  have onRecord : veSharesOf next.holdings query = veSharesOf opened.holdings query +
      if query = validator.operatorAddress then (delegated.totalNewShares : ℤ) else 0 := by
    have tallied := (addVeDelegatorShares_eq delegated.holdings validator.operatorAddress delegated.totalNewShares).2.2 query
    rw [ves.veValidators, parts.coins.ves.veValidators] at tallied
    rw [veSharesOf, veSharesOf, parts.next]
    exact tallied
  have shares := ves.shares
  rw [parts.coins.veDelegation] at shares
  have added : sharesAt query (delAddr, validator.operatorAddress) delegated.veDelegation +
      (if query = validator.operatorAddress then (delegating.totalNewShares : ℤ) else 0) =
        sharesAt query (delAddr, validator.operatorAddress) veDelegation +
          if query = validator.operatorAddress then (delegated.totalNewShares : ℤ) else 0 := by
    simp only [sharesAt, eq_comm (a := validator.operatorAddress)]
    split <;> omega
  rw [Staking.excessShares, Staking.excessShares, onRecord, veSharesHeld, veSharesHeld,
    parts.total delegator named contributes]
  omega

theorem veDelegate_excessShares
    (ok : veDelegate ctx state delAddr bondAmt veTokens tokenSrc validator subtractAccount = .ok (next, newShares))
    (keyed : Keyed ctx.world state.holdings) :
    ∃ coinShares : ℕ, (coinShares = 0 ↔ NoCoinShares validator (bondAmt - totalTokens veTokens)) ∧
      ∀ query, excessShares next.holdings query =
        excessShares state.holdings query + if query = validator.operatorAddress then (coinShares : ℤ) else 0 := by
  obtain ⟨opened, veDelegation, bank, delegating, delegated, parts⟩ := veDelegate_ok ok
  refine ⟨delegating.totalNewShares, coins_eq_zero_iff parts.coins, fun query => ?_⟩
  have opening := parts.opening
  unfold openVeDelegation at opening
  split at opening
  · next absent =>
    cases opening
    refine parts.excessShares rfl (ctx.world.validatorString_own validator) query ?_
    rw [AList.share_of_absent absent, sharesAt_of_shares_eq_zero rfl]
  · next delegation found =>
    obtain ⟨rfl, valAddr, burnt, settled⟩ := settleVeDelegation_settled opening
    have names := keyed _ _ found
    obtain ⟨onRecord, held, contributes⟩ := settled.veShares found names query
    have same : excessShares opened.holdings query = excessShares state.holdings query := by
      rw [excessShares, excessShares, onRecord, held]
    rw [← same]
    exact parts.excessShares names.1 (fun valAddr parsed => Option.some.inj (parsed.symm.trans names.2)) query contributes

end VeDelegate

section Unbond

variable {ctx : Ctx} {state next : State} {delAddr valAddr : Address} {shares : Dec} {updateVeAmt : Bool}
  {veTokens : List VeTokens}

/-- Where an unbonding empties a validator, it draws all the ve shares the validator has. -/
def DrawsLast (holdings : Holdings) (delAddr valAddr : Address) (shares : Dec) : Prop :=
  ∀ validator delegation delegated, holdings.validators valAddr = some validator →
    holdings.veDelegations.lookup (delAddr, valAddr) = some delegation →
    holdings.delegations (delAddr, valAddr) = some delegated → Emptied validator shares →
    veSharesHeld holdings valAddr = veSharesDrawn delegation delegated shares

/-- Unbonding from a validator leaves the others, and keeps the tally unless the validator goes with ve shares left. -/
theorem Unbonded.excessShares (unbonded : Unbonded ctx state delAddr valAddr shares updateVeAmt next veTokens)
    (keyed : Keyed ctx.world state.holdings) (tallied : Tallied state.holdings) :
    (∀ query, query ≠ valAddr → excessShares next.holdings query = 0) ∧
      (excessShares next.holdings valAddr = 0 ↔ DrawsLast state.holdings delAddr valAddr shares) := by
  have start := tallied_iff.mp tallied
  cases unbonded with
  | coins absent holdings reached none ves =>
    have same : ∀ query, Staking.excessShares next.holdings query = 0 := by
      intro query
      rw [← start query, reached, Staking.excessShares, Staking.excessShares, veSharesOf, veSharesOf, veSharesHeld,
        veSharesHeld]
      change ((holdings.veValidators query).getD .zero).raw - holdings.veDelegations.total _ = _
      rw [ves.veValidators, ves.veDelegations]
    refine ⟨fun query _ => same query, iff_of_true (same valAddr) fun validator delegation delegated _ found => ?_⟩
    rw [absent] at found
    cases found
  | ves delegated delegation validator settled burnt settledAt drawnAt holdings left delegatedShares found known settling
      reached drawing =>
      have names := keyed _ _ found
      have operator := state.holdings.operators valAddr validator known
      obtain ⟨table, _⟩ := drawing.table (names : Names ctx.world (delegation.settle validator) _)
      have same : next.holdings = holdings := by
        rw [reached]
        rfl
      have onRecord := drawing.veValidators
      rw [operator] at onRecord
      have total : left.shares + veSharesDrawn delegation delegated shares = delegation.shares := by
        have sum := drawing.total
        rwa [veSharesDrawn, settle_shares] at sum
      have held : ∀ query, veSharesHeld holdings query = veSharesHeld state.holdings query -
          if query = valAddr then (veSharesDrawn delegation delegated shares : ℤ) else 0 := by
        intro query
        have blank : left.veShares = [] → sharesAt query (delAddr, valAddr) left = 0 := by
          intro none
          refine sharesAt_of_shares_eq_zero ?_ query _
          rw [VeDelegation.shares, none]
          rfl
        obtain ⟨_, settledHeld, contributes⟩ := settling.veShares found names query
        rw [veSharesHeld, table, total_writeVeDelegation blank, contributes, ← veSharesHeld, settledHeld]
        simp only [sharesAt, settle_shares, eq_comm (a := valAddr)]
        split <;> omega
      have drawn : veSharesDrawn (delegation.settle validator) delegated shares =
          veSharesDrawn delegation delegated shares := by
        rw [veSharesDrawn, settle_shares]
        rfl
      have settledOf := fun query => (settling.veShares found names query).1
      rw [same]
      constructor
      · intro query different
        rw [Staking.excessShares, onRecord, held, if_neg different, if_neg different, settledOf, sub_zero, ← start query]
        rfl
      · have condition : DrawsLast state.holdings delAddr valAddr shares ↔ (Emptied validator shares →
            veSharesHeld state.holdings valAddr = veSharesDrawn delegation delegated shares) := by
          constructor
          · exact fun last => last validator delegation delegated known found delegatedShares
          · intro last validator' delegation' delegated' known' found' delegatedShares'
            obtain rfl := Option.some.inj (known.symm.trans known')
            obtain rfl := Option.some.inj (found.symm.trans found')
            obtain rfl := Option.some.inj (delegatedShares.symm.trans delegatedShares')
            exact last
        rw [condition, Staking.excessShares, onRecord, held, if_pos rfl, if_pos rfl, drawn, settledOf]
        split
        · next emptied =>
          refine ⟨fun zero _ => by omega, fun last => ?_⟩
          have all := last emptied
          omega
        · next kept =>
          refine iff_of_true ?_ fun emptied => absurd emptied kept
          have here := start valAddr
          rw [Staking.excessShares] at here
          omega

end Unbond

/-- The calls that keep the tally: they issue no shares for coins, and empty no validator that keeps ve shares. A
redelegation is an unbonding and a delegation of what was unbonded. -/
def KeepsTally (ctx : Ctx) (state : State) : ShareCall → Prop
  | .veDelegate _ bondAmt veTokens _ validator _ => NoCoinShares validator (bondAmt - totalTokens veTokens)
  | .unbond delAddr valAddr shares _ => DrawsLast state.holdings delAddr valAddr shares
  | .beginRedelegation delAddr valSrcAddr valDstAddr shares => DrawsLast state.holdings delAddr valSrcAddr shares ∧
      ∀ middle amount veTokens dstValidator, state.holdings.validators valDstAddr = some dstValidator →
        unbond ctx state delAddr valSrcAddr shares true = .ok (middle, amount, veTokens) →
          NoCoinShares dstValidator (amount - totalTokens veTokens)

theorem veDelegate_tallied_iff {bondAmt : ℤ} {veTokens : List VeTokens} {tokenSrc : BondStatus}
    {subtractAccount : Bool} {newShares : ℕ}
    (ok : veDelegate ctx state delAddr bondAmt veTokens tokenSrc validator subtractAccount = .ok (next, newShares))
    (keyed : Keyed ctx.world state.holdings) (tallied : Tallied state.holdings) :
    Tallied next.holdings ↔ NoCoinShares validator (bondAmt - totalTokens veTokens) := by
  obtain ⟨coinShares, zero, excess⟩ := veDelegate_excessShares ok keyed
  have start := tallied_iff.mp tallied
  rw [tallied_iff, ← zero]
  constructor
  · intro none
    have here := none validator.operatorAddress
    rw [excess, start, if_pos rfl] at here
    omega
  · rintro rfl query
    rw [excess, start]
    simp

theorem beginRedelegation_tallied_iff {valSrcAddr valDstAddr : Address} {shares : Dec} {completion : Option ℕ}
    (ok : beginRedelegation ctx state delAddr valSrcAddr valDstAddr shares = .ok (next, completion))
    (keyed : Keyed ctx.world state.holdings) (tallied : Tallied state.holdings) :
    Tallied next.holdings ↔ KeepsTally ctx state (.beginRedelegation delAddr valSrcAddr valDstAddr shares) := by
  obtain ⟨srcValidator, dstValidator, middle, amount, veTokens, delegated, newShares, parts⟩ :=
    beginRedelegation_ok ok
  have unbonded := unbond_unbonded parts.unbonded
  obtain ⟨others, source⟩ := unbonded.excessShares keyed tallied
  obtain ⟨coinShares, zero, excess⟩ := veDelegate_excessShares parts.delegates (unbonded.keeps keyed).1
  rw [state.holdings.operators valDstAddr dstValidator parts.destination] at excess
  have same : next.holdings = delegated.holdings := by
    rcases parts.reached with rfl | ⟨_, _, veEntry, entries, _, _, rfl⟩ <;> rfl
  have arrives : (∀ middle amount veTokens dstValidator, state.holdings.validators valDstAddr = some dstValidator →
      unbond ctx state delAddr valSrcAddr shares true = .ok (middle, amount, veTokens) →
        NoCoinShares dstValidator (amount - totalTokens veTokens)) ↔ coinShares = 0 := by
    simp only [parts.destination, parts.unbonded, zero, Except.ok.injEq, Prod.mk.injEq, Option.some.injEq]
    constructor
    · exact fun all => all middle amount veTokens dstValidator rfl ⟨rfl, rfl, rfl⟩
    · rintro none _ _ _ _ rfl ⟨rfl, rfl, rfl⟩
      exact none
  rw [KeepsTally, arrives, ← source, same, tallied_iff]
  constructor
  · intro none
    have src := none valSrcAddr
    have dst := none valDstAddr
    rw [excess, if_neg parts.different, add_zero] at src
    rw [excess, others valDstAddr parts.different.symm, if_pos rfl] at dst
    exact ⟨src, by omega⟩
  · rintro ⟨src, rfl⟩ query
    rw [excess]
    by_cases here : query = valSrcAddr
    · rw [here, src]
      simp
    · rw [others query here]
      simp

/-- In a tallied state a slash burns from the pools exactly the fraction of the shares that no ve holds. -/
theorem poolTokensToBurn_of_tallied (tallied : Tallied holdings) (validator : Validator) (tokensToBurn : ℤ)
    (positive : validator.delegatorShares.isPositive) :
    poolTokensToBurn holdings validator tokensToBurn = Dec.truncateInt <$>
      ((Dec.ofInt tokensToBurn).mul (validator.delegatorShares - ⟨veSharesHeld holdings validator.operatorAddress⟩)).quo
        validator.delegatorShares := by
  have here := tallied validator.operatorAddress
  unfold veSharesOf at here
  unfold poolTokensToBurn
  split
  · next shares found =>
    rw [found] at here
    rw [if_pos positive, ← here]
    rfl
  · next absent =>
    rw [absent] at here
    -- a validator without a record has no ve shares, and the whole is no fraction
    have whole : validator.delegatorShares - ⟨veSharesHeld holdings validator.operatorAddress⟩ =
        validator.delegatorShares := by
      rw [← here]
      exact congrArg Dec.mk (sub_zero _)
    have unit : (Dec.precision : ℤ) ≠ 0 := by decide
    have regrouped : tokensToBurn * validator.delegatorShares.raw * Dec.precision * Dec.precision =
        tokensToBurn * Dec.precision * Dec.precision * validator.delegatorShares.raw := by ring
    rw [whole, Dec.quo_of_pos _ positive, Dec.ofInt_mul, regrouped, Int.mul_tdiv_cancel _ (ne_of_gt positive),
      Math.roundHalfEven_mul _ Dec.precision_pos]
    change _ = Except.ok ((tokensToBurn * Dec.precision).tdiv Dec.precision)
    rw [Int.mul_tdiv_cancel _ unit]

/-- A call keeps the tally exactly when it issues no shares for coins and empties no validator that keeps ve shares; and
with the tally kept, a slash burns from the pools exactly the fraction of the shares that no ve holds. -/
theorem veShares_tallied_iff {ctx : Ctx} {state next : State} {call : ShareCall} (keyed : Keyed ctx.world state.holdings)
    (tallied : Tallied state.holdings) (success : call.run ctx state = .ok next) :
    (Tallied next.holdings ↔ KeepsTally ctx state call) ∧
      (Tallied next.holdings → ∀ (validator : Validator) (tokensToBurn : ℤ), validator.delegatorShares.isPositive →
        poolTokensToBurn next.holdings validator tokensToBurn = Dec.truncateInt <$>
          ((Dec.ofInt tokensToBurn).mul
            (validator.delegatorShares - ⟨veSharesHeld next.holdings validator.operatorAddress⟩)).quo
              validator.delegatorShares) := by
  refine ⟨?_, poolTokensToBurn_of_tallied⟩
  cases call with
  | veDelegate delAddr bondAmt veTokens tokenSrc validator subtractAccount =>
    obtain ⟨⟨_, newShares⟩, delegated, rfl⟩ := map_ok_iff.mp success
    exact veDelegate_tallied_iff delegated keyed tallied
  | unbond delAddr valAddr shares updateVeAmt =>
    obtain ⟨⟨_, amount, veTokens⟩, unbonded, rfl⟩ := map_ok_iff.mp success
    obtain ⟨others, here⟩ := (unbond_unbonded unbonded).excessShares keyed tallied
    rw [KeepsTally, ← here, tallied_iff]
    constructor
    · exact fun none => none valAddr
    · intro zero query
      by_cases same : query = valAddr
      · rw [same, zero]
      · exact others query same
  | beginRedelegation delAddr valSrcAddr valDstAddr sharesAmount =>
    obtain ⟨⟨_, completion⟩, begun, rfl⟩ := map_ok_iff.mp success
    exact beginRedelegation_tallied_iff begun keyed tallied

/-- A bonded validator with two tokens, all of which a ve with a lock of four has delegated. -/
def sampleValidator : Validator where
  operatorAddress := 9
  status := .bonded
  jailed := false
  tokens := 2
  delegatorShares := ⟨2 * 10 ^ 18⟩
  minSelfDelegation := 1
  unbondingHeight := 0
  unbondingTime := 0
  rate := by decide

def sampleMixed : State where
  holdings :=
    { validators := fun valAddr => if valAddr = 9 then some sampleValidator else none
      delegations := fun pair => if pair = (1, 9) then some ⟨2 * 10 ^ 18⟩ else none
      veValidators := fun valAddr => if valAddr = 9 then some ⟨2 * 10 ^ 18⟩ else none
      veDelegations := AList.singleton (1, 9) ⟨1, "valoper", [⟨1, 2, 2 * 10 ^ 18⟩], by simp⟩
      veDelegatedAmount := fun veId => if veId = 1 then 2 else 0
      operators := by
        intro valAddr validator found
        split at found
        · next same =>
          cases found
          exact same.symm
        · cases found }
  entries := Entries.empty
  ve := ⟨{ Model.Ve.Store.genesis.setLockedAmountByUser 1 ⟨4, 604800⟩ with totalLockedAmount := 4 },
    ⟨fun _ _ => 10, fun _ => 100⟩⟩

/-- Two tokens more of the ve are delegated, along with three coins. -/
def sampleMixedCall : ShareCall := .veDelegate 1 5 [⟨1, 2⟩] .bonded sampleValidator false

theorem sampleMixed_tallied : Keyed sampleCtx.world sampleMixed.holdings ∧ Tallied sampleMixed.holdings := by
  constructor
  · intro key delegation found
    obtain rfl : key = (1, 9) := by
      have inside := AList.lookup_isSome.mp (Option.isSome_of_eq_some found)
      simpa [sampleMixed, AList.singleton, AList.mem_keys] using inside
    cases found
    exact ⟨rfl, by decide⟩
  · intro valAddr
    have held : veSharesHeld sampleMixed.holdings valAddr = if valAddr = 9 then (2 * 10 ^ 18 : ℤ) else 0 := by
      simp [veSharesHeld, sampleMixed, AList.total, AList.singleton, sharesAt, VeDelegation.shares, eq_comm]
    rw [held, veSharesOf]
    simp only [sampleMixed]
    split <;> rfl

theorem sampleMixed_run :
    ∃ next, sampleMixedCall.run sampleCtx sampleMixed = .ok next ∧ veSharesOf next.holdings 9 = 7 * 10 ^ 18 ∧
      veSharesHeld next.holdings 9 = 4 * 10 ^ 18 := by
  have run : (fun next : State => (veSharesOf next.holdings 9, veSharesHeld next.holdings 9)) <$>
      sampleMixedCall.run sampleCtx sampleMixed = .ok (7 * 10 ^ 18, 4 * 10 ^ 18) := by decide +kernel
  obtain ⟨next, ok, shares⟩ := map_ok_iff.mp run
  exact ⟨next, ok, congrArg Prod.fst shares, congrArg Prod.snd shares⟩

/-- Without the coins the total follows. -/
theorem veShares_tallied_sample :
    ∃ next, (ShareCall.veDelegate 1 2 [⟨1, 2⟩] .bonded sampleValidator false).run sampleCtx sampleMixed = .ok next ∧
      veSharesOf next.holdings 9 = 4 * 10 ^ 18 ∧ Tallied next.holdings := by
  have run : (fun next : State => veSharesOf next.holdings 9) <$>
      (ShareCall.veDelegate 1 2 [⟨1, 2⟩] .bonded sampleValidator false).run sampleCtx sampleMixed = .ok (4 * 10 ^ 18) := by
    decide +kernel
  obtain ⟨keyed, tallied⟩ := sampleMixed_tallied
  obtain ⟨next, success, shares⟩ := map_ok_iff.mp run
  exact ⟨next, success, shares, (veShares_tallied_iff keyed tallied success).1.mpr fun coins => absurd coins (by decide)⟩

/-- The three coins count as shares of ves. -/
theorem coins_counted_as_ve_sample :
    ∃ next, Keyed sampleCtx.world sampleMixed.holdings ∧ Tallied sampleMixed.holdings ∧
      sampleMixedCall.run sampleCtx sampleMixed = .ok next ∧ ¬ Tallied next.holdings := by
  obtain ⟨keyed, tallied⟩ := sampleMixed_tallied
  obtain ⟨next, success, onRecord, held⟩ := sampleMixed_run
  refine ⟨next, keyed, tallied, success, fun stays => ?_⟩
  have same := stays 9
  rw [onRecord, held] at same
  exact absurd same (by decide)

end Rotofury.Soundness.Staking
