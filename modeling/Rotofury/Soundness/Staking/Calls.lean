import Rotofury.Soundness.Staking.Completion
import Rotofury.Soundness.Staking.Drawing

/-! # What the calls on unbondings and redelegations do

One lemma for each call: the parts it is made of and what it writes to the records of entries and their shadows. The
results about records, balances and amounts use these and do not unfold the calls.
-/

namespace Rotofury.Soundness.Staking

open Model.Sdk Model.App Model.Staking Except

variable {entry : UnbondingDelegationEntry} {ctx : Ctx} {state next : State}
  {delAddr valAddr valSrcAddr valDstAddr : Address} {shares : Dec} {pairs : List UnbondingPair} {balances amount : ℤ}
  {tally : SlashTally}

section Entries

variable {entries next : Entries} {veTokens : List VeTokens}

/-- The shadow of a new unbonding entry. -/
def veUnbondingEntry (veTokens : List VeTokens) : VeUnbondingDelegationEntry :=
  ⟨veTokens.map fun vt => ⟨vt.veId, vt.tokens, vt.tokens⟩⟩

theorem balanceOf_veUnbondingEntry (veId : ℕ) (veTokens : List VeTokens) :
    balanceOf veId (veUnbondingEntry veTokens) = tokensIn veId veTokens := by
  simp only [balanceOf, veUnbondingEntry, tokensIn, List.map_map]
  congr 1
  refine List.map_congr_left fun vt _ => ?_
  simp only [Function.comp_apply, onVe, eq_comm (a := veId)]

/-- A record and its shadow after an entry was appended to both. -/
structure UnbondingAdded (entries : Entries) (pair : DvPair) (entry : UnbondingDelegationEntry) (veTokens : List VeTokens)
    (next : Entries) : Prop where
  aligned : ((entries.unbondingDelegations.lookup pair).getD []).length =
    ((entries.veUnbondingDelegations.lookup pair).getD []).length
  written : next = { entries with
    unbondingDelegations := entries.unbondingDelegations.insert pair
      ((entries.unbondingDelegations.lookup pair).getD [] ++ [entry])
    veUnbondingDelegations := entries.veUnbondingDelegations.insert pair
      ((entries.veUnbondingDelegations.lookup pair).getD [] ++ [veUnbondingEntry veTokens]) }

theorem addUnbonding_ok_iff {pair : DvPair} :
    entries.addUnbonding pair entry veTokens = .ok next ↔ UnbondingAdded entries pair entry veTokens next := by
  simp only [Entries.addUnbonding, ok_iffs, List.length_append, List.length_singleton, Nat.add_right_cancel_iff]
  constructor
  · rintro ⟨_, aligned, rfl⟩
    exact ⟨aligned, rfl⟩
  · rintro ⟨aligned, rfl⟩
    exact ⟨(), aligned, rfl⟩

structure RedelegationAdded (entries : Entries) (triplet : DvvTriplet) (entry : RedelegationEntry)
    (veEntry : VeRedelegationEntry) (next : Entries) : Prop where
  aligned : ((entries.redelegations.lookup triplet).getD []).length =
    ((entries.veRedelegations.lookup triplet).getD []).length
  written : next = { entries with
    redelegations := entries.redelegations.insert triplet ((entries.redelegations.lookup triplet).getD [] ++ [entry])
    veRedelegations := entries.veRedelegations.insert triplet
      ((entries.veRedelegations.lookup triplet).getD [] ++ [veEntry]) }

theorem addRedelegation_ok_iff {triplet : DvvTriplet} {entry : RedelegationEntry} :
    entries.addRedelegation triplet entry veTokens = .ok next ↔
      ∃ veEntry, Entries.veRedelegationEntry veTokens entry.initialBalance entry.sharesDst = .ok veEntry ∧
        RedelegationAdded entries triplet entry veEntry next := by
  simp only [Entries.addRedelegation, ok_iffs, List.length_append, List.length_singleton, Nat.add_right_cancel_iff]
  refine exists_congr fun veEntry => and_congr_right fun _ => ?_
  constructor
  · rintro ⟨_, aligned, rfl⟩
    exact ⟨aligned, rfl⟩
  · rintro ⟨aligned, rfl⟩
    exact ⟨(), aligned, rfl⟩

end Entries

/-- The parts of `Undelegate`. -/
structure UndelegateParts (ctx : Ctx) (state : State) (delAddr valAddr : Address) (shares : Dec) (next : State)
    (validator : Validator) (middle : State) (amount : ℤ) (veTokens : List VeTokens) (bank : Bank) (entries : Entries) :
    Prop where
  known : state.holdings.validators valAddr = some validator
  unbonded : unbond ctx state delAddr valAddr shares false = .ok (middle, amount, veTokens)
  added : UnbondingAdded middle.entries (delAddr, valAddr)
    ⟨ctx.ve.blockHeight, ctx.headerTime + ctx.unbondingTime, amount, amount⟩ veTokens entries
  reached : next = { middle.setBank bank with entries := entries }

theorem undelegate_ok {completion : ℕ} (ok : undelegate ctx state delAddr valAddr shares = .ok (next, completion)) :
    ∃ validator middle amount veTokens bank entries,
      UndelegateParts ctx state delAddr valAddr shares next validator middle amount veTokens bank entries := by
  simp only [undelegate, ok_iffs, Holdings.validator_ok_iff, Prod.mk.injEq, addUnbonding_ok_iff] at ok
  obtain ⟨validator, known, _, _, ⟨middle, amount, veTokens⟩, unbonded, bank, _, entries, added, rfl, _⟩ := ok
  exact ⟨validator, middle, amount, veTokens, bank, entries, known, unbonded, added, rfl⟩

/-- The parts of `BeginRedelegation`; one that completes at once adds no entry. -/
structure RedelegateParts (ctx : Ctx) (state : State) (delAddr valSrcAddr valDstAddr : Address) (shares : Dec) (next : State)
    (srcValidator dstValidator : Validator) (middle : State) (amount : ℤ) (veTokens : List VeTokens) (delegated : State)
    (newShares : ℕ) : Prop where
  different : valSrcAddr ≠ valDstAddr
  source : state.holdings.validators valSrcAddr = some srcValidator
  destination : state.holdings.validators valDstAddr = some dstValidator
  unbonded : unbond ctx state delAddr valSrcAddr shares true = .ok (middle, amount, veTokens)
  delegates : veDelegate ctx middle delAddr amount veTokens srcValidator.status dstValidator false =
    .ok (delegated, newShares)
  reached : next = delegated ∨ ∃ height completion veEntry entries,
    Entries.veRedelegationEntry veTokens amount ⟨newShares⟩ = .ok veEntry ∧
      RedelegationAdded delegated.entries (delAddr, valSrcAddr, valDstAddr) ⟨height, completion, amount, ⟨newShares⟩⟩ veEntry
        entries ∧
      next = { delegated with entries := entries }

theorem beginRedelegation_ok {completion : Option ℕ}
    (ok : beginRedelegation ctx state delAddr valSrcAddr valDstAddr shares = .ok (next, completion)) :
    ∃ srcValidator dstValidator middle amount veTokens delegated newShares,
      RedelegateParts ctx state delAddr valSrcAddr valDstAddr shares next srcValidator dstValidator middle amount veTokens
        delegated newShares := by
  simp only [beginRedelegation, ok_iffs, Holdings.validator_ok_iff] at ok
  obtain ⟨_, different, dstValidator, destination, srcValidator, source, _, _, _, _, ⟨middle, amount, veTokens⟩, unbonded,
    _, _, ⟨delegated, newShares⟩, delegates, info, _, ok⟩ := ok
  refine ⟨srcValidator, dstValidator, middle, amount, veTokens, delegated, newShares, different, source, destination,
    unbonded, delegates, ?_⟩
  split at ok
  · cases ok
    exact .inl rfl
  · simp only [ok_iffs, Prod.mk.injEq, addRedelegation_ok_iff] at ok
    obtain ⟨entries, ⟨veEntry, shares, added⟩, rfl, _⟩ := ok
    exact .inr ⟨_, _, veEntry, entries, shares, added, rfl⟩

/-- The entries of a record that stay. -/
def laterPairs (ctx : Ctx) (pairs : List UnbondingPair) : List UnbondingPair :=
  pairs.filter fun pair => ¬ pair.1.isMature ctx

/-- A loop that ends without an error has paid and released all mature entries. -/
theorem completeEntries_completed {kept : List UnbondingPair}
    (ok : completeEntries ctx delAddr state pairs = .ok (next, .ok (kept, balances))) :
    kept = laterPairs ctx pairs ∧ (∀ pair ∈ maturePairs ctx pairs, 0 ≤ unconstrainedBalance pair) ∧
      ∃ bank, next = (state.setHoldings (releaseAll state.holdings (maturePairs ctx pairs))).setBank bank := by
  induction pairs generalizing state kept balances with
  | nil =>
    simp only [completeEntries, Except.ok.injEq, Prod.mk.injEq] at ok
    obtain ⟨rfl, rfl, _⟩ := ok
    exact ⟨rfl, by simp [maturePairs], state.ve.bank, rfl⟩
  | cons pair rest ih =>
    unfold completeEntries at ok
    split at ok
    · next mature =>
      have matured : maturePairs ctx (pair :: rest) = pair :: maturePairs ctx rest :=
        List.filter_cons_of_pos (by simpa using mature)
      have staying : laterPairs ctx (pair :: rest) = laterPairs ctx rest :=
        List.filter_cons_of_neg (by simpa using mature)
      simp only [ok_iffs] at ok
      obtain ⟨_, nonneg, ok⟩ := ok
      split at ok
      · cases ok
      · next bank paid =>
        simp only [ok_iffs, Prod.mk.injEq] at ok
        obtain ⟨coin, _, ⟨reached, outcome⟩, continued, rfl, result⟩ := ok
        obtain ⟨⟨later, amounts⟩, rfl, same⟩ := map_ok_iff.mp result
        obtain ⟨rfl, covered, final, reached⟩ := ih continued
        cases same
        rw [matured, staying]
        exact ⟨rfl, List.forall_mem_cons.mpr ⟨nonneg, covered⟩, final, reached⟩
    · next later =>
      have matured : maturePairs ctx (pair :: rest) = maturePairs ctx rest :=
        List.filter_cons_of_neg (by simpa using later)
      have staying : laterPairs ctx (pair :: rest) = pair :: laterPairs ctx rest :=
        List.filter_cons_of_pos (by simpa using later)
      simp only [ok_iffs, Prod.mk.injEq] at ok
      obtain ⟨⟨reached, outcome⟩, continued, rfl, result⟩ := ok
      obtain ⟨⟨kept', amounts⟩, rfl, same⟩ := map_ok_iff.mp result
      obtain ⟨rfl, covered, final, reached⟩ := ih continued
      cases same
      rw [matured, staying]
      exact ⟨rfl, covered, final, reached⟩

/-- The parts of a `CompleteUnbonding` that returns no error. -/
structure CompleteParts (ctx : Ctx) (state : State) (delAddr valAddr : Address) (next : State)
    (ubd : List UnbondingDelegationEntry) (veUbd : List VeUnbondingDelegationEntry) : Prop where
  found : state.entries.unbondingDelegations.lookup (delAddr, valAddr) = some ubd
  shadow : state.entries.veUnbondingDelegations.lookup (delAddr, valAddr) = some veUbd
  aligned : veUbd.length = ubd.length
  holdings : next.holdings = releaseAll state.holdings (maturePairs ctx (ubd.zip veUbd))
  entries : next.entries = { state.entries with
    unbondingDelegations := storeEntries state.entries.unbondingDelegations (delAddr, valAddr)
      ((laterPairs ctx (ubd.zip veUbd)).map Prod.fst)
    veUnbondingDelegations := storeEntries state.entries.veUnbondingDelegations (delAddr, valAddr)
      ((laterPairs ctx (ubd.zip veUbd)).map Prod.snd) }

theorem completeUnbonding_ok (ok : completeUnbonding ctx state delAddr valAddr = .ok (next, .ok balances)) :
    ∃ ubd veUbd, CompleteParts ctx state delAddr valAddr next ubd veUbd := by
  unfold completeUnbonding at ok
  split at ok
  · cases ok
  · next ubd found =>
    simp only [bind_ok_iff] at ok
    obtain ⟨veUbd, shadow, ⟨reached, outcome⟩, loop, ok⟩ := ok
    rcases outcome with fault | ⟨kept, amount⟩
    · cases ok
    · obtain ⟨rfl, _⟩ := Prod.mk.inj (Except.ok.inj ok)
      obtain ⟨present, aligned⟩ := shadowOf_ok shadow
      obtain ⟨rfl, _, bank, rfl⟩ := completeEntries_completed loop
      exact ⟨ubd, veUbd, found, present, aligned, rfl, rfl⟩

/-- The parts of a `CompleteUnbonding` that returns an error: the records are as they were. -/
theorem completeUnbonding_error_entries {fault : Fault}
    (failed : completeUnbonding ctx state delAddr valAddr = .ok (next, .error fault)) :
    next.entries = state.entries := by
  unfold completeUnbonding at failed
  split at failed
  · cases failed
    rfl
  · simp only [bind_ok_iff] at failed
    obtain ⟨veUbd, _, ⟨reached, outcome⟩, loop, failed⟩ := failed
    rcases outcome with reason | ⟨kept, amount⟩
    · obtain ⟨rfl, _⟩ := Prod.mk.inj (Except.ok.inj failed)
      obtain ⟨before, pair, bank, stopped⟩ := completeEntries_stopped loop
      rw [stopped.reached]
      rfl
    · cases failed

/-- The parts of `CompleteRedelegation`. -/
structure CompleteRedelegationParts (ctx : Ctx) (state : State) (triplet : DvvTriplet) (next : State)
    (red : List RedelegationEntry) (veRed : List VeRedelegationEntry) : Prop where
  found : state.entries.redelegations.lookup triplet = some red
  shadow : state.entries.veRedelegations.lookup triplet = some veRed
  reached : next = { state with entries := { state.entries with
    redelegations := storeEntries state.entries.redelegations triplet
      (((red.zip veRed).filter fun pair => ¬ pair.1.isMature ctx).map Prod.fst)
    veRedelegations := storeEntries state.entries.veRedelegations triplet
      (((red.zip veRed).filter fun pair => ¬ pair.1.isMature ctx).map Prod.snd) } }

theorem completeRedelegation_ok
    (ok : completeRedelegation ctx state delAddr valSrcAddr valDstAddr = .ok (next, balances)) :
    ∃ red veRed, CompleteRedelegationParts ctx state (delAddr, valSrcAddr, valDstAddr) next red veRed := by
  unfold completeRedelegation at ok
  dsimp only at ok
  split at ok
  · cases ok
  · next red found =>
    simp only [ok_iffs, Prod.mk.injEq] at ok
    obtain ⟨veRed, shadow, _, _, rfl, _⟩ := ok
    exact ⟨red, veRed, found, (shadowOf_ok shadow).1, rfl⟩

section Amounts

/-- The amount burned from a ve. -/
def amountOn (amounts : BurnedAmounts) (veId : ℕ) : ℤ := (amounts.lookup veId).getD 0

theorem amountOn_add (amounts : BurnedAmounts) (veId : ℕ) (amount : ℤ) (query : ℕ) :
    amountOn (amounts.add veId amount) query = amountOn amounts query + onVe veId amount query := by
  rw [amountOn, BurnedAmounts.add, AList.lookup_insert_eq_ite, onVe]
  split
  · next same =>
    rw [same]
    rfl
  · rw [add_zero]
    rfl

/-- A loop that adds amounts adds their sum. -/
theorem amountOn_foldl {α : Type} (veId : α → ℕ) (amount : α → ℤ) (items : List α) (amounts : BurnedAmounts) (query : ℕ) :
    amountOn (items.foldl (fun amounts item => amounts.add (veId item) (amount item)) amounts) query =
      amountOn amounts query + (items.map fun item => onVe (veId item) (amount item) query).sum := by
  induction items generalizing amounts with
  | nil => simp
  | cons item rest ih =>
    rw [List.foldl_cons, ih, amountOn_add, List.map_cons, List.sum_cons]
    ring

theorem amountOn_addToMap (veTokens : List VeTokens) (amounts : BurnedAmounts) (veId : ℕ) :
    amountOn (addToMap veTokens amounts) veId = amountOn amounts veId + tokensIn veId veTokens :=
  amountOn_foldl _ _ _ _ _

end Amounts

section SlashUnbonding

variable {ctx : Ctx} {infractionHeight : ℤ} {slashFactor : Dec}

/-- An entry after a slash. -/
def slashedEntry (ctx : Ctx) (infractionHeight : ℤ) (slashFactor : Dec) (entry : UnbondingDelegationEntry) :
    UnbondingDelegationEntry :=
  if entry.slashable ctx infractionHeight then
    { entry with balance := entry.balance - unbondingSlashAmount slashFactor entry }
  else entry

/-- What a slash of an entry takes from a ve. -/
def entrySlashOn (slashFactor : Dec) (pair : UnbondingPair) (veId : ℕ) : ℤ :=
  (pair.2.veBalances.map fun balance =>
    onVe balance.veId (veSlash (unbondingSlashAmount slashFactor pair.1) pair.1.balance balance) veId).sum

/-- What a slash of a record takes from a ve. -/
def slashOn (ctx : Ctx) (infractionHeight : ℤ) (slashFactor : Dec) (pairs : List UnbondingPair) (veId : ℕ) : ℤ :=
  ((pairs.filter fun pair => pair.1.slashable ctx infractionHeight).map fun pair => entrySlashOn slashFactor pair veId).sum

theorem slashUnbondingEntry_ok {next : SlashTally} {pair : UnbondingPair}
    (ok : slashUnbondingEntry ctx infractionHeight slashFactor tally pair = .ok (next, entry)) :
    entry = slashedEntry ctx infractionHeight slashFactor pair.1 ∧ ∀ veId, amountOn next.veBurnedAmounts veId =
      amountOn tally.veBurnedAmounts veId +
        if pair.1.slashable ctx infractionHeight then entrySlashOn slashFactor pair veId else 0 := by
  unfold slashUnbondingEntry at ok
  unfold slashedEntry
  dsimp only at ok
  split at ok
  · next slashable =>
    rw [if_pos slashable]
    split at ok
    · next zero =>
      -- nothing is slashed, and no part of nothing falls on a ve
      cases ok
      refine ⟨by rw [zero, sub_zero], fun veId => ?_⟩
      have none : entrySlashOn slashFactor pair veId = 0 := by
        simp only [entrySlashOn, veSlash, zero, zero_mul, Int.zero_tdiv, onVe_zero, List.map_const', List.sum_replicate,
          smul_zero]
      rw [if_pos slashable, none, add_zero]
    · simp only [VeUnbondingDelegationEntry.slash, ok_iffs, Prod.mk.injEq] at ok
      obtain ⟨⟨_, amounts⟩, ⟨_, _, _, rfl⟩, rfl, rfl⟩ := ok
      refine ⟨rfl, fun veId => ?_⟩
      rw [if_pos slashable]
      exact amountOn_foldl _ _ _ _ _
  · next spared =>
    cases ok
    refine ⟨by rw [if_neg spared], fun veId => ?_⟩
    rw [if_neg spared, add_zero]

theorem slashUnbondingEntries_ok {next : SlashTally} {slashed : List UnbondingDelegationEntry}
    (ok : slashUnbondingEntries ctx infractionHeight slashFactor tally pairs = .ok (next, slashed)) :
    slashed = pairs.map (fun pair => slashedEntry ctx infractionHeight slashFactor pair.1) ∧
      ∀ veId, amountOn next.veBurnedAmounts veId =
        amountOn tally.veBurnedAmounts veId + slashOn ctx infractionHeight slashFactor pairs veId := by
  induction pairs generalizing tally slashed with
  | nil =>
    cases ok
    exact ⟨rfl, fun veId => by simp [slashOn]⟩
  | cons pair rest ih =>
    simp only [slashUnbondingEntries, ok_iffs, Prod.mk.injEq] at ok
    obtain ⟨⟨middle, entry⟩, first, ⟨final, entries⟩, later, rfl, rfl⟩ := ok
    obtain ⟨rfl, amounts⟩ := slashUnbondingEntry_ok first
    obtain ⟨rfl, laterAmounts⟩ := ih later
    refine ⟨rfl, fun veId => ?_⟩
    rw [laterAmounts, amounts, slashOn, slashOn, List.filter_cons]
    simp only [decide_eq_true_eq]
    split
    · rw [List.map_cons, List.sum_cons, add_assoc]
    · rw [add_zero]

/-- The parts of `SlashUnbondingDelegation`. -/
structure SlashUnbondingParts (ctx : Ctx) (state : State) (delAddr valAddr : Address) (ubd : List UnbondingDelegationEntry)
    (infractionHeight : ℤ) (slashFactor : Dec) (next : State) (veUbd : List VeUnbondingDelegationEntry) (middle : State) :
    Prop where
  shadow : state.entries.veUnbondingDelegations.lookup (delAddr, valAddr) = some veUbd
  aligned : veUbd.length = ubd.length
  holdings : middle.holdings = state.holdings
  entries : middle.entries = { state.entries with
    unbondingDelegations := if ubd.map (slashedEntry ctx infractionHeight slashFactor) = ubd then
        state.entries.unbondingDelegations
      else state.entries.unbondingDelegations.insert (delAddr, valAddr) (ubd.map (slashedEntry ctx infractionHeight slashFactor)) }
  burned : Burned middle next fun veId => max (slashOn ctx infractionHeight slashFactor (ubd.zip veUbd) veId) 0

theorem slashUnbondingDelegation_ok {ubd : List UnbondingDelegationEntry}
    (ok : slashUnbondingDelegation ctx state delAddr valAddr ubd infractionHeight slashFactor = .ok (next, amount)) :
    ∃ veUbd middle, SlashUnbondingParts ctx state delAddr valAddr ubd infractionHeight slashFactor next veUbd middle := by
  simp only [slashUnbondingDelegation, slashUnbondingDelegationIn, ok_iffs, Prod.mk.injEq] at ok
  obtain ⟨veUbd, shadow, ⟨tally, slashed⟩, loop, bank, _, final, burning, rfl, _⟩ := ok
  obtain ⟨present, aligned⟩ := shadowOf_ok shadow
  obtain ⟨rfl, amounts⟩ := slashUnbondingEntries_ok loop
  have firsts : (ubd.zip veUbd).map (fun pair => slashedEntry ctx infractionHeight slashFactor pair.1) =
      ubd.map (slashedEntry ctx infractionHeight slashFactor) := by
    have first := congrArg (List.map (slashedEntry ctx infractionHeight slashFactor)) (List.map_fst_zip (le_of_eq aligned.symm))
    rw [List.map_map] at first
    exact first
  rw [firsts] at burning
  have burned := burnFromVes_burned burning
  have same : (fun veId => max ((tally.veBurnedAmounts.lookup veId).getD 0) 0) =
      fun veId => max (slashOn ctx infractionHeight slashFactor (ubd.zip veUbd) veId) 0 := by
    funext veId
    have here := amounts veId
    rw [show amountOn ∅ veId = 0 from rfl, zero_add] at here
    exact congrArg (max · 0) here
  rw [same] at burned
  refine ⟨veUbd, _, present, aligned, ?_, ?_, burned⟩
  · rfl
  · rfl

end SlashUnbonding

section SlashRedelegation

variable {ctx : Ctx} {delAddr valSrcAddr valDstAddr : Address} {infractionHeight : ℤ} {slashFactor : Dec}

/-- The shares that a slash unbonds for an entry, if any. -/
def slashedShares (ctx : Ctx) (holdings : Holdings) (delAddr valDstAddr : Address) (infractionHeight : ℤ)
    (slashFactor : Dec) (entry : RedelegationEntry) : Option Dec :=
  if entry.slashable ctx infractionHeight then sharesToUnbond holdings delAddr valDstAddr slashFactor entry else none

/-- What one turn of the loop does. -/
inductive RedelegationSlashed (ctx : Ctx) (delAddr valDstAddr : Address) (infractionHeight : ℤ) (slashFactor : Dec)
    (tally : RedelegationTally) (entry : RedelegationEntry) (next : RedelegationTally) : Prop where
  | spared (none : slashedShares ctx tally.state.holdings delAddr valDstAddr infractionHeight slashFactor entry = none)
      (state : next.state = tally.state) (amounts : next.veBurnedAmounts = tally.veBurnedAmounts)
  | unbonded (shares : Dec) (amount : ℤ) (veTokens : List VeTokens)
      (some : slashedShares ctx tally.state.holdings delAddr valDstAddr infractionHeight slashFactor entry = some shares)
      (state : unbond ctx tally.state delAddr valDstAddr shares false = .ok (next.state, amount, veTokens))
      (amounts : next.veBurnedAmounts = addToMap veTokens tally.veBurnedAmounts)

theorem slashRedelegationEntry_ok {tally next : RedelegationTally} {entry : RedelegationEntry}
    (ok : slashRedelegationEntry ctx delAddr valDstAddr infractionHeight slashFactor tally entry = .ok next) :
    RedelegationSlashed ctx delAddr valDstAddr infractionHeight slashFactor tally entry next := by
  unfold slashRedelegationEntry at ok
  split at ok
  · next slashable =>
    dsimp only at ok
    split at ok
    · next none =>
      cases ok
      exact .spared (by rw [slashedShares, if_pos slashable, none]) rfl rfl
    · next shares some =>
      simp only [bind_ok_iff, mustSucceed_ok_iff] at ok
      obtain ⟨⟨state, amount, veTokens⟩, unbonded, dstValidator, _, burnt⟩ := ok
      have kept : next.state = state ∧ next.veBurnedAmounts = addToMap veTokens tally.veBurnedAmounts := by
        unfold RedelegationTally.burn at burnt
        split at burnt <;> cases burnt <;> exact ⟨rfl, rfl⟩
      refine .unbonded shares amount veTokens (by rw [slashedShares, if_pos slashable, some]) ?_ kept.2
      rw [kept.1]
      exact unbonded
  · next spared =>
    cases ok
    exact .spared (by rw [slashedShares, if_neg spared]) rfl rfl

/-- The parts of `SlashRedelegation`. -/
structure SlashRedelegationParts (ctx : Ctx) (state : State) (delAddr valSrcAddr valDstAddr : Address)
    (red : List RedelegationEntry) (infractionHeight : ℤ) (slashFactor : Dec) (next : State)
    (veRed : List VeRedelegationEntry) (tally : RedelegationTally) (middle : State) : Prop where
  shadow : state.entries.veRedelegations.lookup (delAddr, valSrcAddr, valDstAddr) = some veRed
  aligned : veRed.length = red.length
  loop : red.foldlM (slashRedelegationEntry ctx delAddr valDstAddr infractionHeight slashFactor) ⟨state, 0, 0, 0, ∅⟩ =
    .ok tally
  holdings : middle.holdings = tally.state.holdings
  entries : middle.entries = tally.state.entries
  burned : Burned middle next fun veId => max (amountOn tally.veBurnedAmounts veId) 0

theorem slashRedelegation_ok {red : List RedelegationEntry}
    (ok : slashRedelegation ctx state delAddr valSrcAddr valDstAddr red infractionHeight slashFactor =
      .ok (next, amount)) :
    ∃ veRed tally middle, SlashRedelegationParts ctx state delAddr valSrcAddr valDstAddr red infractionHeight slashFactor next
      veRed tally middle := by
  simp only [slashRedelegation, slashRedelegationIn, ok_iffs, Prod.mk.injEq] at ok
  obtain ⟨veRed, shadow, tally, loop, _, _, bank, _, final, burning, rfl, _⟩ := ok
  obtain ⟨present, aligned⟩ := shadowOf_ok shadow
  exact ⟨veRed, tally, tally.state.setBank bank, present, aligned, loop, rfl, rfl, burnFromVes_burned burning⟩

end SlashRedelegation

end Rotofury.Soundness.Staking
