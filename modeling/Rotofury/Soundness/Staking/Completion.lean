import Rotofury.Model.Staking.Slash
import Rotofury.ToMathlib.ExceptFold

/-! # When completing an unbonding changes nothing

`CompleteUnbonding` goes through the mature entries of a record. For each it first releases what the ves have in it and
then pays the rest; the record itself is written at the end. An entry that the pool cannot pay ends the call with an
error, and nothing undoes what was released and paid before: the entries stay on record as if they had not been paid. So
the error leaves everything as it was exactly when there was nothing to release or to pay up to that entry.
-/

namespace Rotofury.Soundness.Staking

open Model.Sdk Model.App Model.Staking Except

variable {ctx : Ctx} {delAddr valAddr : Address} {state next : State} {fault : Fault}

/-- The account that unbonded coins are paid from. -/
def poolAddress : Address := ModuleAccount.notBondedPool.address

theorem shadowOf_ok {κ α β : Type} [DecidableEq κ] {shadows : AList fun _ : κ => List β} {key : κ} {record : List α}
    {reason : String} {shadow : List β} (ok : shadowOf shadows key record reason = .ok shadow) :
    shadows.lookup key = some shadow ∧ shadow.length = record.length := by
  unfold shadowOf at ok
  split at ok
  · cases ok
  · next found lookup =>
    simp only [ok_iffs] at ok
    obtain ⟨_, same, rfl⟩ := ok
    exact ⟨lookup, same⟩

section Payments

variable {ctx : Ctx} {bank next : Bank} {delAddr : Address} {amount : ℤ}

theorem newCoins_single {denom : Denom} (positive : 0 < amount) : newCoins [⟨denom, amount⟩] = .ok [⟨denom, amount⟩] := by
  have kept : sanitizeCoins [⟨denom, amount⟩] = [⟨denom, amount⟩] := by
    simp [sanitizeCoins, positive.ne']
  have valid : validCoins [⟨denom, amount⟩] := ⟨by simpa using positive, List.pairwise_singleton _ _⟩
  rw [newCoins, kept, if_pos valid]

/-- A payment goes through exactly when the pool holds it. -/
theorem payUnbonded_ok_iff (nonneg : 0 ≤ amount) :
    (∃ next, payUnbonded ctx bank delAddr amount = .ok next) ↔ amount ≤ bank.balance poolAddress ctx.bondDenom := by
  unfold payUnbonded
  split
  · next zero => exact ⟨fun _ => by omega, fun _ => ⟨bank, rfl⟩⟩
  · next nonzero =>
    have positive : 0 < amount := lt_of_le_of_ne nonneg (Ne.symm nonzero)
    rw [newCoins_single positive, ok_bind]
    constructor
    · rintro ⟨next, ok⟩
      simp only [Bank.sendCoins, Bank.subUnlockedCoins, Bank.subCoin, ok_iffs, List.foldlM_cons] at ok
      obtain ⟨_, ⟨_, _, _, ⟨_, enough, _⟩, _⟩, _⟩ := ok
      exact enough
    · intro enough
      apply Bank.sendCoins_of_covered ⟨by simpa using positive, List.pairwise_singleton _ _⟩
      intro denom
      rw [amountOf_cons, amountOf_nil, add_zero]
      unfold onDenom
      split
      · next same => exact same ▸ enough
      · omega

variable (ok : payUnbonded ctx bank delAddr amount = .ok next)
include ok

theorem payUnbonded_ok : (∀ a d, (next.balance a d : ℤ) = bank.balance a d +
      (Bank.onAccount delAddr a (onDenom ctx.bondDenom amount d) -
        Bank.onAccount poolAddress a (onDenom ctx.bondDenom amount d))) ∧ next.supply = bank.supply := by
  unfold payUnbonded at ok
  split at ok
  · next zero =>
    cases ok
    simp [zero, Bank.onAccount, onDenom]
  · simp only [bind_ok_iff] at ok
    obtain ⟨coins, built, sent⟩ := ok
    obtain ⟨_, amounts, _⟩ := newCoins_ok built
    obtain ⟨balances, supply⟩ := Bank.sendCoins_ok sent
    refine ⟨fun a d => ?_, supply⟩
    rw [balances, amounts, amountOf_cons, amountOf_nil, add_zero]
    rfl

/-- A payment of nothing, or from the pool to itself, leaves the bank as it is. -/
theorem payUnbonded_unchanged (idle : amount = 0 ∨ delAddr = poolAddress) : next = bank := by
  obtain ⟨balances, supply⟩ := payUnbonded_ok ok
  have same : next.balance = bank.balance := by
    funext a d
    have moved := balances a d
    rcases idle with rfl | rfl
    · simp only [Bank.onAccount, onDenom, ite_self, sub_zero, add_zero] at moved
      exact_mod_cast moved
    · rw [sub_self, add_zero] at moved
      exact_mod_cast moved
  cases next
  cases bank
  simp_all

end Payments

/-- What a ve has in an entry. -/
def balanceOf (veId : ℕ) (veEntry : VeUnbondingDelegationEntry) : ℤ :=
  (veEntry.veBalances.map fun vb => if vb.veId = veId then vb.balance else 0).sum

theorem releaseBalances_amount (holdings : Holdings) (veEntry : VeUnbondingDelegationEntry) (veId : ℕ) :
    (releaseBalances holdings veEntry).veDelegatedAmount veId = holdings.veDelegatedAmount veId - balanceOf veId veEntry := by
  unfold releaseBalances balanceOf
  induction veEntry.veBalances generalizing holdings with
  | nil => simp
  | cons vb rest ih =>
    rw [List.foldl_cons, ih, List.map_cons, List.sum_cons]
    simp only [Holdings.subVeDelegatedAmount, Holdings.setVeDelegatedAmount, Function.update_apply, eq_comm (a := veId)]
    split
    · next same =>
      rw [same]
      ring
    · ring

/-- The entries of a record that are paid. -/
def maturePairs (ctx : Ctx) (pairs : List UnbondingPair) : List UnbondingPair := pairs.filter fun pair => pair.1.isMature ctx

/-- The payments for entries in their order. -/
def payAll (ctx : Ctx) (delAddr : Address) (bank : Bank) (pairs : List UnbondingPair) : Except Fault Bank :=
  pairs.foldlM (fun bank pair => payUnbonded ctx bank delAddr (unconstrainedBalance pair)) bank

/-- What the ves have in entries is released in their order. -/
def releaseAll (holdings : Holdings) (pairs : List UnbondingPair) : Holdings :=
  pairs.foldl (fun holdings pair => releaseBalances holdings pair.2) holdings

/-- What a ve has in entries. -/
def balanceIn (veId : ℕ) (pairs : List UnbondingPair) : ℤ := (pairs.map fun pair => balanceOf veId pair.2).sum

theorem releaseAll_amount (holdings : Holdings) (pairs : List UnbondingPair) (veId : ℕ) :
    (releaseAll holdings pairs).veDelegatedAmount veId = holdings.veDelegatedAmount veId - balanceIn veId pairs := by
  induction pairs generalizing holdings with
  | nil => simp [releaseAll, balanceIn]
  | cons pair rest ih =>
    rw [releaseAll, List.foldl_cons, ← releaseAll, ih, releaseBalances_amount, balanceIn, balanceIn, List.map_cons,
      List.sum_cons]
    ring

theorem releaseAll_veDelegations (holdings : Holdings) (pairs : List UnbondingPair) :
    (releaseAll holdings pairs).veDelegations = holdings.veDelegations := by
  have entry : ∀ (holdings : Holdings) (veEntry : VeUnbondingDelegationEntry),
      (releaseBalances holdings veEntry).veDelegations = holdings.veDelegations := by
    intro holdings veEntry
    unfold releaseBalances
    induction veEntry.veBalances generalizing holdings with
    | nil => rfl
    | cons vb rest ih => exact ih _
  induction pairs generalizing holdings with
  | nil => rfl
  | cons pair rest ih => exact (ih _).trans (entry holdings pair.2)

/-- Where a call ends in an error: the entries before were paid, the one it ends at could not be, and what the ves have
in all of these is released. -/
structure Stopped (ctx : Ctx) (delAddr : Address) (state : State) (pairs : List UnbondingPair) (next : State)
    (before : List UnbondingPair) (pair : UnbondingPair) (bank : Bank) (fault : Fault) : Prop where
  split : ∃ after, maturePairs ctx pairs = before ++ pair :: after
  covered : ∀ paid ∈ before ++ [pair], 0 ≤ unconstrainedBalance paid
  paid : payAll ctx delAddr state.ve.bank before = .ok bank
  unpaid : payUnbonded ctx bank delAddr (unconstrainedBalance pair) = .error fault
  reached : next = (state.setHoldings (releaseAll state.holdings (before ++ [pair]))).setBank bank

theorem completeEntries_stopped {pairs : List UnbondingPair}
    (failed : completeEntries ctx delAddr state pairs = .ok (next, .error fault)) :
    ∃ before pair bank, Stopped ctx delAddr state pairs next before pair bank fault := by
  induction pairs generalizing state with
  | nil =>
    simp only [completeEntries, Except.ok.injEq, Prod.mk.injEq] at failed
    exact absurd failed.2 (by simp)
  | cons pair rest ih =>
    unfold completeEntries at failed
    split at failed
    · next mature =>
      have matured : maturePairs ctx (pair :: rest) = pair :: maturePairs ctx rest :=
        List.filter_cons_of_pos (by simpa using mature)
      simp only [ok_iffs] at failed
      obtain ⟨_, nonneg, failed⟩ := failed
      split at failed
      · next unpaid =>
        -- the call ends here
        obtain ⟨rfl, same⟩ := Prod.mk.inj (Except.ok.inj failed)
        obtain rfl := Except.error.inj same
        exact ⟨[], pair, state.ve.bank, ⟨_, matured⟩, by simpa using nonneg, rfl, unpaid, rfl⟩
      · next bank paid =>
        simp only [ok_iffs, Prod.mk.injEq] at failed
        obtain ⟨coin, _, ⟨reached, outcome⟩, continued, rfl, failed⟩ := failed
        rcases outcome with other | result
        · obtain rfl := Except.error.inj failed
          obtain ⟨before, last, final, stopped⟩ := ih continued
          obtain ⟨after, split⟩ := stopped.split
          refine ⟨pair :: before, last, final, ⟨after, by rw [matured, split]; rfl⟩, ?_, ?_, stopped.unpaid,
            stopped.reached⟩
          · exact List.forall_mem_cons.mpr ⟨nonneg, stopped.covered⟩
          · exact foldlM_cons_ok_iff.mpr ⟨bank, paid, stopped.paid⟩
        · cases failed
    · next later =>
      have matured : maturePairs ctx (pair :: rest) = maturePairs ctx rest :=
        List.filter_cons_of_neg (by simpa using later)
      simp only [ok_iffs, Prod.mk.injEq] at failed
      obtain ⟨⟨reached, outcome⟩, continued, rfl, failed⟩ := failed
      rcases outcome with other | result
      · obtain rfl := Except.error.inj failed
        obtain ⟨before, last, final, stopped⟩ := ih continued
        exact ⟨before, last, final, matured ▸ stopped.split, stopped.covered, stopped.paid, stopped.unpaid,
          stopped.reached⟩
      · cases failed

section PayAll

variable {ctx : Ctx} {delAddr : Address} {start bank : Bank} {pairs : List UnbondingPair}

/-- Payments to anybody else come out of the pool. -/
theorem payAll_pool (paid : payAll ctx delAddr start pairs = .ok bank) (other : delAddr ≠ poolAddress) :
    (bank.balance poolAddress ctx.bondDenom : ℤ) =
      start.balance poolAddress ctx.bondDenom - (pairs.map unconstrainedBalance).sum := by
  have total := foldlM_total (fun bank : Bank => (bank.balance poolAddress ctx.bondDenom : ℤ))
    (fun pair => -unconstrainedBalance pair) (fun before pair after ok => ?_) paid
  · rw [total, sub_eq_add_neg, List.sum_neg, List.map_map]
    rfl
  · rw [(payUnbonded_ok ok).1]
    simp [Bank.onAccount, onDenom, other.symm]

/-- Payments of the pool to itself are only made where it holds them. -/
theorem payAll_self (paid : payAll ctx poolAddress start pairs = .ok bank)
    (covered : ∀ pair ∈ pairs, 0 ≤ unconstrainedBalance pair) :
    ∀ pair ∈ pairs, unconstrainedBalance pair ≤ start.balance poolAddress ctx.bondDenom := by
  induction pairs with
  | nil => simp
  | cons pair rest ih =>
    obtain ⟨nonneg, later⟩ := List.forall_mem_cons.mp covered
    obtain ⟨next, first, remaining⟩ := foldlM_cons_ok_iff.mp paid
    obtain rfl := payUnbonded_unchanged first (.inr rfl)
    exact List.forall_mem_cons.mpr ⟨(payUnbonded_ok_iff nonneg).mp ⟨_, first⟩, ih remaining later⟩

/-- Payments that the pool holds, of nothing or to itself, go through and leave the bank as it is. -/
theorem payAll_idle
    (covered : ∀ pair ∈ pairs, 0 ≤ unconstrainedBalance pair ∧
      unconstrainedBalance pair ≤ start.balance poolAddress ctx.bondDenom)
    (idle : ∀ pair ∈ pairs, unconstrainedBalance pair = 0 ∨ delAddr = poolAddress) :
    payAll ctx delAddr start pairs = .ok start := by
  induction pairs with
  | nil => rfl
  | cons pair rest ih =>
    obtain ⟨here, later⟩ := List.forall_mem_cons.mp covered
    obtain ⟨first, others⟩ := List.forall_mem_cons.mp idle
    obtain ⟨next, paid⟩ := (payUnbonded_ok_iff here.1).mpr here.2
    obtain rfl := payUnbonded_unchanged paid first
    exact foldlM_cons_ok_iff.mpr ⟨next, paid, ih later others⟩

end PayAll

/-- Nothing that the call works on has changed. -/
structure Unchanged (state next : State) : Prop where
  bank : next.ve.bank = state.ve.bank
  delegated : next.holdings.veDelegatedAmount = state.holdings.veDelegatedAmount
  unbonding : next.entries.unbondingDelegations = state.entries.unbondingDelegations
  veUnbonding : next.entries.veUnbondingDelegations = state.entries.veUnbondingDelegations

/-- The first mature entry that the pool cannot pay comes before any payment, other than of the pool to itself, and the
ves have nothing in it and in the mature entries before it. -/
def NothingDone (ctx : Ctx) (bank : Bank) (delAddr : Address) (pairs : List UnbondingPair) : Prop :=
  ∃ before pair after, maturePairs ctx pairs = before ++ pair :: after ∧
    (∀ paid ∈ before, 0 ≤ unconstrainedBalance paid ∧
      unconstrainedBalance paid ≤ bank.balance poolAddress ctx.bondDenom) ∧
    bank.balance poolAddress ctx.bondDenom < unconstrainedBalance pair ∧
    (∀ paid ∈ before, unconstrainedBalance paid = 0 ∨ delAddr = poolAddress) ∧
    ∀ veId, balanceIn veId (before ++ [pair]) = 0

namespace Stopped

variable {ctx : Ctx} {delAddr : Address} {state next : State} {pairs before : List UnbondingPair} {pair : UnbondingPair}
  {bank : Bank} {fault : Fault} (stopped : Stopped ctx delAddr state pairs next before pair bank fault)

include stopped

theorem short : bank.balance poolAddress ctx.bondDenom < unconstrainedBalance pair := by
  by_contra enough
  obtain ⟨paid, ok⟩ := (payUnbonded_ok_iff (stopped.covered pair (by simp))).mpr (not_lt.mp enough)
  exact absurd (stopped.unpaid.symm.trans ok) (by simp)

theorem amounts_unchanged_iff :
    next.holdings.veDelegatedAmount = state.holdings.veDelegatedAmount ↔
      ∀ veId, balanceIn veId (before ++ [pair]) = 0 := by
  rw [stopped.reached, funext_iff]
  refine forall_congr' fun veId => ?_
  change (releaseAll state.holdings (before ++ [pair])).veDelegatedAmount veId = _ ↔ _
  rw [releaseAll_amount]
  omega

/-- The bank is as it was exactly when no entry was paid, other than by the pool to itself. -/
theorem bank_unchanged_iff :
    bank = state.ve.bank ↔ ∀ paid ∈ before, unconstrainedBalance paid = 0 ∨ delAddr = poolAddress := by
  have covered : ∀ paid ∈ before, 0 ≤ unconstrainedBalance paid :=
    fun paid inside => stopped.covered paid (List.mem_append_left _ inside)
  by_cases self : delAddr = poolAddress
  · subst self
    have held := payAll_self stopped.paid covered
    have idle := payAll_idle (fun paid inside => ⟨covered paid inside, held paid inside⟩)
      (fun _ _ => .inr (rfl : poolAddress = poolAddress))
    exact ⟨fun _ _ _ => .inr rfl, fun _ => Except.ok.inj (stopped.paid.symm.trans idle)⟩
  · have pool := payAll_pool stopped.paid self
    constructor
    · rintro rfl paid inside
      have sum : (before.map unconstrainedBalance).sum = 0 := by omega
      exact .inl (List.all_zero_of_le_zero_le_of_sum_eq_zero (List.forall_mem_map.mpr covered) sum
        (List.mem_map_of_mem inside))
    · intro idle
      have zero : ∀ paid ∈ before, unconstrainedBalance paid = 0 := fun paid inside => (idle paid inside).resolve_right self
      have nothing : payAll ctx delAddr state.ve.bank before = .ok state.ve.bank := by
        refine payAll_idle (fun paid inside => ?_) idle
        rw [zero paid inside]
        exact ⟨le_rfl, Int.natCast_nonneg _⟩
      exact Except.ok.inj (stopped.paid.symm.trans nothing)

theorem nothingDone_iff :
    NothingDone ctx state.ve.bank delAddr pairs ↔
      bank = state.ve.bank ∧ next.holdings.veDelegatedAmount = state.holdings.veDelegatedAmount := by
  have covered : ∀ paid ∈ before, 0 ≤ unconstrainedBalance paid :=
    fun paid inside => stopped.covered paid (List.mem_append_left _ inside)
  obtain ⟨after, split⟩ := stopped.split
  constructor
  · rintro ⟨earlier, last, rest, same, held, short, idle, none⟩
    have arrives := payAll_idle held idle
    obtain ⟨reason, stops⟩ : ∃ reason, payUnbonded ctx state.ve.bank delAddr (unconstrainedBalance last) = .error reason := by
      rcases outcome : payUnbonded ctx state.ve.bank delAddr (unconstrainedBalance last) with reason | paid
      · exact ⟨reason, rfl⟩
      · have nonneg : 0 ≤ unconstrainedBalance last := by omega
        exact absurd ((payUnbonded_ok_iff nonneg).mp ⟨paid, outcome⟩) (not_le.mpr short)
    -- both are the entry at which the payments fail
    obtain ⟨rfl, rfl⟩ := foldlM_stop_unique (split.symm.trans same) stopped.paid stopped.unpaid arrives stops
    exact ⟨stopped.bank_unchanged_iff.mpr idle, stopped.amounts_unchanged_iff.mpr none⟩
  · rintro ⟨rfl, same⟩
    have idle := stopped.bank_unchanged_iff.mp rfl
    refine ⟨before, pair, after, split, fun paid inside => ⟨covered paid inside, ?_⟩, stopped.short, idle,
      stopped.amounts_unchanged_iff.mp same⟩
    rcases idle paid inside with zero | rfl
    · rw [zero]
      exact Int.natCast_nonneg _
    · exact payAll_self stopped.paid covered paid inside

end Stopped

/-- The end of the block goes on from the state an error has left. -/
theorem completeMature_passes_over (failed : completeUnbonding ctx state delAddr valAddr = .ok (next, .error fault))
    (unbonds : List DvPair) (redelegations : List DvvTriplet) :
    completeMature ctx state ((delAddr, valAddr) :: unbonds) redelegations =
      completeMature ctx next unbonds redelegations := by
  rw [completeMature, List.foldlM_cons, failed]
  rfl

/-- The record of a delegator with a validator, paired with its shadow, satisfies a condition. -/
def OnRecord (state : State) (delAddr valAddr : Address) (condition : List UnbondingPair → Prop) : Prop :=
  ∀ ubd veUbd, state.entries.unbondingDelegations.lookup (delAddr, valAddr) = some ubd →
    state.entries.veUnbondingDelegations.lookup (delAddr, valAddr) = some veUbd → condition (ubd.zip veUbd)

theorem onRecord_iff {condition : List UnbondingPair → Prop} {ubd : List UnbondingDelegationEntry}
    {veUbd : List VeUnbondingDelegationEntry}
    (found : state.entries.unbondingDelegations.lookup (delAddr, valAddr) = some ubd)
    (shadow : state.entries.veUnbondingDelegations.lookup (delAddr, valAddr) = some veUbd) :
    OnRecord state delAddr valAddr condition ↔ condition (ubd.zip veUbd) := by
  constructor
  · exact fun all => all ubd veUbd found shadow
  · intro here left right leftFound rightFound
    rw [found] at leftFound
    rw [shadow] at rightFound
    cases leftFound
    cases rightFound
    exact here

/-- An error, which the end of the block passes over, leaves everything as it was exactly when there was nothing to
release and nothing to pay up to the entry at which it occurs. -/
theorem completeUnbonding_unchanged_iff {ctx : Ctx} {state next : State} {delAddr valAddr : Address} {fault : Fault}
    (failed : completeUnbonding ctx state delAddr valAddr = .ok (next, .error fault)) :
    (∀ unbonds redelegations, completeMature ctx state ((delAddr, valAddr) :: unbonds) redelegations =
        completeMature ctx next unbonds redelegations) ∧
      (Unchanged state next ↔ OnRecord state delAddr valAddr (NothingDone ctx state.ve.bank delAddr)) := by
  refine ⟨completeMature_passes_over failed, ?_⟩
  unfold completeUnbonding at failed
  split at failed
  · next none =>
    obtain ⟨rfl, _⟩ := Prod.mk.inj (Except.ok.inj failed)
    refine iff_of_true ⟨rfl, rfl, rfl, rfl⟩ fun ubd veUbd found => ?_
    rw [none] at found
    cases found
  · next ubd found =>
    simp only [bind_ok_iff] at failed
    obtain ⟨veUbd, shadow, ⟨reached, outcome⟩, loop, failed⟩ := failed
    rcases outcome with reason | ⟨kept, balances⟩
    · obtain ⟨rfl, _⟩ := Prod.mk.inj (Except.ok.inj failed)
      obtain ⟨before, pair, bank, stopped⟩ := completeEntries_stopped loop
      have bankEq : reached.ve.bank = bank := by rw [stopped.reached]; rfl
      have entriesEq : reached.entries = state.entries := by rw [stopped.reached]; rfl
      rw [onRecord_iff found (shadowOf_ok shadow).1, stopped.nothingDone_iff]
      constructor
      · intro same
        exact ⟨bankEq.symm.trans same.bank, same.delegated⟩
      · rintro ⟨sameBank, sameAmounts⟩
        exact ⟨bankEq.trans sameBank, sameAmounts, by rw [entriesEq], by rw [entriesEq]⟩
    · cases Except.ok.inj failed

/-- There is one operator address, and the text of a validator is none. -/
def sampleWorld : World where
  valAddressFromBech32 text := if text = "valoper" then some 9 else none
  validatorString _ := "operator_address: valoper\n"
  validatorString_own := by simp

def sampleCtx : Ctx where
  world := sampleWorld
  ve := ⟨100, 5, "airon", none, by decide, by decide⟩
  headerTime := 100 * 10 ^ 9
  bondDenom := "airon"
  unbondingTime := 50 * 10 ^ 9
  maxEntries := 7
  powerReduction := 1
  seconds := by decide

/-- Ves have these amounts delegated; nothing else is there. -/
def delegatedBy (amounts : ℕ → ℤ) : Holdings := ⟨fun _ => none, fun _ => none, fun _ => none, ∅, amounts, by simp⟩

/-- A pool of some coins, and a record of two mature entries, of five coins each of which a ve has some. -/
def sampleUnbonding (pool : ℕ) (first second : ℤ) : State where
  holdings := delegatedBy fun veId => if veId = 1 then 3 else 0
  entries := { Entries.empty with
    unbondingDelegations := AList.singleton (1, 9) [⟨1, 60, 5, 5⟩, ⟨2, 70, 5, 5⟩]
    veUnbondingDelegations := AList.singleton (1, 9) [⟨[⟨1, first, first⟩]⟩, ⟨[⟨1, second, second⟩]⟩] }
  ve := ⟨.genesis, ⟨fun account denom => if account = poolAddress ∧ denom = "airon" then pool else 0, fun _ => pool⟩⟩

/-- The first entry is already too much for the pool, and no ve has a part in it. -/
theorem completeUnbonding_unchanged_sample :
    ∃ next fault, completeUnbonding sampleCtx (sampleUnbonding 4 0 0) 1 9 = .ok (next, .error fault) ∧
      Unchanged (sampleUnbonding 4 0 0) next := by
  have ends : Prod.snd <$> completeUnbonding sampleCtx (sampleUnbonding 4 0 0) 1 9 =
      .ok (.error (.insufficientFunds poolAddress "airon")) := by decide +kernel
  obtain ⟨⟨next, outcome⟩, failed, rfl⟩ := map_ok_iff.mp ends
  refine ⟨next, _, failed, (completeUnbonding_unchanged_iff failed).2.mpr fun ubd veUbd found shadow => ?_⟩
  cases found
  cases shadow
  refine ⟨[], (⟨1, 60, 5, 5⟩, ⟨[⟨1, 0, 0⟩]⟩), [(⟨2, 70, 5, 5⟩, ⟨[⟨1, 0, 0⟩]⟩)], by decide, by simp, by decide, by simp, ?_⟩
  intro veId
  simp [balanceIn, balanceOf]

/-- The first entry is paid and released, the second is too much for the pool, and both stay on record. -/
theorem completeUnbonding_paid_twice_sample :
    ∃ next fault, completeUnbonding sampleCtx (sampleUnbonding 7 1 0) 1 9 = .ok (next, .error fault) ∧
      next.ve.bank.balance 1 "airon" = 4 ∧ next.holdings.veDelegatedAmount 1 = 2 ∧
      next.entries.unbondingDelegations.lookup (1, 9) = some [⟨1, 60, 5, 5⟩, ⟨2, 70, 5, 5⟩] ∧
      ¬ Unchanged (sampleUnbonding 7 1 0) next := by
  have ends : (fun result => (result.2, result.1.ve.bank.balance 1 "airon", result.1.holdings.veDelegatedAmount 1,
      result.1.entries.unbondingDelegations.lookup (1, 9))) <$>
        completeUnbonding sampleCtx (sampleUnbonding 7 1 0) 1 9 =
      .ok (.error (.insufficientFunds poolAddress "airon"), 4, 2, some [⟨1, 60, 5, 5⟩, ⟨2, 70, 5, 5⟩]) := by
    decide +kernel
  obtain ⟨⟨next, outcome⟩, failed, same⟩ := map_ok_iff.mp ends
  simp only [Prod.mk.injEq] at same
  obtain ⟨rfl, paid, released, kept⟩ := same
  refine ⟨next, _, failed, paid, released, kept, fun unchanged => ?_⟩
  rw [unchanged.delegated] at released
  exact absurd released (by decide)

end Rotofury.Soundness.Staking
