import Rotofury.ToMathlib.ExceptFold
import Rotofury.Model.Vesting.Airdrops

/-! # What the two airdrop messages do

An announcement writes its entries under their targets and adds their amounts to the total; what it replaces there is
lost. A batch of payments mints each airdrop for its target and takes it from the pending ones.
-/

namespace Rotofury.Soundness.Vesting

open Model.Sdk Model.App Model.Vesting Except

variable {coin : Coin} {ctx : Ctx} {airdrop : Airdrop} {entry : Address × Airdrop} {airdrops : List Airdrop}
  {entries : List (Address × Airdrop)} {state next : State} {pending : AList fun _ : Address => Airdrop}
  {target : Address}

/-! ## Reading coins -/

/-- What a coin is normalized to. -/
def normalized (coin : Coin) : Coin :=
  if coin.denom = displayDenom then ⟨baseDenom, coin.amount * Dec.precision⟩ else coin

theorem truncateInt_ofInt (value : ℤ) : (Dec.ofInt value).truncateInt = value :=
  Int.mul_tdiv_cancel _ (by decide)

private theorem quo_smallest (value : Dec) : value.quo (Dec.withPrec 1 18) = .ok (Dec.ofInt value.raw) := by
  rw [Dec.quo_of_pos value (by decide)]
  have smallest : (Dec.withPrec 1 18).raw = 1 := by decide
  rw [smallest, Int.tdiv_one, Math.roundHalfEven_mul _ Dec.precision_pos]
  rfl

theorem normalizeDecCoin_ofInt (denom : Denom) (amount : ℤ) :
    normalizeDecCoin denom (Dec.ofInt amount) =
      .ok ((normalized ⟨denom, amount⟩).denom, Dec.ofInt (normalized ⟨denom, amount⟩).amount) := by
  unfold normalizeDecCoin denomUnit normalized
  by_cases display : denom = displayDenom
  · have large : Dec.one ≠ Dec.withPrec 1 18 := by decide
    rw [if_pos display, if_pos display]
    simp only [if_neg large, Dec.mul_one, quo_smallest, ok_bind]
    rfl
  · rw [if_neg display, if_neg display]
    by_cases base : denom = baseDenom
    · rw [if_pos base, base]
      rfl
    · rw [if_neg base]

theorem parseCoinNormalized_ok_iff {result : Coin} :
    parseCoinNormalized coin = .ok result ↔
      (0 ≤ coin.amount ∧ validateDenom coin.denom = true) ∧ normalized coin = result := by
  simp only [parseCoinNormalized, normalizeDecCoin_ofInt, ok_iffs, exists_const, Except.ok.injEq, Prod.exists,
    Prod.mk.injEq, ↓existsAndEq, and_true, true_and, truncateInt_ofInt]

theorem normalized_nonneg (nonneg : 0 ≤ coin.amount) : 0 ≤ (normalized coin).amount := by
  unfold normalized
  split
  · exact mul_nonneg nonneg (Int.natCast_nonneg _)
  · exact nonneg

/-! ## Announcements -/

theorem read_ok_iff :
    airdrop.read ctx = .ok entry ↔ ctx.accAddressFromBech32 airdrop.targetAddr = some entry.1 ∧
      (0 ≤ airdrop.amount.amount ∧ validateDenom airdrop.amount.denom = true) ∧
        { airdrop with amount := normalized airdrop.amount } = entry.2 := by
  simp only [Airdrop.read, ok_iffs, Ctx.parseAddress_ok_iff, parseCoinNormalized_ok_iff, Prod.ext_iff]
  constructor
  · rintro ⟨target, parsed, amount, ⟨valid, rfl⟩, rfl, same⟩
    exact ⟨parsed, valid, same⟩
  · rintro ⟨parsed, valid, same⟩
    exact ⟨_, parsed, _, ⟨valid, rfl⟩, rfl, same⟩

/-- Every entry of a message is read. -/
abbrev ReadAll (ctx : Ctx) : List Airdrop → List (Address × Airdrop) → Prop :=
  List.Forall₂ fun airdrop entry => airdrop.read ctx = .ok entry

/-- An entry as it stands in the book. -/
def bookEntry (entry : Address × Airdrop) : Address × Coin := (entry.1, entry.2.amount)

/-- The sum of a quantity over entries of the book. -/
def bookSum (quantity : Address × Coin → ℤ) (entries : List (Address × Coin)) : ℤ := (entries.map quantity).sum

section

variable (quantity : Address × Coin → ℤ)
include quantity

@[simp] theorem bookSum_nil : bookSum quantity [] = 0 := rfl

@[simp]
theorem bookSum_cons (entry : Address × Coin) (rest : List (Address × Coin)) :
    bookSum quantity (entry :: rest) = quantity entry + bookSum quantity rest := List.sum_cons

theorem bookSum_append (first second : List (Address × Coin)) :
    bookSum quantity (first ++ second) = bookSum quantity first + bookSum quantity second := by
  simp [bookSum]

end

/-- What the entries add up to, whatever they are of. -/
def bookTotal (entries : List (Address × Coin)) : ℤ := bookSum (·.2.amount) entries

/-- What an entry gives to an account, in one denomination. -/
def given (account : Address) (denom : Denom) (entry : Address × Coin) : ℤ :=
  Bank.onAccount entry.1 account (onDenom entry.2.denom entry.2.amount denom)

theorem accepted_of_readAll (read : ReadAll ctx airdrops entries) :
    airdrops.filterMap (·.accepted? ctx) = entries.map bookEntry := by
  induction read with
  | nil => rfl
  | @cons airdrop entry airdrops entries first _ ih =>
    have accepted : airdrop.accepted? ctx = some (bookEntry entry) := by
      rw [Airdrop.accepted?, first]
      rfl
    rw [List.filterMap_cons_some accepted, ih, List.map_cons]

theorem addAirdrops_ok {msg : MsgAddAirdrops} (ok : addAirdrops ctx state msg = .ok next) :
    ∃ entries, ReadAll ctx msg.airdrops entries ∧
      next = { state with
        store.airdrops := entries.foldl setAirdrop state.store.airdrops
        store.airdropTotalAmount := state.store.airdropTotalAmount + bookTotal (entries.map bookEntry) } ∧
      next.store.airdropTotalAmount ≤ ctx.airdropAmount := by
  simp only [addAirdrops, ok_iffs, not_lt] at ok
  obtain ⟨_, _, ⟨airdrops, total⟩, loop, _, capped, done⟩ := ok
  cases done
  suffices reads : ∃ entries, ReadAll ctx msg.airdrops entries ∧
      airdrops = entries.foldl setAirdrop state.store.airdrops ∧
      total = state.store.airdropTotalAmount + bookTotal (entries.map bookEntry) by
    obtain ⟨entries, read, rfl, rfl⟩ := reads
    exact ⟨entries, read, rfl, capped⟩
  generalize state.store.airdrops = before, state.store.airdropTotalAmount = counted, msg.airdrops = announced at loop ⊢
  induction announced generalizing before counted with
  | nil =>
    cases loop
    exact ⟨[], .nil, rfl, (add_zero _).symm⟩
  | cons airdrop rest ih =>
    obtain ⟨middle, turn, loop⟩ := foldlM_cons_ok_iff.mp loop
    simp only [ok_iffs] at turn
    obtain ⟨entry, first, rfl⟩ := turn
    obtain ⟨entries, read, rfl, rfl⟩ := ih _ _ loop
    refine ⟨entry :: entries, .cons first read, rfl, ?_⟩
    simp only [bookTotal, List.map_cons, bookSum_cons, bookEntry]
    ring

/-- The pending airdrops are kept under their targets and are of no negative amount. -/
def Sound (ctx : Ctx) (airdrops : AList fun _ : Address => Airdrop) : Prop :=
  ∀ target airdrop, airdrops.lookup target = some airdrop →
    ctx.accAddressFromBech32 airdrop.targetAddr = some target ∧ 0 ≤ airdrop.amount.amount

theorem sound_setAirdrop {airdrops : AList fun _ : Address => Airdrop} (sound : Sound ctx airdrops)
    (read : airdrop.read ctx = .ok entry) :
    Sound ctx (setAirdrop airdrops entry) := by
  obtain ⟨parsed, ⟨nonneg, _⟩, stored⟩ := read_ok_iff.mp read
  refine AList.forall_lookup_insert ?_ sound
  rw [← stored]
  exact ⟨parsed, normalized_nonneg nonneg⟩

theorem sound_foldl (sound : Sound ctx pending) (read : ReadAll ctx airdrops entries) :
    Sound ctx (entries.foldl setAirdrop pending) := by
  induction read generalizing pending with
  | nil => exact sound
  | cons first _ ih => exact ih (sound_setAirdrop sound first)

/-- The sum of a quantity over the pending airdrops. -/
def pendingSum (quantity : Address × Coin → ℤ) (airdrops : AList fun _ : Address => Airdrop) : ℤ :=
  airdrops.total fun target airdrop => quantity (target, airdrop.amount)

/-- What is pending for one target. -/
def pendingShare (quantity : Address × Coin → ℤ) (airdrops : AList fun _ : Address => Airdrop) (target : Address) : ℤ :=
  airdrops.share (fun target airdrop => quantity (target, airdrop.amount)) target

theorem pendingSum_setAirdrop (quantity : Address × Coin → ℤ) (airdrops : AList fun _ : Address => Airdrop)
    (entry : Address × Airdrop) : pendingSum quantity (setAirdrop airdrops entry) =
      pendingSum quantity airdrops - pendingShare quantity airdrops entry.1 + quantity (bookEntry entry) :=
  AList.total_insert ..

/-- The entries of a message replace no pending airdrop of some amount, neither one that was pending before the message
nor one of an earlier entry. -/
def Spares (ctx : Ctx) (pending : AList fun _ : Address => Airdrop) : List Airdrop → Prop
  | [] => True
  | airdrop :: rest => ∀ entry, airdrop.read ctx = .ok entry →
      (∀ replaced, pending.lookup entry.1 = some replaced → replaced.amount.amount = 0) ∧
        Spares ctx (setAirdrop pending entry) rest

theorem spares_cons_iff {rest : List Airdrop} (read : airdrop.read ctx = .ok entry) :
    Spares ctx pending (airdrop :: rest) ↔
      (∀ replaced, pending.lookup entry.1 = some replaced → replaced.amount.amount = 0) ∧
        Spares ctx (setAirdrop pending entry) rest := by
  constructor
  · exact fun spares => spares entry read
  · intro spares other same
    obtain rfl : entry = other := Except.ok.inj (read.symm.trans same)
    exact spares

/-- The quantity is nothing where the amount is. -/
def Vanishes (quantity : Address × Coin → ℤ) : Prop := ∀ entry, entry.2.amount = 0 → quantity entry = 0

theorem vanishes_given (account : Address) (denom : Denom) : Vanishes (given account denom) := by
  intro entry zero
  simp [given, zero, Bank.onAccount]

/-- Entries that replace nothing add what they are to what is pending. -/
theorem pendingSum_foldl {quantity : Address × Coin → ℤ} (vanishes : Vanishes quantity)
    (read : ReadAll ctx airdrops entries) (spares : Spares ctx pending airdrops) :
    pendingSum quantity (entries.foldl setAirdrop pending) =
      pendingSum quantity pending + bookSum quantity (entries.map bookEntry) := by
  induction read generalizing pending with
  | nil => simp
  | @cons airdrop entry airdrops entries first _ ih =>
    obtain ⟨replaced, later⟩ := (spares_cons_iff first).mp spares
    have nothing : pendingShare quantity pending entry.1 = 0 := by
      unfold pendingShare
      rcases found : pending.lookup entry.1 with _ | old
      · exact AList.share_of_absent found
      · rw [AList.share_of_lookup found]
        exact vanishes _ (replaced old found)
    rw [List.foldl_cons, ih later, pendingSum_setAirdrop, nothing, List.map_cons, bookSum_cons]
    ring

/-- The amounts that entries replace, together. -/
def replacedTotal (pending : AList fun _ : Address => Airdrop) : List (Address × Airdrop) → ℤ
  | [] => 0
  | entry :: rest => pendingShare (·.2.amount) pending entry.1 + replacedTotal (setAirdrop pending entry) rest

theorem pendingTotal_foldl (pending : AList fun _ : Address => Airdrop) (entries : List (Address × Airdrop)) :
    pendingSum (·.2.amount) (entries.foldl setAirdrop pending) =
      pendingSum (·.2.amount) pending + bookTotal (entries.map bookEntry) - replacedTotal pending entries := by
  induction entries generalizing pending with
  | nil => simp [bookTotal, replacedTotal]
  | cons entry rest ih =>
    rw [List.foldl_cons, ih, pendingSum_setAirdrop, replacedTotal, List.map_cons, bookTotal, bookTotal, bookSum_cons]
    ring

theorem pendingShare_eq_zero_iff :
    pendingShare (·.2.amount) pending target = 0 ↔
      ∀ replaced, pending.lookup target = some replaced → replaced.amount.amount = 0 := by
  unfold pendingShare
  rcases found : pending.lookup target with _ | old
  · rw [AList.share_of_absent found]
    simp
  · rw [AList.share_of_lookup found]
    simp

/-- Entries replace nothing in all exactly when each of them replaces nothing. -/
theorem replacedTotal_eq_zero_iff (sound : Sound ctx pending) (read : ReadAll ctx airdrops entries) :
    0 ≤ replacedTotal pending entries ∧ (replacedTotal pending entries = 0 ↔ Spares ctx pending airdrops) := by
  induction read generalizing pending with
  | nil => exact ⟨le_rfl, iff_of_true rfl trivial⟩
  | @cons airdrop entry airdrops entries first _ ih =>
    obtain ⟨nonneg, exactly⟩ := ih (sound_setAirdrop sound first)
    have share : 0 ≤ pendingShare (·.2.amount) pending entry.1 :=
      AList.share_nonneg _ (fun target other found => (sound target other found).2) entry.1
    rw [spares_cons_iff first, ← exactly, ← pendingShare_eq_zero_iff, replacedTotal]
    omega

/-! ## Payments -/

/-- A batch is the first airdrops in the order of their targets, one at least. -/
theorem payAirdrops_eq (ctx : Ctx) (maxCount count : ℕ) (airdrops : List Airdrop) (state : State) :
    payAirdrops ctx maxCount count airdrops state =
      (airdrops.take (max 1 (maxCount - count))).foldlM (payAirdrop ctx) state := by
  induction airdrops generalizing count state with
  | nil => rw [List.take_nil]; rfl
  | cons airdrop rest ih =>
    obtain ⟨left, enough⟩ : ∃ left, max 1 (maxCount - count) = left + 1 := ⟨max 1 (maxCount - count) - 1, by omega⟩
    rw [enough, List.take_succ_cons, List.foldlM_cons, payAirdrops]
    congr 1
    funext next
    split
    · next last =>
      obtain rfl : left = 0 := by omega
      rfl
    · next more =>
      obtain rfl : left = max 1 (maxCount - (count + 1)) := by omega
      exact ih (count + 1) next

/-- A payment mints an airdrop for its target and takes it from the pending ones. -/
theorem payAirdrop_ok (parsed : ctx.accAddressFromBech32 airdrop.targetAddr = some target)
    (ok : payAirdrop ctx state airdrop = .ok next) :
    next.store.airdropTotalAmount = state.store.airdropTotalAmount ∧
      next.store.airdrops = state.store.airdrops.erase target ∧
      (∀ account denom, (next.bank.balance account denom : ℤ) =
        state.bank.balance account denom + given account denom (target, airdrop.amount)) ∧
      ∀ denom, (next.bank.supply denom : ℤ) =
        state.bank.supply denom + onDenom airdrop.amount.denom airdrop.amount.amount denom := by
  simp only [payAirdrop, ok_iffs, Ctx.parseAddress_ok_iff] at ok
  obtain ⟨coins, build, minted, mint, recipient, same, sent, send, rfl⟩ := ok
  obtain rfl : target = recipient := Option.some.inj (parsed.symm.trans same)
  obtain ⟨_, amounts, _⟩ := newCoins_ok build
  obtain ⟨mintBalance, mintSupply⟩ := Bank.mintCoins_ok mint
  simp only [Bank.sendCoinsFromModuleToAccount, bind_ok_iff] at send
  obtain ⟨_, _, send⟩ := send
  obtain ⟨sendBalance, sendSupply⟩ := Bank.sendCoins_ok send
  refine ⟨rfl, rfl, fun account denom => ?_, fun denom => ?_⟩
  · rw [sendBalance, mintBalance, amounts, amountOf_cons, amountOf_nil, add_zero, given]
    ring
  · rw [sendSupply, mintSupply, amounts, amountOf_cons, amountOf_nil, add_zero]

/-- A pending airdrop with its target, as the store lists it. -/
abbrev Entry : Type := Sigma fun _ : Address => Airdrop

def Entry.inBook (entry : Entry) : Address × Coin := (entry.1, entry.2.amount)

/-- What a batch of pending airdrops does. -/
structure Paid (state next : State) (batch : List (Address × Coin)) : Prop where
  total : next.store.airdropTotalAmount = state.store.airdropTotalAmount
  pending : ∀ quantity, pendingSum quantity next.store.airdrops =
    pendingSum quantity state.store.airdrops - bookSum quantity batch
  kept : ∀ target airdrop, next.store.airdrops.lookup target = some airdrop →
    state.store.airdrops.lookup target = some airdrop
  balance : ∀ account denom, (next.bank.balance account denom : ℤ) =
    state.bank.balance account denom + bookSum (given account denom) batch
  supply : ∀ denom, (next.bank.supply denom : ℤ) =
    state.bank.supply denom + bookSum (fun entry => onDenom entry.2.denom entry.2.amount denom) batch

theorem paid_nil (state : State) : Paid state state [] :=
  ⟨rfl, fun _ => (sub_zero _).symm, fun _ _ => id, fun _ _ => (add_zero _).symm, fun _ => (add_zero _).symm⟩

theorem Paid.cons {middle : State} {entry : Address × Coin} {batch : List (Address × Coin)}
    (first : Paid state middle [entry]) (rest : Paid middle next batch) : Paid state next (entry :: batch) := by
  refine ⟨rest.total.trans first.total, fun quantity => ?_, fun target airdrop found =>
    first.kept target airdrop (rest.kept target airdrop found), fun account denom => ?_, fun denom => ?_⟩
  · rw [rest.pending, first.pending, bookSum_cons, bookSum_cons, bookSum_nil]
    ring
  · rw [rest.balance, first.balance, bookSum_cons, bookSum_cons, bookSum_nil]
    ring
  · rw [rest.supply, first.supply, bookSum_cons, bookSum_cons, bookSum_nil]
    ring

theorem payAirdrop_paid {entry : Entry} (parsed : ctx.accAddressFromBech32 entry.2.targetAddr = some entry.1)
    (found : state.store.airdrops.lookup entry.1 = some entry.2) (ok : payAirdrop ctx state entry.2 = .ok next) :
    Paid state next [entry.inBook] ∧ next.store.airdrops = state.store.airdrops.erase entry.1 := by
  obtain ⟨total, erased, balance, supply⟩ := payAirdrop_ok parsed ok
  refine ⟨⟨total, fun quantity => ?_, fun target airdrop kept => ?_, fun account denom => ?_, fun denom => ?_⟩, erased⟩
  · rw [pendingSum, erased, AList.total_erase, AList.share_of_lookup found]
    simp [bookSum, pendingSum, Entry.inBook]
  · rw [erased] at kept
    by_cases same : target = entry.1
    · rw [same, AList.lookup_erase] at kept
      cases kept
    · rwa [AList.lookup_erase_ne same] at kept
  · rw [balance]
    simp [bookSum, Entry.inBook]
  · rw [supply]
    simp [bookSum, Entry.inBook]

/-- A batch of airdrops that are pending under different targets. -/
theorem foldlM_paid {batch : List Entry} (sound : Sound ctx state.store.airdrops) (different : batch.NodupKeys)
    (pending : ∀ entry ∈ batch, state.store.airdrops.lookup entry.1 = some entry.2)
    (ok : (batch.map (·.2)).foldlM (payAirdrop ctx) state = .ok next) :
    Paid state next (batch.map Entry.inBook) := by
  induction batch generalizing state with
  | nil =>
    cases ok
    exact paid_nil _
  | cons entry rest ih =>
    obtain ⟨middle, pay, later⟩ := foldlM_cons_ok_iff.mp ok
    obtain ⟨fresh, different⟩ := List.nodupKeys_cons.mp different
    obtain ⟨found, pending⟩ := List.forall_mem_cons.mp pending
    obtain ⟨first, erased⟩ := payAirdrop_paid (sound _ _ found).1 found pay
    apply first.cons
    apply ih (fun target airdrop kept => sound target airdrop (first.kept target airdrop kept)) different _ later
    intro other inside
    have apart : other.1 ≠ entry.1 := fun same => fresh (same ▸ List.mem_map_of_mem inside)
    rw [erased, AList.lookup_erase_ne apart]
    exact pending other inside

/-- The entries come from the pending airdrops. -/
def FromPending (airdrops : AList fun _ : Address => Airdrop) (batch : List (Address × Coin)) : Prop :=
  ∀ entry ∈ batch, ∃ airdrop, airdrops.lookup entry.1 = some airdrop ∧ airdrop.amount = entry.2

theorem executeAirdrops_paid {msg : MsgExecuteAirdrops} (sound : Sound ctx state.store.airdrops)
    (ok : executeAirdrops ctx state msg = .ok next) :
    Paid state next ((state.store.pendingAirdrops.take (max 1 msg.maxCount)).filterMap (·.paidEntry ctx)) ∧
      FromPending state.store.airdrops
        ((state.store.pendingAirdrops.take (max 1 msg.maxCount)).filterMap (·.paidEntry ctx)) := by
  simp only [executeAirdrops, bind_ok_iff, payAirdrops_eq, Nat.sub_zero] at ok
  obtain ⟨_, _, ok⟩ := ok
  -- the batch with the targets it is kept under
  obtain ⟨sorted, listed⟩ : ∃ sorted, state.store.airdrops.entries.insertionSort
      (fun left right => left.1.toNat ≤ right.1.toNat) = sorted := ⟨_, rfl⟩
  have same : sorted.Perm state.store.airdrops.entries := listed ▸ List.perm_insertionSort _ _
  have different : (sorted.take (max 1 msg.maxCount)).NodupKeys :=
    ((List.perm_nodupKeys same).mpr state.store.airdrops.nodupKeys).sublist (List.take_sublist _ _)
  have pending : ∀ entry ∈ sorted.take (max 1 msg.maxCount), state.store.airdrops.lookup entry.1 = some entry.2 :=
    fun entry inside => AList.mem_lookup_iff.mpr (same.subset (List.mem_of_mem_take inside))
  rw [Store.pendingAirdrops, listed, ← List.map_take] at ok ⊢
  have entered : ((sorted.take (max 1 msg.maxCount)).map (·.2)).filterMap (·.paidEntry ctx) =
      (sorted.take (max 1 msg.maxCount)).map Entry.inBook := by
    rw [List.filterMap_map, ← List.filterMap_eq_map]
    apply List.filterMap_congr
    intro entry inside
    simp [Airdrop.paidEntry, (sound _ _ (pending entry inside)).1, Entry.inBook]
  rw [entered]
  refine ⟨foldlM_paid sound different pending ok, fun entry inside => ?_⟩
  obtain ⟨listed, member, rfl⟩ := List.mem_map.mp inside
  exact ⟨listed.2, pending listed member, rfl⟩

end Rotofury.Soundness.Vesting
