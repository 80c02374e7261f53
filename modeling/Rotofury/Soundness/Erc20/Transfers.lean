import Rotofury.Soundness.Erc20.Registry

/-! # What the ERC20 keeper moves

`SendCoins` of the ERC20 keeper adds to each account in the contract of a coin exactly what the coins say, and touches no
other contract of the module as long as every token is one of a contract registered as someone else's.
-/

namespace Rotofury.Soundness.Erc20

open Model.Sdk Model.Erc20 Except

variable {coins nativeCoins nativeErc20Tokens : List Coin} {call : TokenCall} {caller called : Address}
  {transfer : Address × ℤ} {transfers : List (Address × ℤ)}

/-! ## Coins and tokens -/

theorem splitCoinsByErc20_concat (coins : List Coin) (coin : Coin) :
    splitCoinsByErc20 (coins ++ [coin]) = if isDenomForErc20 coin.denom then
      ((splitCoinsByErc20 coins).1, insertCoin (splitCoinsByErc20 coins).2 coin)
    else (insertCoin (splitCoinsByErc20 coins).1 coin, (splitCoinsByErc20 coins).2) := by
  rw [splitCoinsByErc20, List.foldl_concat]
  rfl

/-- The split keeps every amount, on the side of its denomination. -/
theorem amountOf_splitCoinsByErc20 (coins : List Coin) (denom : Denom) :
    amountOf (splitCoinsByErc20 coins).1 denom = (if isDenomForErc20 denom then 0 else amountOf coins denom) ∧
      amountOf (splitCoinsByErc20 coins).2 denom = (if isDenomForErc20 denom then amountOf coins denom else 0) := by
  induction coins using List.reverseRecOn with
  | nil => simp [splitCoinsByErc20]
  | append_singleton coins coin ih =>
    have total : amountOf (coins ++ [coin]) denom = amountOf coins denom + onDenom coin.denom coin.amount denom := by
      simp [amountOf]
    obtain ⟨native, tokens⟩ := ih
    rw [splitCoinsByErc20_concat, total]
    by_cases same : coin.denom = denom
    · subst same
      split
      · next isToken => simp [amountOf_insertCoin, native, tokens, isToken]
      · next isNative => simp [amountOf_insertCoin, native, tokens, isNative]
    · split
      · simp [amountOf_insertCoin, native, tokens, onDenom_of_ne same]
      · simp [amountOf_insertCoin, native, tokens, onDenom_of_ne same]

/-- Both sides hold denominations of the list only. -/
theorem denom_of_mem_splitCoinsByErc20 (coins : List Coin) :
    (∀ coin ∈ (splitCoinsByErc20 coins).1, isDenomForErc20 coin.denom = false ∧ ∃ old ∈ coins, old.denom = coin.denom) ∧
      ∀ coin ∈ (splitCoinsByErc20 coins).2, isDenomForErc20 coin.denom = true ∧ ∃ old ∈ coins, old.denom = coin.denom := by
  induction coins using List.reverseRecOn with
  | nil => simp [splitCoinsByErc20]
  | append_singleton coins last ih =>
    obtain ⟨native, tokens⟩ := ih
    have isLast : last ∈ coins ++ [last] := by simp
    have earlier : ∀ denom, (∃ old ∈ coins, old.denom = denom) → ∃ old ∈ coins ++ [last], old.denom = denom :=
      fun denom ⟨old, member, same⟩ => ⟨old, List.mem_append_left _ member, same⟩
    rw [splitCoinsByErc20_concat]
    split
    · next isToken =>
      refine ⟨fun coin member => ⟨(native coin member).1, earlier _ (native coin member).2⟩, fun coin member => ?_⟩
      rcases denom_of_mem_insertCoin member with same | ⟨old, isOld, same⟩
      · rw [same]
        exact ⟨isToken, last, isLast, rfl⟩
      · rw [← same]
        exact ⟨(tokens old isOld).1, earlier _ (tokens old isOld).2⟩
    · next isNative =>
      refine ⟨fun coin member => ?_, fun coin member => ⟨(tokens coin member).1, earlier _ (tokens coin member).2⟩⟩
      rcases denom_of_mem_insertCoin member with same | ⟨old, isOld, same⟩
      · rw [same]
        exact ⟨by simpa using isNative, last, isLast, rfl⟩
      · rw [← same]
        exact ⟨(native old isOld).1, earlier _ (native old isOld).2⟩

theorem splitCoinsByErc20_nonneg (nonneg : ∀ coin ∈ coins, 0 ≤ coin.amount) :
    ∀ coin ∈ (splitCoinsByErc20 coins).1, 0 ≤ coin.amount := by
  induction coins using List.reverseRecOn with
  | nil => simp [splitCoinsByErc20]
  | append_singleton coins last ih =>
    obtain ⟨earlier, lastNonneg⟩ := List.forall_mem_append.mp nonneg
    rw [splitCoinsByErc20_concat]
    split
    · exact ih earlier
    · exact insertCoin_nonneg (ih earlier) (lastNonneg last List.mem_cons_self)

/-- Without tokens, the coins of the bank are all there is. -/
theorem amountOf_native (noTokens : (splitCoinsByErc20 coins).2 = []) (denom : Denom) :
    amountOf (splitCoinsByErc20 coins).1 denom = amountOf coins denom := by
  obtain ⟨native, tokens⟩ := amountOf_splitCoinsByErc20 coins denom
  rw [noTokens, amountOf_nil] at tokens
  split at tokens
  · next isToken => rw [native, if_pos isToken, tokens]
  · next isNative => rw [native, if_neg isNative]

/-! ## One contract -/

/-- What moving an amount adds to an account. -/
def gain (sender recipient : Option Address) (amount : ℤ) (account : Address) : ℤ :=
  (if recipient = some account then amount else 0) - (if sender = some account then amount else 0)

@[simp]
theorem gain_zero (sender recipient : Option Address) (account : Address) : gain sender recipient 0 account = 0 := by
  simp [gain]

theorem gain_add (sender recipient : Option Address) (left right : ℤ) (account : Address) :
    gain sender recipient (left + right) account = gain sender recipient left account + gain sender recipient right account := by
  unfold gain
  split_ifs <;> ring

theorem gain_neg (sender recipient : Option Address) (amount : ℤ) (account : Address) :
    gain sender recipient (-amount) account = gain recipient sender amount account := by
  unfold gain
  split_ifs <;> ring

/-- A transfer is a debit and a credit. -/
theorem gain_split (sender recipient : Option Address) (amount : ℤ) (account : Address) :
    gain sender recipient amount account = gain sender none amount account + gain none recipient amount account := by
  unfold gain
  simp only [reduceCtorEq, if_false]
  ring

section Calls

variable {tokens next : Tokens} {contract account caller : Address} {amount : ℕ}

theorem setBalance_gain {balance : ℕ} {sender recipient : Option Address} (k a : Address)
    (here : (balance : ℤ) = tokens.balanceOf contract account + gain sender recipient amount account)
    (elsewhere : a ≠ account → gain sender recipient amount a = 0) :
    ((tokens.setBalance contract account balance).balanceOf k a : ℤ) =
      tokens.balanceOf k a + if k = contract then gain sender recipient amount a else 0 := by
  simp only [Tokens.setBalance]
  by_cases inContract : k = contract
  · by_cases isAccount : a = account
    · rw [if_pos ⟨inContract, isAccount⟩, if_pos inContract, inContract, isAccount, here]
    · rw [if_neg fun both => isAccount both.2, if_pos inContract, elsewhere isAccount, add_zero]
  · rw [if_neg fun both => inContract both.1, if_neg inContract, add_zero]

theorem debit_ok (ok : tokens.debit contract account amount = .ok next) (k a : Address) :
    (next.balanceOf k a : ℤ) = tokens.balanceOf k a + if k = contract then gain (some account) none amount a else 0 := by
  simp only [Tokens.debit, ok_iffs] at ok
  obtain ⟨_, _, _, covered, rfl⟩ := ok
  apply setBalance_gain
  · simp only [gain, reduceCtorEq, if_true, if_false]
    omega
  · intro other
    simp [gain, Ne.symm other]

theorem credit_ok (ok : tokens.credit contract account amount = .ok next) (k a : Address) :
    (next.balanceOf k a : ℤ) = tokens.balanceOf k a + if k = contract then gain none (some account) amount a else 0 := by
  simp only [Tokens.credit, ok_iffs] at ok
  obtain ⟨_, _, rfl⟩ := ok
  apply setBalance_gain
  · simp only [gain, reduceCtorEq, if_true, if_false]
    push_cast
    ring
  · intro other
    simp [gain, Ne.symm other]

/-- The sender, the recipient and the amount of a call. -/
def parties (caller : Address) : TokenCall → Option Address × Option Address × ℕ
  | .mint recipient amount => (none, some recipient, amount)
  | .burn amount => (some caller, none, amount)
  | .transfer recipient amount => (some caller, some recipient, amount)

/-- A contract moves what it is called with. -/
theorem call_ok (ok : tokens.call contract caller call = .ok next) (k a : Address) :
    (next.balanceOf k a : ℤ) = tokens.balanceOf k a +
      if k = contract then gain (parties caller call).1 (parties caller call).2.1 (parties caller call).2.2 a else 0 := by
  cases call with
  | mint recipient amount =>
    simp only [Tokens.call, ok_iffs] at ok
    obtain ⟨middle, credited, rfl⟩ := ok
    exact credit_ok credited k a
  | burn amount =>
    simp only [Tokens.call, ok_iffs] at ok
    obtain ⟨middle, debited, rfl⟩ := ok
    exact debit_ok debited k a
  | transfer recipient amount =>
    simp only [Tokens.call, bind_ok_iff] at ok
    obtain ⟨middle, debited, credited⟩ := ok
    rw [credit_ok credited, debit_ok debited, parties, gain_split (some caller) (some recipient)]
    split <;> ring

end Calls

/-! ## All contracts -/

variable {world : World} {state next : State} {sender recipient : Option Address} {contract : Address}

/-- Nothing but the contracts changes. -/
theorem callEVM_frame (ok : callEVM world state caller called call = .ok next) :
    next = { state with tokens := next.tokens } := by
  simp only [callEVM] at ok
  split at ok
  · simp only [ok_iffs] at ok
    obtain ⟨tokens, _, rfl⟩ := ok
    rfl
  · simp only [ok_iffs] at ok
    obtain ⟨tokens, _, rfl⟩ := ok
    rfl

/-- What a call to a registered contract does to every contract. -/
theorem callEVM_ok (registered : state.store.isERC20Registered called = true)
    (ok : callEVM world state caller called call = .ok next) (contract a : Address) :
    (next.tokens.balanceOf contract a : ℤ) = state.tokens.balanceOf contract a +
      if contract = called then gain (parties caller call).1 (parties caller call).2.1 (parties caller call).2.2 a else 0 := by
  simp only [callEVM, if_pos registered, ok_iffs] at ok
  obtain ⟨tokens, called, rfl⟩ := ok
  exact call_ok called contract a

/-- The sum of the moves in one contract. -/
def amountTo (transfers : List (Address × ℤ)) (contract : Address) : ℤ :=
  (transfers.map fun transfer => if contract = transfer.1 then transfer.2 else 0).sum

@[simp] theorem amountTo_nil (contract : Address) : amountTo [] contract = 0 := rfl

@[simp]
theorem amountTo_cons (transfer : Address × ℤ) (transfers : List (Address × ℤ)) (contract : Address) :
    amountTo (transfer :: transfers) contract =
      (if contract = transfer.1 then transfer.2 else 0) + amountTo transfers contract := by
  simp [amountTo]

theorem amountTo_append (first second : List (Address × ℤ)) (contract : Address) :
    amountTo (first ++ second) contract = amountTo first contract + amountTo second contract := by
  simp [amountTo]

section Moves

variable (someone : sender = none → recipient ≠ none)
include someone

/-- Each move is one call between the two parties. -/
theorem moveTokens_calls (ok : moveTokens world sender recipient state transfer = .ok next) :
    ∃ caller call, callEVM world state caller transfer.1 call = .ok next ∧
      parties caller call = (sender, recipient, uint256 transfer.2) := by
  unfold moveTokens at ok
  split at ok
  · obtain ⟨account, rfl⟩ := Option.ne_none_iff_exists'.mp (someone rfl)
    exact ⟨_, _, ok, rfl⟩
  · exact ⟨_, _, ok, rfl⟩
  · exact ⟨_, _, ok, rfl⟩

theorem moveTokens_ok (registered : state.store.isERC20Registered transfer.1 = true)
    (nonneg : contract = transfer.1 → 0 ≤ transfer.2)
    (ok : moveTokens world sender recipient state transfer = .ok next) (a : Address) :
    (next.tokens.balanceOf contract a : ℤ) = state.tokens.balanceOf contract a +
      if contract = transfer.1 then gain sender recipient transfer.2 a else 0 := by
  obtain ⟨caller, call, called, whole⟩ := moveTokens_calls someone ok
  rw [callEVM_ok registered called contract a, whole]
  by_cases same : contract = transfer.1
  · have amount : (uint256 transfer.2 : ℤ) = transfer.2 := by
      rw [uint256, if_pos (nonneg same)]
      exact Int.toNat_of_nonneg (nonneg same)
    rw [if_pos same, if_pos same, amount]
  · rw [if_neg same, if_neg same]

theorem foldlM_moveTokens_frame (ok : transfers.foldlM (moveTokens world sender recipient) state = .ok next) :
    next = { state with tokens := next.tokens } := by
  induction transfers generalizing state with
  | nil =>
    cases ok
    rfl
  | cons transfer rest ih =>
    rw [List.foldlM_cons, bind_ok_iff] at ok
    obtain ⟨middle, first, ok⟩ := ok
    obtain ⟨_, _, called, _⟩ := moveTokens_calls someone first
    rw [ih ok, callEVM_frame called]

/-- All moves of `SendCoins`. -/
theorem foldlM_moveTokens_ok
    (registered : ∀ transfer ∈ transfers, state.store.isERC20Registered transfer.1 = true)
    (nonneg : ∀ transfer ∈ transfers, contract = transfer.1 → 0 ≤ transfer.2)
    (ok : transfers.foldlM (moveTokens world sender recipient) state = .ok next) (a : Address) :
    (next.tokens.balanceOf contract a : ℤ) =
      state.tokens.balanceOf contract a + gain sender recipient (amountTo transfers contract) a := by
  induction transfers generalizing state with
  | nil =>
    cases ok
    simp
  | cons transfer rest ih =>
    obtain ⟨head, tail⟩ := List.forall_mem_cons.mp nonneg
    obtain ⟨headRegistered, restRegistered⟩ := List.forall_mem_cons.mp registered
    rw [List.foldlM_cons, bind_ok_iff] at ok
    obtain ⟨middle, first, ok⟩ := ok
    obtain ⟨_, _, called, _⟩ := moveTokens_calls someone first
    have sameStore : middle.store = state.store := by rw [callEVM_frame called]
    rw [ih (sameStore ▸ restRegistered) tail ok, moveTokens_ok someone headRegistered head first, amountTo_cons, gain_add]
    split
    · ring
    · rw [gain_zero]
      ring

end Moves

/-! ## The coins of a call -/

/-- The moves for coins of the bank: every coin that is not gas has a pair, and the moves in a contract are the amount of
the denomination that it mirrors. -/
theorem nativeTransfers_ok {store : Store} (registry : Registry store)
    (notHex : ∀ coin ∈ coins, isHexAddress coin.denom.toList = false)
    (ok : store.nativeTransfers coins = .ok transfers) :
    (∀ coin ∈ coins, ¬ containsDisplayDenom coin.denom → ∃ pair, IsPair store coin.denom pair) ∧
      (∀ transfer ∈ transfers, store.isERC20Registered transfer.1 = true ∧ ∃ coin ∈ coins, coin.amount = transfer.2) ∧
      ∀ denom contract, Mirrors store denom contract → amountTo transfers contract = amountOf coins denom := by
  induction coins generalizing transfers with
  | nil =>
    cases ok
    exact ⟨by simp, by simp, by simp⟩
  | cons coin rest ih =>
    obtain ⟨headNotHex, restNotHex⟩ := List.forall_mem_cons.mp notHex
    unfold Store.nativeTransfers at ok ih
    by_cases gas : containsDisplayDenom coin.denom
    · rw [List.filter_cons_of_neg (by simpa using gas)] at ok
      obtain ⟨paired, sources, amounts⟩ := ih restNotHex ok
      refine ⟨List.forall_mem_cons.mpr ⟨fun notGas => absurd gas notGas, paired⟩, fun transfer member => ?_,
        fun denom contract mirrors => ?_⟩
      · obtain ⟨registered, source, isSource, same⟩ := sources transfer member
        exact ⟨registered, source, List.mem_cons_of_mem coin isSource, same⟩
      · have other : coin.denom ≠ denom := by
          rintro rfl
          exact (registry.native _ _ mirrors).notGas gas
        rw [amounts denom contract mirrors, amountOf_cons, onDenom_of_ne other, zero_add]
    · rw [List.filter_cons_of_pos (by simpa using gas), List.mapM_cons] at ok
      simp only [ok_iffs] at ok
      obtain ⟨first, ⟨pair, found, rfl⟩, others, restOk, rfl⟩ := ok
      have isPair := (pairOfDenom_ok_iff headNotHex).mp found
      obtain ⟨paired, sources, amounts⟩ := ih restNotHex restOk
      refine ⟨List.forall_mem_cons.mpr ⟨fun _ => ⟨pair, isPair⟩, paired⟩, ?_, fun denom contract mirrors => ?_⟩
      · refine List.forall_mem_cons.mpr ⟨⟨registry.isPair_registered isPair, coin, List.mem_cons_self, rfl⟩,
          fun transfer member => ?_⟩
        obtain ⟨registered, source, isSource, same⟩ := sources transfer member
        exact ⟨registered, source, List.mem_cons_of_mem coin isSource, same⟩
      · rw [amountTo_cons, amounts denom contract mirrors, amountOf_cons, onDenom]
        obtain ⟨mirror, isMirror, _, rfl⟩ := mirrors
        congr 1
        by_cases same : coin.denom = denom
        · subst same
          rw [if_pos rfl, isMirror.unique isPair, if_pos rfl]
        · rw [if_neg same, if_neg fun shared => same (registry.denom_unique isPair isMirror shared.symm)]

/-- Tokens whose contract is not the given one do not move it. -/
theorem amountTo_tokenTransfers {contract : Address}
    (elsewhere : ∀ coin ∈ coins, contractOfToken coin.denom ≠ contract) :
    amountTo (tokenTransfers coins) contract = 0 := by
  induction coins with
  | nil => rfl
  | cons coin rest ih =>
    obtain ⟨head, tail⟩ := List.forall_mem_cons.mp elsewhere
    rw [tokenTransfers, List.map_cons, ← tokenTransfers, amountTo_cons, if_neg head.symm, ih tail, add_zero]

theorem sendCoins_frame (someone : sender = none → recipient ≠ none)
    (ok : sendCoins world state sender recipient nativeCoins nativeErc20Tokens = .ok next) :
    next = { state with tokens := next.tokens } := by
  simp only [sendCoins, bind_ok_iff] at ok
  obtain ⟨transfers, _, moved⟩ := ok
  exact foldlM_moveTokens_frame someone moved

/-- `SendCoins` of the keeper. -/
theorem sendCoins_spec (registry : Registry state.store)
    (someone : sender = none → recipient ≠ none) (notHex : ∀ coin ∈ nativeCoins, isHexAddress coin.denom.toList = false)
    (nonneg : ∀ coin ∈ nativeCoins, 0 ≤ coin.amount)
    (external : ∀ coin ∈ nativeErc20Tokens, IsExternal state.store (contractOfToken coin.denom))
    (ok : sendCoins world state sender recipient nativeCoins nativeErc20Tokens = .ok next) :
    (∀ coin ∈ nativeCoins, ¬ containsDisplayDenom coin.denom → ∃ pair, IsPair state.store coin.denom pair) ∧
      ∀ denom contract, Mirrors state.store denom contract → ∀ a, (next.tokens.balanceOf contract a : ℤ) =
        state.tokens.balanceOf contract a + gain sender recipient (amountOf nativeCoins denom) a := by
  simp only [sendCoins, bind_ok_iff] at ok
  obtain ⟨transfers, native, moved⟩ := ok
  obtain ⟨paired, sources, amounts⟩ := nativeTransfers_ok registry notHex native
  refine ⟨paired, fun denom contract mirrors a => ?_⟩
  have elsewhere : ∀ coin ∈ nativeErc20Tokens, contractOfToken coin.denom ≠ contract := by
    rintro coin member rfl
    exact registry.not_mirrors (external coin member) mirrors
  have registered : ∀ transfer ∈ transfers ++ tokenTransfers nativeErc20Tokens,
      state.store.isERC20Registered transfer.1 = true := by
    intro transfer member
    rcases List.mem_append.mp member with isNative | isToken
    · exact (sources transfer isNative).1
    · obtain ⟨coin, isCoin, rfl⟩ := List.mem_map.mp isToken
      exact (external coin isCoin).registered
  have nonnegative : ∀ transfer ∈ transfers ++ tokenTransfers nativeErc20Tokens, contract = transfer.1 → 0 ≤ transfer.2 := by
    intro transfer member here
    rcases List.mem_append.mp member with isNative | isToken
    · obtain ⟨_, coin, isCoin, same⟩ := sources transfer isNative
      exact same ▸ nonneg coin isCoin
    · obtain ⟨coin, isCoin, rfl⟩ := List.mem_map.mp isToken
      exact absurd here.symm (elsewhere coin isCoin)
  rw [foldlM_moveTokens_ok someone registered nonnegative moved, amountTo_append, amounts denom contract mirrors, amountTo_tokenTransfers elsewhere, add_zero]

end Rotofury.Soundness.Erc20
