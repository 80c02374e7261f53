import Rotofury.Model.Bank.Keeper
import Rotofury.Soundness.Erc20.Transfers

/-! # The bank and the contracts

Every call of the application's bank keeper writes two ledgers. What each of them has to show at any point is one table of
balances: between the calls it is the bank's own, while a transfer between many accounts is under way it also holds what
the bank module's account has received in the contracts only. A first mint deploys its contract before it is entered there.
-/

namespace Rotofury.Soundness.Erc20

open Model.Sdk Model.App Model.Erc20 Except

variable {coins : List Coin} {denom : Denom} {bank : Bank} {sender recipient : Option Address} {account : Address}
  {module : ModuleAccount}

/-- The balances that the contracts have to show. -/
abbrev Balances := Address → Denom → ℤ

/-- The registry is in order and the contracts show the given balances. -/
structure Keeps (state : State) (balance : Balances) : Prop where
  registry : Registry state.store
  metadata : ∀ denom metadata, state.denomMetadata.lookup denom = some metadata → metadata.base = denom
  unregistered : ∀ denom, ¬ containsDisplayDenom denom → state.store.denomMap.lookup denom = none →
    ∀ account, balance account denom = 0
  agrees : ∀ denom contract, Mirrors state.store denom contract →
    ∀ account, (state.tokens.balanceOf contract account : ℤ) = balance account denom

/-- The balances of the bank. -/
def bankBalances (bank : Bank) : Balances := fun account denom => bank.balance account denom

/-- No denomination is an address. -/
def NotHex (coins : List Coin) : Prop := ∀ coin ∈ coins, isHexAddress coin.denom.toList = false

/-- Every token is one of a contract that is registered as someone else's. -/
def ExternalTokens (store : Store) (coins : List Coin) : Prop :=
  ∀ coin ∈ coins, isDenomForErc20 coin.denom = true → IsExternal store (contractOfToken coin.denom)

theorem amountOf_of_absent (absent : ∀ coin ∈ coins, coin.denom ≠ denom) :
    amountOf coins denom = 0 := by
  induction coins with
  | nil => rfl
  | cons coin rest ih =>
    obtain ⟨head, tail⟩ := List.forall_mem_cons.mp absent
    rw [amountOf_cons, onDenom_of_ne head, ih tail, add_zero]

section

variable {world : World} {state next : State} {balance after : Balances}

/-- The contracts follow what the coins say, whatever the bank holds by then. -/
theorem Keeps.follow (keeps : Keeps state balance)
    (someone : sender = none → recipient ≠ none) {nativeCoins nativeErc20Tokens : List Coin}
    (notHex : NotHex nativeCoins) (nonneg : ∀ coin ∈ nativeCoins, 0 ≤ coin.amount)
    (external : ∀ coin ∈ nativeErc20Tokens, IsExternal state.store (contractOfToken coin.denom))
    (moved : ∀ account denom, after account denom =
      balance account denom + gain sender recipient (amountOf nativeCoins denom) account)
    (ok : sendCoins world { state with bank := bank } sender recipient nativeCoins nativeErc20Tokens = .ok next) :
    Keeps next after ∧ next.bank = bank ∧ next.store = state.store := by
  have registry : Registry { state with bank := bank : State }.store := keeps.registry
  obtain ⟨paired, shown⟩ := sendCoins_spec registry someone notHex nonneg external ok
  rw [sendCoins_frame someone ok]
  refine ⟨⟨keeps.registry, keeps.metadata, fun denom notGas unknown account => ?_,
    fun denom contract mirrors account => ?_⟩, rfl, rfl⟩
  · have absent : amountOf nativeCoins denom = 0 := by
      apply amountOf_of_absent
      rintro coin member rfl
      obtain ⟨pair, id, known, _⟩ := paired coin member notGas
      rw [unknown] at known
      cases known
    rw [moved, keeps.unregistered denom notGas unknown, absent, gain_zero, add_zero]
  · rw [shown denom contract mirrors account, keeps.agrees denom contract mirrors, moved]

/-! ## First mints -/

/-- A registration deploys the next contract for a coin that had none. -/
theorem registerCoin_ok
    (metadata : ∀ denom metadata, state.denomMetadata.lookup denom = some metadata → metadata.base = denom)
    (ok : registerCoin world state denom = .ok next) :
    ¬ containsDisplayDenom denom ∧ state.store.denomMap.lookup denom = none ∧
      state.store.erc20Map.lookup (world.deployed state.deployments) = none ∧
      next = { state with
        tokens := state.tokens.deploy (world.deployed state.deployments)
        deployments := state.deployments + 1
        store := state.store.addTokenPair ⟨world.deployed state.deployments, denom, .module⟩ } := by
  simp only [registerCoin, ok_iffs] at ok
  obtain ⟨_, notGas, ok⟩ := ok
  split at ok
  · cases ok
  · next coinMetadata found =>
    simp only [deployERC20Contract, ok_iffs, Prod.exists, Prod.mk.injEq] at ok
    obtain ⟨_, newDenom, _, _, deployed, contract, ⟨_, _, _, newContract, rfl, rfl⟩, rfl⟩ := ok
    obtain rfl := metadata denom coinMetadata found
    rw [Store.isDenomRegistered, Option.isSome_eq_false_iff, Option.isNone_iff_eq_none] at newDenom
    rw [Store.isERC20Registered, Option.isSome_eq_false_iff, Option.isNone_iff_eq_none] at newContract
    exact ⟨notGas, newDenom, newContract, rfl⟩

theorem Keeps.registerMinted (keeps : Keeps state balance) {coin : Coin}
    (notToken : isDenomForErc20 coin.denom = false) (notHex : isHexAddress coin.denom.toList = false)
    (ok : Model.Bank.registerMinted world state coin = .ok next) : Keeps next balance ∧ next.bank = state.bank := by
  unfold Model.Bank.registerMinted at ok
  split at ok
  · obtain ⟨notGas, unknown, newContract, rfl⟩ := registerCoin_ok keeps.metadata ok
    have native : Native coin.denom := ⟨notGas, notToken, notHex⟩
    refine ⟨⟨keeps.registry.addTokenPair unknown newContract fun _ => native, keeps.metadata,
      fun denom otherNotGas otherUnknown account => ?_, fun denom contract mirrors account => ?_⟩, rfl⟩
    · simp only [Store.addTokenPair, AList.lookup_insert_eq_ite] at otherUnknown
      split at otherUnknown
      · cases otherUnknown
      · exact keeps.unregistered denom otherNotGas otherUnknown account
    · rcases (mirrors_addTokenPair keeps.registry unknown newContract).mp mirrors with old | ⟨rfl, _, rfl⟩
      · have other : contract ≠ world.deployed state.deployments := by
          rintro rfl
          have := keeps.registry.mirrors_registered old
          rw [Store.isERC20Registered, newContract] at this
          cases this
        simp only [Tokens.deploy, if_neg other]
        exact keeps.agrees denom contract old account
      · -- the new contract is empty, and so were all accounts
        simp only [Tokens.deploy, if_true, Nat.cast_zero]
        exact (keeps.unregistered coin.denom notGas unknown account).symm
  · cases ok
    exact ⟨keeps, rfl⟩

theorem Keeps.registerAll (keeps : Keeps state balance) (notToken : ∀ coin ∈ coins, isDenomForErc20 coin.denom = false)
    (notHex : NotHex coins) (ok : coins.foldlM (Model.Bank.registerMinted world) state = .ok next) :
    Keeps next balance ∧ next.bank = state.bank := by
  induction coins generalizing state with
  | nil =>
    cases ok
    exact ⟨keeps, rfl⟩
  | cons coin rest ih =>
    obtain ⟨headToken, restToken⟩ := List.forall_mem_cons.mp notToken
    obtain ⟨headHex, restHex⟩ := List.forall_mem_cons.mp notHex
    rw [List.foldlM_cons, bind_ok_iff] at ok
    obtain ⟨middle, first, ok⟩ := ok
    obtain ⟨kept, sameBank⟩ := keeps.registerMinted headToken headHex first
    obtain ⟨keptRest, restBank⟩ := ih kept restToken restHex ok
    exact ⟨keptRest, restBank.trans sameBank⟩

/-! ## The calls -/

theorem onAccount_eq_gain (account query : Address) (amount : ℤ) :
    Bank.onAccount account query amount = gain none (some account) amount query := by
  simp [Bank.onAccount, gain, eq_comm]

theorem neg_onAccount_eq_gain (account query : Address) (amount : ℤ) :
    -Bank.onAccount account query amount = gain (some account) none amount query := by
  simp [Bank.onAccount, gain, eq_comm]

theorem subUnlockedCoins_gain {debited : Bank} (ok : bank.subUnlockedCoins account coins = .ok debited) :
    validCoins coins ∧ ∀ a d, bankBalances debited a d = bankBalances bank a d + gain (some account) none (amountOf coins d) a := by
  constructor
  · simp only [Bank.subUnlockedCoins, ok_iffs] at ok
    exact ok.choose_spec.1
  · intro a d
    rw [bankBalances, bankBalances, (Bank.subUnlockedCoins_ok ok).1 a d, ← neg_onAccount_eq_gain]
    ring

theorem addCoins_gain {credited : Bank} (ok : bank.addCoins account coins = .ok credited) :
    validCoins coins ∧ ∀ a d, bankBalances credited a d = bankBalances bank a d + gain none (some account) (amountOf coins d) a := by
  constructor
  · simp only [Bank.addCoins, ok_iffs] at ok
    exact ok.choose_spec.1
  · intro a d
    rw [bankBalances, bankBalances, (Bank.addCoins_ok ok).1 a d, ← onAccount_eq_gain]

/-- What the ERC20 keeper is given of the coins of a call. -/
theorem split_parts {store : Store} (notHex : NotHex coins) (external : ExternalTokens store coins) :
    NotHex (splitCoinsByErc20 coins).1 ∧ ∀ coin ∈ (splitCoinsByErc20 coins).2,
      IsExternal store (contractOfToken coin.denom) := by
  obtain ⟨native, tokens⟩ := denom_of_mem_splitCoinsByErc20 coins
  constructor
  · intro coin member
    obtain ⟨_, old, isOld, same⟩ := native coin member
    exact same ▸ notHex old isOld
  · intro coin member
    obtain ⟨isToken, old, isOld, same⟩ := tokens coin member
    exact same ▸ external old isOld (same ▸ isToken)

section

variable (keeps : Keeps state (bankBalances state.bank))
include keeps

theorem Keeps.bankSendCoins {sender recipient : Address} (notHex : NotHex coins)
    (external : ExternalTokens state.store coins)
    (ok : Model.Bank.sendCoins world state sender recipient coins = .ok next) :
    Keeps next (bankBalances next.bank) := by
  simp only [Model.Bank.sendCoins, bind_ok_iff] at ok
  obtain ⟨debited, debit, credited, credit, sent⟩ := ok
  obtain ⟨nativeNotHex, tokensExternal⟩ := split_parts notHex external
  obtain ⟨valid, spent⟩ := subUnlockedCoins_gain debit
  obtain ⟨_, received⟩ := addCoins_gain credit
  have moved : ∀ a d, bankBalances credited a d = bankBalances state.bank a d +
      gain (some sender) (some recipient) (amountOf (splitCoinsByErc20 coins).1 d) a := by
    intro a d
    rw [received, spent, gain_split (some sender) (some recipient)]
    ring
  obtain ⟨kept, sameBank, _⟩ := keeps.follow (by simp) nativeNotHex
    (fun coin member => (valid.1 coin member).le) tokensExternal moved sent
  rw [sameBank]
  exact kept

omit keeps in
/-- A call for coins of the bank only. -/
theorem Keeps.followNative (keeps : Keeps state balance) (someone : sender = none → recipient ≠ none)
    (notHex : NotHex coins) (nonneg : ∀ coin ∈ coins, 0 ≤ coin.amount) (noTokens : (splitCoinsByErc20 coins).2 = [])
    (moved : ∀ account denom, after account denom =
      balance account denom + gain sender recipient (amountOf coins denom) account)
    (ok : sendCoins world { state with bank := bank } sender recipient (splitCoinsByErc20 coins).1 [] = .ok next) :
    Keeps next after ∧ next.bank = bank := by
  have nativeNotHex : NotHex (splitCoinsByErc20 coins).1 := by
    intro coin member
    obtain ⟨_, old, isOld, same⟩ := (denom_of_mem_splitCoinsByErc20 coins).1 coin member
    exact same ▸ notHex old isOld
  have movedNative : ∀ a d, after a d =
      balance a d + gain sender recipient (amountOf (splitCoinsByErc20 coins).1 d) a := by
    intro a d
    rw [moved, amountOf_native noTokens]
  obtain ⟨kept, sameBank, _⟩ := keeps.follow someone nativeNotHex (splitCoinsByErc20_nonneg nonneg) (by simp)
    movedNative ok
  exact ⟨kept, sameBank⟩

/-- Delegations in either direction. -/
theorem Keeps.bankDelegation {payer payee : Address} (notHex : NotHex coins)
    (noTokens : (splitCoinsByErc20 coins).2 = []) (paid : state.bank.sendCoins payer payee coins = .ok bank)
    (ok : sendCoins world { state with bank := bank } (some payer) (some payee) (splitCoinsByErc20 coins).1 [] =
      .ok next) : Keeps next (bankBalances next.bank) := by
  simp only [Bank.sendCoins, bind_ok_iff] at paid
  obtain ⟨debited, debit, credit⟩ := paid
  obtain ⟨valid, spent⟩ := subUnlockedCoins_gain debit
  obtain ⟨_, received⟩ := addCoins_gain credit
  have moved : ∀ a d, bankBalances bank a d =
      bankBalances state.bank a d + gain (some payer) (some payee) (amountOf coins d) a := by
    intro a d
    rw [received, spent, gain_split (some payer) (some payee)]
    ring
  obtain ⟨kept, sameBank⟩ := keeps.followNative (by simp) notHex (fun coin member => (valid.1 coin member).le)
    noTokens moved ok
  rw [sameBank]
  exact kept

theorem Keeps.bankBurnCoins (notHex : NotHex coins)
    (ok : Model.Bank.burnCoins world state module coins = .ok next) : Keeps next (bankBalances next.bank) := by
  simp only [Model.Bank.burnCoins, Model.Bank.requireNative, ok_iffs] at ok
  obtain ⟨_, noTokens, bank, burnt, sent⟩ := ok
  have moved : ∀ a d, bankBalances bank a d =
      bankBalances state.bank a d + gain (some module.address) none (amountOf coins d) a := by
    intro a d
    rw [bankBalances, bankBalances, (Bank.burnCoins_ok burnt).1 a d, ← neg_onAccount_eq_gain]
    ring
  have valid : validCoins coins := by
    simp only [Bank.burnCoins, bind_ok_iff] at burnt
    obtain ⟨_, _, middle, debit, _⟩ := burnt
    exact (subUnlockedCoins_gain debit).1
  obtain ⟨kept, sameBank⟩ := keeps.followNative (by simp) notHex (fun coin member => (valid.1 coin member).le)
    noTokens moved sent
  rw [sameBank]
  exact kept

theorem Keeps.bankMintCoins (notHex : NotHex coins) (ok : Model.Bank.mintCoins world state module coins = .ok next) :
    Keeps next (bankBalances next.bank) := by
  simp only [Model.Bank.mintCoins, Model.Bank.requireNative, ok_iffs] at ok
  obtain ⟨_, noTokens, bank, minted, registered, registration, sent⟩ := ok
  obtain ⟨native, _⟩ := denom_of_mem_splitCoinsByErc20 coins
  have nativeNotHex : NotHex (splitCoinsByErc20 coins).1 := by
    intro coin member
    obtain ⟨_, old, isOld, same⟩ := native coin member
    exact same ▸ notHex old isOld
  -- while contracts are deployed, they have to show what the bank held before the mint
  have before : Keeps { state with bank := bank } (bankBalances state.bank) :=
    ⟨keeps.registry, keeps.metadata, keeps.unregistered, keeps.agrees⟩
  obtain ⟨kept, sameBank⟩ := before.registerAll (fun coin member => (native coin member).1) nativeNotHex registration
  have moved : ∀ a d, bankBalances bank a d =
      bankBalances state.bank a d + gain none (some module.address) (amountOf coins d) a := by
    intro a d
    rw [bankBalances, bankBalances, (Bank.mintCoins_ok minted).1 a d, ← onAccount_eq_gain]
  have valid : validCoins coins := by
    simp only [Bank.mintCoins, bind_ok_iff] at minted
    obtain ⟨_, _, middle, credit, _⟩ := minted
    exact (addCoins_gain credit).1
  obtain ⟨keptAfter, finalBank⟩ := kept.followNative (by simp) notHex
    (fun coin member => (valid.1 coin member).le) noTokens moved sent
  rw [finalBank, sameBank]
  exact keptAfter

end

/-! ## Transfers between many accounts -/

/-- The balances while a transfer is under way: the bank module's account holds in the contracts what has come in and
not yet gone out. -/
def underWay (bank : Bank) (pending : Denom → ℤ) : Balances := fun account denom =>
  bankBalances bank account denom + gain none (some Model.Bank.moduleAddress) (pending denom) account

/-- The amount of the bank's coins in some portions. -/
def nativeTotal (portions : List Model.Bank.Portion) (denom : Denom) : ℤ :=
  (portions.map fun portion => amountOf (splitCoinsByErc20 portion.coins).1 denom).sum

theorem nativeTotal_cons (portion : Model.Bank.Portion) (rest : List Model.Bank.Portion) (denom : Denom) :
    nativeTotal (portion :: rest) denom = amountOf (splitCoinsByErc20 portion.coins).1 denom + nativeTotal rest denom := by
  simp [nativeTotal]

section

variable {pending : Denom → ℤ}

/-- An input arrives at the bank module's account. -/
theorem Keeps.spendInput (keeps : Keeps state (underWay state.bank pending)) {input : Model.Bank.Portion}
    (notHex : NotHex input.coins) (external : ExternalTokens state.store input.coins)
    (ok : Model.Bank.spendInput world state input = .ok next) : next.store = state.store ∧ Keeps next
      (underWay next.bank fun denom => pending denom + 1 * amountOf (splitCoinsByErc20 input.coins).1 denom) := by
  simp only [Model.Bank.spendInput, bind_ok_iff] at ok
  obtain ⟨debited, debit, sent⟩ := ok
  obtain ⟨nativeNotHex, tokensExternal⟩ := split_parts notHex external
  obtain ⟨valid, spent⟩ := subUnlockedCoins_gain debit
  have moved : ∀ a d, underWay debited (fun denom => pending denom + 1 * amountOf (splitCoinsByErc20 input.coins).1 denom) a d =
      underWay state.bank pending a d + gain (some input.address) (some Model.Bank.moduleAddress)
        (amountOf (splitCoinsByErc20 input.coins).1 d) a := by
    intro a d
    rw [underWay, underWay, spent, one_mul, gain_add, gain_split (some input.address) (some Model.Bank.moduleAddress)]
    ring
  obtain ⟨kept, sameBank, sameStore⟩ := keeps.follow (by simp) nativeNotHex
    (fun coin member => (valid.1 coin member).le) tokensExternal moved sent
  rw [sameBank]
  exact ⟨sameStore, kept⟩

/-- An output leaves from there. -/
theorem Keeps.payOutput (keeps : Keeps state (underWay state.bank pending)) {output : Model.Bank.Portion}
    (notHex : NotHex output.coins) (external : ExternalTokens state.store output.coins)
    (ok : Model.Bank.payOutput world state output = .ok next) : next.store = state.store ∧ Keeps next
      (underWay next.bank fun denom => pending denom + -1 * amountOf (splitCoinsByErc20 output.coins).1 denom) := by
  simp only [Model.Bank.payOutput, bind_ok_iff] at ok
  obtain ⟨credited, credit, sent⟩ := ok
  obtain ⟨nativeNotHex, tokensExternal⟩ := split_parts notHex external
  obtain ⟨valid, received⟩ := addCoins_gain credit
  have moved : ∀ a d, underWay credited (fun denom => pending denom + -1 * amountOf (splitCoinsByErc20 output.coins).1 denom) a d =
      underWay state.bank pending a d + gain (some Model.Bank.moduleAddress) (some output.address)
        (amountOf (splitCoinsByErc20 output.coins).1 d) a := by
    intro a d
    rw [underWay, underWay, received, neg_one_mul, gain_add, gain_neg,
      gain_split (some Model.Bank.moduleAddress) (some output.address)]
    ring
  obtain ⟨kept, sameBank, sameStore⟩ := keeps.follow (by simp) nativeNotHex
    (fun coin member => (valid.1 coin member).le) tokensExternal moved sent
  rw [sameBank]
  exact ⟨sameStore, kept⟩

/-- All portions on one side, each of which adds its amount with a sign to what is pending. -/
theorem Keeps.portions {step : State → Model.Bank.Portion → Except Fault State} (sign : ℤ)
    (each : ∀ state next pending portion, Keeps state (underWay state.bank pending) → NotHex portion.coins →
      ExternalTokens state.store portion.coins → step state portion = .ok next → next.store = state.store ∧ Keeps next
        (underWay next.bank fun denom => pending denom + sign * amountOf (splitCoinsByErc20 portion.coins).1 denom))
    (keeps : Keeps state (underWay state.bank pending)) {portions : List Model.Bank.Portion}
    (notHex : ∀ portion ∈ portions, NotHex portion.coins)
    (external : ∀ portion ∈ portions, ExternalTokens state.store portion.coins)
    (ok : portions.foldlM step state = .ok next) : next.store = state.store ∧
      Keeps next (underWay next.bank fun denom => pending denom + sign * nativeTotal portions denom) := by
  induction portions generalizing state pending with
  | nil =>
    cases ok
    refine ⟨rfl, ?_⟩
    simpa [nativeTotal] using keeps
  | cons portion rest ih =>
    obtain ⟨headHex, restHex⟩ := List.forall_mem_cons.mp notHex
    obtain ⟨headExternal, restExternal⟩ := List.forall_mem_cons.mp external
    rw [List.foldlM_cons, bind_ok_iff] at ok
    obtain ⟨middle, first, ok⟩ := ok
    obtain ⟨sameStore, kept⟩ := each state middle pending portion keeps headHex headExternal first
    obtain ⟨restStore, keptRest⟩ := ih kept restHex (sameStore ▸ restExternal) ok
    refine ⟨restStore.trans sameStore, ?_⟩
    simpa only [nativeTotal_cons, mul_add, add_assoc] using keptRest

end

theorem amountOf_totalCoins (portions : List Model.Bank.Portion) (denom : Denom) :
    amountOf (Model.Bank.totalCoins portions) denom = (portions.map fun portion => amountOf portion.coins denom).sum := by
  induction portions using List.reverseRecOn with
  | nil => rfl
  | append_singleton portions portion ih =>
    have step : Model.Bank.totalCoins (portions ++ [portion]) =
        insertCoins (Model.Bank.totalCoins portions) portion.coins := by
      rw [Model.Bank.totalCoins, List.foldl_concat]
      rfl
    rw [step, amountOf_insertCoins, ih]
    simp

/-- Of the bank's coins the portions hold what they hold of all coins. -/
theorem nativeTotal_eq (portions : List Model.Bank.Portion) (denom : Denom) :
    nativeTotal portions denom =
      if isDenomForErc20 denom then 0 else amountOf (Model.Bank.totalCoins portions) denom := by
  rw [amountOf_totalCoins, nativeTotal]
  simp only [(amountOf_splitCoinsByErc20 _ denom).1]
  split
  · simp
  · rfl

theorem Keeps.bankInputOutputCoins (keeps : Keeps state (bankBalances state.bank))
    {inputs outputs : List Model.Bank.Portion} (notHex : ∀ portion ∈ inputs ++ outputs, NotHex portion.coins)
    (external : ∀ portion ∈ inputs ++ outputs, ExternalTokens state.store portion.coins)
    (ok : Model.Bank.inputOutputCoins world state inputs outputs = .ok next) :
    Keeps next (bankBalances next.bank) := by
  simp only [Model.Bank.inputOutputCoins, Model.Bank.validateInputsOutputs, ok_iffs] at ok
  obtain ⟨_, ⟨_, _, _, _, totals⟩, middle, spent, paid⟩ := ok
  obtain ⟨inputsHex, outputsHex⟩ := List.forall_mem_append.mp notHex
  obtain ⟨inputsExternal, outputsExternal⟩ := List.forall_mem_append.mp external
  have idle : ∀ bank, underWay bank (fun _ => 0) = bankBalances bank := by
    intro bank
    funext account denom
    rw [underWay, gain_zero, add_zero]
  have start : Keeps state (underWay state.bank fun _ => 0) := idle state.bank ▸ keeps
  obtain ⟨sameStore, keptIn⟩ := start.portions 1 (fun _ _ _ _ kept => kept.spendInput) inputsHex inputsExternal spent
  obtain ⟨_, keptOut⟩ := keptIn.portions (-1) (fun _ _ _ _ kept => kept.payOutput) outputsHex
    (sameStore ▸ outputsExternal) paid
  -- what went in went out again
  have settled : (fun denom => (0 : ℤ) + 1 * nativeTotal inputs denom + -1 * nativeTotal outputs denom) = fun _ => 0 := by
    funext denom
    rw [nativeTotal_eq, nativeTotal_eq, totals]
    ring
  rw [settled, idle] at keptOut
  exact keptOut

end

end Rotofury.Soundness.Erc20
