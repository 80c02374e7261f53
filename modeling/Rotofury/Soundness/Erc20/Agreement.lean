import Rotofury.Soundness.Erc20.Bookkeeping

/-! # The bank and the contracts agree

Along every run of the keeper's calls the bank and the contracts show the same balances, as long as every token that a
call is given is one of a contract registered as someone else's: a token under the name of a contract that mirrors a coin
moves in the contract and not in the bank.
-/

namespace Rotofury.Soundness.Erc20

open Model.Sdk Model.App Model.Erc20 Except Machine

variable {world : World} {state next : State}

/-- One call of the keeper. -/
theorem Keeps.exec (keeps : Keeps state (bankBalances state.bank)) {call : Model.Bank.Call} (notHex : NotHex call.coins)
    (external : ExternalTokens state.store call.coins) (ok : Model.Bank.exec world state call = .ok next) :
    Keeps next (bankBalances next.bank) := by
  cases call with
  | sendCoins sender recipient coins => exact keeps.bankSendCoins notHex external ok
  | inputOutputCoins inputs outputs =>
    have ofPortion : ∀ portion ∈ inputs ++ outputs, ∀ coin ∈ portion.coins,
        coin ∈ (Model.Bank.Call.inputOutputCoins inputs outputs).coins :=
      fun portion member coin isCoin => List.mem_flatMap.mpr ⟨portion, member, isCoin⟩
    exact keeps.bankInputOutputCoins
      (fun portion member coin isCoin => notHex coin (ofPortion portion member coin isCoin))
      (fun portion member coin isCoin => external coin (ofPortion portion member coin isCoin)) ok
  | mintCoins module coins => exact keeps.bankMintCoins notHex ok
  | burnCoins module coins => exact keeps.bankBurnCoins notHex ok
  | delegateCoins delegator moduleAccount coins =>
    simp only [Model.Bank.exec, Model.Bank.delegateCoins, Model.Bank.requireNative, ok_iffs] at ok
    obtain ⟨_, noTokens, bank, paid, sent⟩ := ok
    exact keeps.bankDelegation notHex noTokens paid sent
  | undelegateCoins moduleAccount delegator coins =>
    simp only [Model.Bank.exec, Model.Bank.undelegateCoins, Model.Bank.requireNative, ok_iffs] at ok
    obtain ⟨_, noTokens, bank, paid, sent⟩ := ok
    exact keeps.bankDelegation notHex noTokens paid sent

/-- Bank and contracts show the same balances for every coin that a contract mirrors. -/
def Agrees (state : State) : Prop :=
  ∀ denom contract, Mirrors state.store denom contract →
    ∀ account, state.tokens.balanceOf contract account = state.bank.balance account denom

/-- Where a run starts. Accounts hold only what is in the supply; a coin with a supply is gas or registered; contracts
agree with the bank for the coins they mirror. -/
structure Initial (state : State) : Prop where
  registry : Registry state.store
  metadata : ∀ denom metadata, state.denomMetadata.lookup denom = some metadata → metadata.base = denom
  supplied : ∀ denom, state.bank.supply denom = 0 → ∀ account, state.bank.balance account denom = 0
  registered : ∀ denom, state.bank.supply denom ≠ 0 →
    containsDisplayDenom denom ∨ state.store.isDenomRegistered denom = true
  agrees : Agrees state

theorem Initial.keeps {state : State} (initial : Initial state) :
    Keeps state (bankBalances state.bank) where
  registry := initial.registry
  metadata := initial.metadata
  unregistered := by
    intro denom notGas unknown account
    have noSupply : state.bank.supply denom = 0 := by
      by_contra supplied
      rcases initial.registered denom supplied with gas | registered
      · exact notGas gas
      · rw [Store.isDenomRegistered, unknown] at registered
        cases registered
    exact congrArg Nat.cast (initial.supplied denom noSupply account)
  agrees := fun denom contract mirrors account => congrArg Nat.cast (initial.agrees denom contract mirrors account)

theorem Keeps.agree {state : State} (keeps : Keeps state (bankBalances state.bank)) : Agrees state :=
  fun denom contract mirrors account => Int.ofNat.inj (keeps.agrees denom contract mirrors account)

/-- In every run of calls whose tokens are those of contracts registered as someone else's, the two ledgers agree. -/
theorem contracts_follow_bank {world : World} {state : State} (initial : Initial state)
    {calls : List Model.Bank.Call} (notHex : ∀ call ∈ calls, NotHex call.coins)
    (external : Throughout (Model.Bank.exec world) (fun state call => ExternalTokens state.store call.coins) state calls) :
    Agrees (replay (Model.Bank.exec world) state calls) := by
  apply Keeps.agree
  apply replay_throughout (fun state => Keeps state (bankBalances state.bank))
    (fun state call => NotHex call.coins ∧ ExternalTokens state.store call.coins) _ initial.keeps
  · intro before call after split
    refine ⟨notHex call ?_, external before call after split⟩
    rw [split]
    simp
  · intro state call next keeps condition success
    exact keeps.exec condition.1 condition.2 success

/-! ## A sample -/

def samplePair : TokenPair := ⟨1, "uusm", .module⟩

def sampleWorld : World where
  deployed := fun n => BitVec.ofNat 160 (n + 2)
  foreign := fun _ _ _ tokens => .ok tokens
  erc20Data := fun _ => .ok ⟨"", "", 0⟩
  validateMetadata := fun _ => .ok ()
  hex := fun _ => ""
  eventByID := fun topic => if topic = 1 then some "Transfer" else none
  unpack := fun _ data => some [data.length]

/-- One account holds ten coins, in the bank and in the contract. -/
def sampleState : State where
  bank := ⟨fun account denom => if account = 161 ∧ denom = "uusm" then 10 else 0, fun denom => if denom = "uusm" then 10 else 0⟩
  denomMetadata := ∅
  store := Store.addTokenPair ⟨∅, ∅, ∅⟩ samplePair
  tokens := ⟨fun contract account => if contract = 1 ∧ account = 161 then 10 else 0, fun contract => if contract = 1 then 10 else 0⟩
  deployments := 0

theorem sample_mirrors {denom : Denom} {contract : Address} :
    Mirrors sampleState.store denom contract ↔ denom = "uusm" ∧ contract = 1 := by
  rw [sampleState, mirrors_addTokenPair registry_empty rfl rfl]
  constructor
  · rintro (⟨pair, ⟨id, known, _⟩, _⟩ | ⟨rfl, _, rfl⟩)
    · simp at known
    · exact ⟨rfl, rfl⟩
  · rintro ⟨rfl, rfl⟩
    exact .inr ⟨rfl, rfl, rfl⟩

theorem eq_of_supplied {denom : Denom} (supplied : sampleState.bank.supply denom ≠ 0) : denom = "uusm" := by
  by_contra other
  exact supplied (if_neg other)

theorem sampleState_initial : Initial sampleState where
  registry := registry_empty.addTokenPair rfl rfl fun _ => ⟨by decide, by decide, by decide⟩
  metadata := by simp [sampleState]
  supplied := by
    intro denom zero account
    have other : denom ≠ "uusm" := by
      rintro rfl
      cases zero
    exact if_neg fun both => other both.2
  registered := by
    intro denom supplied
    obtain rfl := eq_of_supplied supplied
    exact .inr rfl
  agrees := by
    intro denom contract mirrors account
    obtain ⟨rfl, rfl⟩ := sample_mirrors.mp mirrors
    simp [sampleState]

/-- A token of someone else, registered beside the coin. -/
def externalPair : TokenPair := ⟨3, "erc20/0x0000000000000000000000000000000000000003", .external⟩

/-- The same account also holds five of the tokens. -/
def mixedState : State :=
  { sampleState with
    store := sampleState.store.addTokenPair externalPair
    tokens :=
      ⟨fun contract account => if contract = 3 ∧ account = 161 then 5 else sampleState.tokens.balanceOf contract account,
        fun contract => if contract = 3 then 5 else sampleState.tokens.totalSupply contract⟩ }

theorem mixedState_initial : Initial mixedState where
  registry := sampleState_initial.registry.addTokenPair rfl rfl fun owner => by cases owner
  metadata := sampleState_initial.metadata
  supplied := sampleState_initial.supplied
  registered := by
    intro denom supplied
    obtain rfl := eq_of_supplied supplied
    exact .inr rfl
  agrees := by
    intro denom contract mirrors account
    rcases (mirrors_addTokenPair sampleState_initial.registry rfl rfl).mp mirrors with old | ⟨_, owner, _⟩
    · obtain ⟨rfl, rfl⟩ := sample_mirrors.mp old
      exact sampleState_initial.agrees "uusm" 1 old account
    · cases owner

/-- Coins of the bank move in both ledgers, beside tokens that move in their contract. -/
theorem contracts_follow_bank_sample : Agrees (replay (Model.Bank.exec sampleWorld) mixedState
    [.sendCoins 161 176 [⟨"erc20/0x0000000000000000000000000000000000000003", 2⟩, ⟨"uusm", 4⟩]]) ∧
    (Model.Bank.exec sampleWorld mixedState
      (.sendCoins 161 176 [⟨"erc20/0x0000000000000000000000000000000000000003", 2⟩, ⟨"uusm", 4⟩])).isOk = true := by
  refine ⟨contracts_follow_bank mixedState_initial ?_ ?_, rfl⟩
  · simp only [List.mem_singleton, forall_eq, NotHex, Model.Bank.Call.coins]
    decide
  · refine throughout_cons (fun coin member isToken => ?_) (throughout_nil _ _ _)
    have external : coin.denom = externalPair.denom := by
      rcases List.mem_pair.mp member with rfl | rfl
      · rfl
      · exact absurd isToken (by decide)
    rw [external]
    exact ⟨externalPair.getID, externalPair, rfl, rfl, rfl⟩

/-- Sent by the name of its contract, a coin moves in the contract only. -/
theorem token_of_mirror_sample : Initial sampleState ∧
    NotHex [⟨"erc20/0x0000000000000000000000000000000000000001", 4⟩] ∧
    ∃ next, Model.Bank.exec sampleWorld sampleState
      (.sendCoins 161 176 [⟨"erc20/0x0000000000000000000000000000000000000001", 4⟩]) = .ok next ∧ ¬ Agrees next := by
  refine ⟨sampleState_initial, ?_, _, rfl, fun agrees => ?_⟩
  · simp only [NotHex, List.mem_singleton, forall_eq]
    decide
  · have mirrors : Mirrors sampleState.store "uusm" 1 := sample_mirrors.mpr ⟨rfl, rfl⟩
    exact absurd (agrees "uusm" 1 mirrors 161) (by decide)

end Rotofury.Soundness.Erc20
