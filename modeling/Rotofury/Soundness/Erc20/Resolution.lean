import Rotofury.Soundness.Erc20.Agreement
import Rotofury.ToMathlib.AListIndex

/-! # What a denomination resolves to

A denomination that carries an address, as `erc20/<address>` or because it is nothing but forty hexadecimal digits, resolves
to that address, whatever it is registered with. So it resolves to its own pair only by chance, and several texts resolve to
one contract. All other registered denominations resolve to their pairs, and two of them to two contracts.
-/

namespace Rotofury.Soundness.Erc20

open Model.Sdk Model.App Model.Erc20 Except

/-! ## The registry as a bijection

The map of denominations and the map of contracts are indexes of the table of pairs, and every pair lies under its own
identifier. A registration adds a pair whose denomination and contract are both unknown, and a deletion removes a pair from
all three tables, so this holds after every run.
-/

/-- Denominations, contracts and identifiers stand for each other through the stored pairs. -/
structure Bijective (store : Store) : Prop where
  keyed : ∀ id pair, store.tokenPairs.lookup id = some pair → pair.getID = id
  byDenom : store.denomMap.Indexes store.tokenPairs TokenPair.denom
  byContract : store.erc20Map.Indexes store.tokenPairs TokenPair.erc20Address

namespace Bijective

variable {store : Store} {pair : TokenPair}

theorem empty : Bijective ⟨∅, ∅, ∅⟩ := ⟨by simp, .empty, .empty⟩

theorem addTokenPair (bijective : Bijective store) (newDenom : store.denomMap.lookup pair.denom = none)
    (newContract : store.erc20Map.lookup pair.erc20Address = none) : Bijective (store.addTokenPair pair) := by
  have newId : store.tokenPairs.lookup pair.getID = none := by
    by_contra taken
    obtain ⟨old, found⟩ := Option.ne_none_iff_exists'.mp taken
    have known := bijective.byDenom.lookup_field found
    have same : old.denom = pair.denom := congrArg Prod.snd (bijective.keyed _ _ found)
    rw [same, newDenom] at known
    cases known
  exact ⟨AList.forall_lookup_insert rfl bijective.keyed, bijective.byDenom.insert newId newDenom,
    bijective.byContract.insert newId newContract⟩

theorem deleteTokenPair (bijective : Bijective store) (found : store.tokenPairs.lookup pair.getID = some pair) :
    Bijective (store.deleteTokenPair pair) := by
  refine ⟨?_, bijective.byDenom.erase found, bijective.byContract.erase found⟩
  intro id left stored
  by_cases same : id = pair.getID
  · rw [same, Store.deleteTokenPair, AList.lookup_erase] at stored
    cases stored
  · rw [Store.deleteTokenPair, AList.lookup_erase_ne same] at stored
    exact bijective.keyed id left stored

end Bijective

section Registrations

variable {world : World} {state next : State}

theorem not_registered_iff {store : Store} {contract : Address} :
    store.isERC20Registered contract = false ↔ store.erc20Map.lookup contract = none := by
  rw [Store.isERC20Registered, Option.isSome_eq_false_iff, Option.isNone_iff_eq_none]

theorem denom_not_registered_iff {store : Store} {denom : Denom} :
    store.isDenomRegistered denom = false ↔ store.denomMap.lookup denom = none := by
  rw [Store.isDenomRegistered, Option.isSome_eq_false_iff, Option.isNone_iff_eq_none]

/-- What a successful `RegisterCoin` adds. -/
theorem registerCoin_store {denom : Denom} (ok : registerCoin world state denom = .ok next) :
    ∃ pair : TokenPair, next.store = state.store.addTokenPair pair ∧ pair.contractOwner = .module ∧
      state.store.denomMap.lookup pair.denom = none ∧ state.store.erc20Map.lookup pair.erc20Address = none := by
  unfold registerCoin at ok
  obtain ⟨_, _, ok⟩ := bind_ok_iff.mp ok
  split at ok
  · cases ok
  · next coinMetadata _ =>
    simp only [deployERC20Contract, ok_iffs] at ok
    obtain ⟨_, newDenom, _, _, ⟨_, _⟩, ⟨_, _, _, newContract, deployed⟩, rfl⟩ := ok
    obtain ⟨rfl, rfl⟩ := Prod.mk.inj deployed
    exact ⟨_, rfl, rfl, denom_not_registered_iff.mp newDenom, not_registered_iff.mp newContract⟩

/-- What a successful `RegisterERC20` adds. -/
theorem registerERC20_store {contract : Address} {pair : TokenPair}
    (ok : registerERC20 world state contract = .ok (next, pair)) :
    next.store = state.store.addTokenPair pair ∧ pair.contractOwner = .external ∧
      state.store.denomMap.lookup pair.denom = none ∧ state.store.erc20Map.lookup pair.erc20Address = none := by
  simp only [registerERC20, createCoinMetadata, ok_iffs, Prod.mk.injEq] at ok
  obtain ⟨_, newContract, ⟨_, metadata⟩, ⟨erc20Data, _, _, _, _, newDenom, _, _, rfl, rfl⟩, rfl, rfl⟩ := ok
  refine ⟨rfl, rfl, ?_, not_registered_iff.mp newContract⟩
  have name : (coinMetadataOf (world.hex contract) erc20Data).name = createDenom (world.hex contract) := by
    unfold coinMetadataOf
    dsimp only
    split <;> rfl
  rw [name]
  exact denom_not_registered_iff.mp newDenom

/-- Every event of the registry keeps it a bijection. -/
theorem bijective_step {event : RegistryEvent} (bijective : Bijective state.store)
    (ok : event.step world state = .ok next) : Bijective next.store := by
  cases event with
  | registerCoin denom =>
    obtain ⟨pair, store, _, newDenom, newContract⟩ := registerCoin_store ok
    rw [store]
    exact bijective.addTokenPair newDenom newContract
  | registerERC20 contract =>
    obtain ⟨⟨_, pair⟩, registered, rfl⟩ := map_ok_iff.mp ok
    obtain ⟨store, _, newDenom, newContract⟩ := registerERC20_store registered
    rw [store]
    exact bijective.addTokenPair newDenom newContract
  | deleteTokenPair id =>
    simp only [RegistryEvent.step] at ok
    split at ok
    · next pair found =>
      cases ok
      exact bijective.deleteTokenPair (by rw [bijective.keyed id pair found]; exact found)
    · cases ok
      exact bijective
  | setDenomMetaData metadata =>
    cases ok
    exact bijective
  | move bank tokens =>
    cases ok
    exact bijective

end Registrations

/-- After every run from an empty registry the maps and the pairs are a bijection, and no denomination and no contract is
in two pairs. -/
theorem registry_bijective (world : World) (bank : Bank) (denomMetadata : AList fun _ : Denom => Metadata) (tokens : Tokens)
    (deployments : ℕ) (events : List RegistryEvent) :
    let store := (Machine.replay (RegistryEvent.step world) ⟨bank, denomMetadata, ⟨∅, ∅, ∅⟩, tokens, deployments⟩ events).store
    Bijective store ∧
      ∀ id id' pair pair', store.tokenPairs.lookup id = some pair → store.tokenPairs.lookup id' = some pair' →
        pair.denom = pair'.denom ∨ pair.erc20Address = pair'.erc20Address → id = id' ∧ pair = pair' := by
  intro store
  have bijective : Bijective store :=
    Machine.replay_always (fun state : State => Bijective state.store) (fun _ _ _ => bijective_step) .empty events
  refine ⟨bijective, fun id id' pair pair' found found' same => ?_⟩
  rcases same with sameDenom | sameContract
  · exact bijective.byDenom.unique found found' sameDenom
  · exact bijective.byContract.unique found found' sameContract

/-- The address in the text of a denomination. -/
def addressInText (denom : Denom) : Option Address :=
  if isDenomForErc20 denom = true then some (contractOfToken denom)
  else if isHexAddress denom.toList = true then some (hexToAddress denom.toList)
  else none

/-- The module takes a contract for that of a denomination, in a transfer as in a query. -/
structure UsesContract (state : State) (denom : Denom) (contract : Address) : Prop where
  sends : ∀ amount : ℤ, 0 < amount →
    state.store.transfers (splitCoinsByErc20 [⟨denom, amount⟩]).1 (splitCoinsByErc20 [⟨denom, amount⟩]).2 =
      .ok [(contract, amount)]
  supply : getSupply state denom = .ok (some ⟨denom, state.tokens.totalSupply contract⟩)
  balance : ∀ account, getBalance state account denom = .ok (some ⟨denom, state.tokens.balanceOf contract account⟩)

/-- A denomination that does not stand for the gas token and has no address but that of its contract in its text. -/
structure Unmistakable (denom : Denom) (contract : Address) : Prop where
  notGas : isDenomForErc20 denom = false → ¬ containsDisplayDenom denom
  address : ∀ other, addressInText denom = some other → other = contract

section Resolving

variable {store : Store} {denom : Denom} {contract : Address}

/-- Where the text has an address, nothing else counts. -/
theorem getContractByDenom_of_address {address : Address} (inText : addressInText denom = some address)
    (resolved : store.getContractByDenom denom = .ok (some contract)) (bijective : Bijective store) :
    contract = address := by
  unfold addressInText at inText
  unfold Store.getContractByDenom Store.getTokenPairID at resolved
  split at inText
  · next token =>
    rw [if_pos token] at resolved
    exact (Option.some.inj (Except.ok.inj resolved)).symm.trans (Option.some.inj inText)
  · next notToken =>
    split at inText
    · next hex =>
      rw [if_neg notToken, if_pos hex, Option.some.inj inText] at resolved
      split at resolved
      · cases resolved
      · next id known =>
        obtain ⟨pair, stored, sameContract⟩ := (bijective.byContract address id).mp known
        rw [Store.getTokenPair, stored] at resolved
        exact (Option.some.inj (Except.ok.inj resolved)).symm.trans sameContract
    · cases inText

/-- Where it has none, the pair counts. -/
theorem getContractByDenom_of_plain (plain : addressInText denom = none) (bijective : Bijective store) :
    store.getContractByDenom denom = .ok (some contract) ↔
      ∃ id pair, store.tokenPairs.lookup id = some pair ∧ pair.denom = denom ∧ pair.erc20Address = contract := by
  have texts : isDenomForErc20 denom = false ∧ isHexAddress denom.toList = false := by
    unfold addressInText at plain
    split at plain
    · cases plain
    · next notToken =>
      split at plain
      · cases plain
      · next notHex => exact ⟨by simpa using notToken, by simpa using notHex⟩
  unfold Store.getContractByDenom Store.getTokenPairID
  rw [if_neg (by simp [texts.1]), if_neg (by simp [texts.2])]
  constructor
  · intro resolved
    split at resolved
    · cases resolved
    · next id known =>
      obtain ⟨pair, stored, sameDenom⟩ := (bijective.byDenom denom id).mp known
      rw [Store.getTokenPair, stored] at resolved
      exact ⟨id, pair, stored, sameDenom, Option.some.inj (Except.ok.inj resolved)⟩
  · rintro ⟨id, pair, stored, rfl, rfl⟩
    have known := bijective.byDenom.lookup_field stored
    simp only [known, Store.getTokenPair, stored]

/-- The transfer of one coin. -/
theorem transfers_single {amount : ℤ} (positive : 0 < amount) :
    store.transfers (splitCoinsByErc20 [⟨denom, amount⟩]).1 (splitCoinsByErc20 [⟨denom, amount⟩]).2 =
      if isDenomForErc20 denom = true then .ok [(contractOfToken denom, amount)]
      else if containsDisplayDenom denom then .ok []
      else (fun pair : TokenPair => [(pair.erc20Address, amount)]) <$> store.pairOfDenom denom := by
  have nonzero : amount ≠ 0 := by omega
  by_cases token : isDenomForErc20 denom = true
  · simp [splitCoinsByErc20, token, insertCoin, nonzero, Store.transfers, Store.nativeTransfers, tokenTransfers]
  · by_cases gas : containsDisplayDenom denom
    · simp [splitCoinsByErc20, token, insertCoin, nonzero, Store.transfers, Store.nativeTransfers, tokenTransfers, gas]
    · simp [splitCoinsByErc20, token, insertCoin, nonzero, Store.transfers, Store.nativeTransfers, tokenTransfers, gas]

/-- Queries and transfers look a coin of the bank up in the same way. -/
theorem getContractByDenom_of_coin (coin : isDenomForErc20 denom = false) :
    store.getContractByDenom denom = .ok (some contract) ↔
      ∃ pair, store.pairOfDenom denom = .ok pair ∧ pair.erc20Address = contract := by
  unfold Store.getContractByDenom Store.pairOfDenom
  rw [if_neg (by simp [coin])]
  rcases store.getTokenPairID denom with _ | id
  · simp
  · rcases found : store.getTokenPair id with _ | pair
    · simp [found]
    · simp [found]

/-- A coin with a pair of its own, and no other address in its text, leads to this pair. -/
theorem pairOfDenom_of_unmistakable (bijective : Bijective store) {id : PairId} {pair : TokenPair}
    (stored : store.tokenPairs.lookup id = some pair) (unmistakable : Unmistakable pair.denom pair.erc20Address)
    (coin : isDenomForErc20 pair.denom = false) : store.pairOfDenom pair.denom = .ok pair := by
  have found : store.getTokenPairID pair.denom = some id := by
    unfold Store.getTokenPairID
    split
    · next hex =>
      have inText : addressInText pair.denom = some (hexToAddress pair.denom.toList) := by
        rw [addressInText, if_neg (by simp [coin]), if_pos hex]
      rw [unmistakable.address _ inText]
      exact bijective.byContract.lookup_field stored
    · exact bijective.byDenom.lookup_field stored
  simp only [Store.pairOfDenom, found, Store.getTokenPair, stored]

end Resolving

/-- A registered denomination is taken for its own contract exactly when it is unmistakable. -/
theorem usesContract_iff {state : State} (bijective : Bijective state.store) {id : PairId} {pair : TokenPair}
    (stored : state.store.tokenPairs.lookup id = some pair) :
    UsesContract state pair.denom pair.erc20Address ↔ Unmistakable pair.denom pair.erc20Address := by
  constructor
  · intro uses
    have sent := uses.sends 1 (by decide)
    rw [transfers_single (by decide)] at sent
    split at sent
    · next token =>
      simp only [Except.ok.injEq, List.cons.injEq, Prod.mk.injEq, and_true] at sent
      refine ⟨fun coin => absurd token (by simp [coin]), fun other inText => ?_⟩
      rw [addressInText, if_pos token, Option.some.injEq] at inText
      exact inText.symm.trans sent
    · next notToken =>
      have coin : isDenomForErc20 pair.denom = false := by simpa using notToken
      split at sent
      · cases sent
      · next notGas =>
        obtain ⟨used, found, same⟩ := Except.map_ok_iff.mp sent
        simp only [List.cons.injEq, Prod.mk.injEq, and_true] at same
        have resolved := (getContractByDenom_of_coin coin).mpr ⟨used, found, same⟩
        exact ⟨fun _ => notGas, fun other inText => (getContractByDenom_of_address inText resolved bijective).symm⟩
  · intro unmistakable
    have resolved : state.store.getContractByDenom pair.denom = .ok (some pair.erc20Address) := by
      by_cases token : isDenomForErc20 pair.denom = true
      · rw [Store.getContractByDenom, if_pos token,
          unmistakable.address (contractOfToken pair.denom) (by rw [addressInText, if_pos token])]
      · have coin : isDenomForErc20 pair.denom = false := by simpa using token
        exact (getContractByDenom_of_coin coin).mpr
          ⟨pair, pairOfDenom_of_unmistakable bijective stored unmistakable coin, rfl⟩
    refine ⟨fun amount positive => ?_, by rw [getSupply, resolved]; rfl, fun account => by rw [getBalance, resolved]; rfl⟩
    rw [transfers_single positive]
    split
    · next token => rw [unmistakable.address (contractOfToken pair.denom) (by rw [addressInText, if_pos token])]
    · next notToken =>
      have coin : isDenomForErc20 pair.denom = false := by simpa using notToken
      rw [if_neg (unmistakable.notGas coin), pairOfDenom_of_unmistakable bijective stored unmistakable coin]
      rfl

/-- Two denominations of which neither carries the address of the other one's contract. -/
def Apart (store : Store) (denom other : Denom) : Prop :=
  match addressInText denom, addressInText other with
  | none, none => True
  | some address, some address' => address ≠ address'
  | some address, none => ¬ ∃ id pair, store.tokenPairs.lookup id = some pair ∧ pair.denom = other ∧
      pair.erc20Address = address
  | none, some address' => ¬ ∃ id pair, store.tokenPairs.lookup id = some pair ∧ pair.denom = denom ∧
      pair.erc20Address = address'

theorem contracts_differ_iff {store : Store} (bijective : Bijective store) {denom other : Denom} (different : denom ≠ other)
    {contract contract' : Address} (resolved : store.getContractByDenom denom = .ok (some contract))
    (resolved' : store.getContractByDenom other = .ok (some contract')) :
    contract ≠ contract' ↔ Apart store denom other := by
  unfold Apart
  rcases inText : addressInText denom with _ | address <;> rcases inText' : addressInText other with _ | address'
  · refine iff_of_true ?_ trivial
    obtain ⟨id, pair, stored, rfl, rfl⟩ := (getContractByDenom_of_plain inText bijective).mp resolved
    obtain ⟨id', pair', stored', rfl, rfl⟩ := (getContractByDenom_of_plain inText' bijective).mp resolved'
    intro same
    exact different (congrArg TokenPair.denom (bijective.byContract.unique stored stored' same).2)
  · obtain rfl := getContractByDenom_of_address inText' resolved' bijective
    dsimp only
    rw [← getContractByDenom_of_plain inText bijective, resolved]
    simp
  · obtain rfl := getContractByDenom_of_address inText resolved bijective
    dsimp only
    rw [← getContractByDenom_of_plain inText' bijective, resolved']
    simp [eq_comm]
  · rw [getContractByDenom_of_address inText resolved bijective, getContractByDenom_of_address inText' resolved' bijective]

/-- In every consistent registry a registered denomination is taken for its own contract, and two denominations for two
contracts, exactly where no address in their texts stands in the way. -/
theorem resolution_faithful_iff {state : State} (bijective : Bijective state.store) :
    (∀ id pair, state.store.tokenPairs.lookup id = some pair → pair.contractOwner = .module →
      (UsesContract state pair.denom pair.erc20Address ↔ Unmistakable pair.denom pair.erc20Address)) ∧
    ∀ denom other contract contract', denom ≠ other →
      state.store.getContractByDenom denom = .ok (some contract) →
      state.store.getContractByDenom other = .ok (some contract') →
      (contract ≠ contract' ↔ Apart state.store denom other) :=
  ⟨fun _ _ stored _ => usesContract_iff bijective stored,
    fun _ _ _ _ different => contracts_differ_iff bijective different⟩

theorem sampleState_bijective : Bijective sampleState.store := Bijective.empty.addTokenPair rfl rfl

theorem resolution_faithful_sample :
    (UsesContract sampleState "uusm" 1 ↔ Unmistakable "uusm" 1) ∧
      ((1 : Address) ≠ 170 ↔ Apart sampleState.store "uusm" "erc20/00000000000000000000000000000000000000aa") := by
  obtain ⟨own, apart⟩ := resolution_faithful_iff sampleState_bijective
  exact ⟨own samplePair.getID samplePair rfl rfl, apart _ _ 1 170 (by decide) (by decide +kernel) (by decide +kernel)⟩

/-- A coin of forty hexadecimal digits. -/
def hexDenom : Denom := "abcdefabcdefabcdefabcdefabcdefabcdefabcd"

def sampleHexState : State :=
  { sampleState with
    bank := ⟨fun _ _ => 0, fun denom => if denom = hexDenom then 5 else 0⟩
    denomMetadata := AList.singleton hexDenom ⟨"", hexDenom, [⟨hexDenom, 0⟩], "", "", hexDenom⟩ }

/-- The coin is registered and then not found, and the two ways to write a digit name one contract. -/
theorem hexDenom_lost_sample :
    (validateDenom hexDenom = true ∧ ∃ next, registerCoin sampleWorld sampleHexState hexDenom = .ok next ∧
      Bijective next.store ∧ next.store.denomMap.lookup hexDenom = some (2, hexDenom) ∧
      next.store.tokenPairs.lookup (2, hexDenom) = some ⟨2, hexDenom, .module⟩ ∧ ¬ UsesContract next hexDenom 2) ∧
    validateDenom "erc20/00000000000000000000000000000000000000aa" = true ∧
    validateDenom "erc20/00000000000000000000000000000000000000AA" = true ∧
    sampleHexState.store.getContractByDenom "erc20/00000000000000000000000000000000000000aa" = .ok (some 170) ∧
    sampleHexState.store.getContractByDenom "erc20/00000000000000000000000000000000000000AA" = .ok (some 170) := by
  refine ⟨⟨by decide +kernel, ?_⟩, by decide +kernel, by decide +kernel, by decide +kernel, by decide +kernel⟩
  have run : (fun next : State => (next.store.denomMap.lookup hexDenom, next.store.tokenPairs.lookup (2, hexDenom),
      next.store.getContractByDenom hexDenom)) <$> registerCoin sampleWorld sampleHexState hexDenom =
        .ok (some (2, hexDenom), some ⟨2, hexDenom, .module⟩, .ok none) := by decide +kernel
  obtain ⟨next, success, same⟩ := Except.map_ok_iff.mp run
  simp only [Prod.mk.injEq] at same
  obtain ⟨known, stored, unresolved⟩ := same
  have bijective : Bijective next.store :=
    @bijective_step _ sampleHexState _ (.registerCoin hexDenom) sampleState_bijective success
  refine ⟨next, success, bijective, known, stored, fun uses => ?_⟩
  have supply := uses.supply
  rw [getSupply, unresolved] at supply
  cases supply

end Rotofury.Soundness.Erc20
