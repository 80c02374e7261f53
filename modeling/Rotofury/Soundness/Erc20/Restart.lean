import Rotofury.Model.Bank.Genesis
import Rotofury.Soundness.Erc20.Resolution
import Rotofury.ToMathlib.ExceptFold

/-! # Token pairs after a restart from an export

The bank's `InitGenesis` deploys a new contract for every coin that somebody holds, and registers it, before the exported
pairs are there. These are then added without a look at what is registered already. A held coin that had a contract ends up
with two of them, and the registry is not consistent.
-/

namespace Rotofury.Soundness.Erc20

open Model.Sdk Model.App Model.Erc20 Model.Bank Except

variable {pairs : List TokenPair} {denom : Denom} {pair : TokenPair} {store : Store} {held : Address × Coin}
  {account : Address} {balance : ℤ} {next : State}

/-! ## Registries filled from a list of pairs -/

/-- The registry after adding pairs to an empty one. -/
def registryOf (pairs : List TokenPair) : Store := pairs.foldl Store.addTokenPair ⟨∅, ∅, ∅⟩

theorem foldl_addTokenPair (pairs : List TokenPair) (store : Store) :
    pairs.foldl Store.addTokenPair store =
      ⟨AList.filled TokenPair.getID id pairs store.tokenPairs,
        AList.filled TokenPair.erc20Address TokenPair.getID pairs store.erc20Map,
        AList.filled TokenPair.denom TokenPair.getID pairs store.denomMap⟩ := by
  induction pairs generalizing store with
  | nil => rfl
  | cons pair rest ih =>
    rw [List.foldl_cons, ih]
    rfl

theorem registryOf_eq (pairs : List TokenPair) :
    registryOf pairs = ⟨AList.filled TokenPair.getID id pairs ∅,
      AList.filled TokenPair.erc20Address TokenPair.getID pairs ∅,
      AList.filled TokenPair.denom TokenPair.getID pairs ∅⟩ :=
  foldl_addTokenPair pairs _

theorem registryOf_concat (pairs : List TokenPair) (pair : TokenPair) :
    registryOf (pairs ++ [pair]) = (registryOf pairs).addTokenPair pair := by
  simp [registryOf]

/-- A denomination is registered once it is in a pair. -/
theorem isDenomRegistered_registryOf :
    (registryOf pairs).isDenomRegistered denom = true ↔ denom ∈ pairs.map (·.denom) := by
  rw [Store.isDenomRegistered, registryOf_eq, Option.isSome_iff_exists, List.mem_map]
  constructor
  · rintro ⟨id, found⟩
    obtain ⟨pair, inside, same, _⟩ := AList.exists_of_lookup_filled found
    exact ⟨pair, inside, same⟩
  · rintro ⟨pair, inside, rfl⟩
    exact AList.mem_filled _ _ inside

/-! ## What the bank registers -/

/-- Who holds what, in the order of the export. -/
def holdings (balances : List Portion) : List (Address × Coin) :=
  balances.flatMap fun portion => portion.coins.map fun coin => (portion.address, coin)

/-- The pairs after one more coin: a denomination that is new gets the next contract. -/
def addHeld (world : World) (nonce : ℕ) (pairs : List TokenPair) (held : Address × Coin) : List TokenPair :=
  if containsDisplayDenom held.2.denom ∨ held.2.denom ∈ pairs.map (·.denom) then pairs
  else pairs ++ [⟨world.deployed (nonce + pairs.length), held.2.denom, .module⟩]

/-- The pairs that a bank with these balances is started with. -/
def redeployed (world : World) (nonce : ℕ) (balances : List Portion) : List TokenPair :=
  (holdings balances).foldl (addHeld world nonce) []

section AddHeld

variable {world : World} {nonce : ℕ}

theorem subset_addHeld (pairs : List TokenPair) (held : Address × Coin) : pairs ⊆ addHeld world nonce pairs held := by
  unfold addHeld
  split
  · exact List.Subset.refl pairs
  · exact List.subset_append_left _ _

theorem subset_foldl_addHeld (held : List (Address × Coin)) (pairs : List TokenPair) :
    pairs ⊆ held.foldl (addHeld world nonce) pairs := by
  induction held generalizing pairs with
  | nil => exact List.Subset.refl pairs
  | cons first rest ih => exact List.Subset.trans (subset_addHeld pairs first) (ih _)

/-- A new pair is for a coin that somebody holds, and its contract is one of the next that the module deploys. -/
theorem mem_foldl_addHeld {held : List (Address × Coin)} (inside : pair ∈ held.foldl (addHeld world nonce) pairs) :
    pair ∈ pairs ∨ ∃ later < pairs.length + held.length,
      pair = ⟨world.deployed (nonce + later), pair.denom, .module⟩ := by
  induction held generalizing pairs with
  | nil => exact .inl inside
  | cons first rest ih =>
    rw [List.length_cons]
    rcases ih inside with old | ⟨later, bound, new⟩
    · unfold addHeld at old
      split at old
      · exact .inl old
      · rcases List.mem_append.mp old with old | new
        · exact .inl old
        · rw [List.mem_singleton.mp new]
          exact .inr ⟨pairs.length, by omega, rfl⟩
    · have grows : (addHeld world nonce pairs first).length ≤ pairs.length + 1 := by
        unfold addHeld
        split <;> simp
      exact .inr ⟨later, by omega, new⟩

theorem mem_addHeld (notGas : ¬ containsDisplayDenom held.2.denom) :
    held.2.denom ∈ (addHeld world nonce pairs held).map (·.denom) := by
  unfold addHeld
  split
  · next either => exact either.resolve_left notGas
  · simp

/-- Every held coin but gas is in a pair. -/
theorem mem_redeployed {balances : List Portion} (inside : held ∈ holdings balances)
    (notGas : ¬ containsDisplayDenom held.2.denom) :
    ∃ pair ∈ redeployed world nonce balances, pair.denom = held.2.denom := by
  obtain ⟨before, after, split⟩ := List.append_of_mem inside
  rw [redeployed, split, List.foldl_append, List.foldl_cons]
  obtain ⟨pair, added, same⟩ := List.mem_map.mp (mem_addHeld notGas)
  exact ⟨pair, subset_foldl_addHeld after _ added, same⟩

end AddHeld

/-- A state of the import in which these pairs have been registered. -/
structure Tracked (nonce : ℕ) (fresh : State) (pairs : List TokenPair) (state : State) : Prop where
  store : state.store = registryOf pairs
  deployments : state.deployments = nonce + pairs.length
  denomMetadata : state.denomMetadata = fresh.denomMetadata

/-- The bank goes through accounts and their coins, that is, through the holdings. -/
theorem foldlM_holdings {σ ε : Type} (visit : Address → σ → Coin → Except ε σ) (balances : List Portion) (start : σ) :
    balances.foldlM (fun state portion => portion.coins.foldlM (visit portion.address) state) start =
      (holdings balances).foldlM (fun state held => visit held.1 state held.2) start := by
  induction balances generalizing start with
  | nil => rfl
  | cons portion rest ih =>
    simp only [holdings, List.flatMap_cons, List.foldlM_append, List.foldlM_map, List.foldlM_cons]
    exact bind_congr fun middle => ih middle

theorem initBank_eq (world : World) (genesis : Genesis) :
    ∃ fresh : State,
      fresh.denomMetadata = setDenomMetaDataForStableCoins (AList.filled Metadata.base id genesis.denomMetadata ∅) ∧
      Tracked genesis.nonce fresh [] fresh ∧
      initBank world genesis =
        (holdings genesis.balances).foldlM (fun state held => alignCoin world held.1 state held.2) fresh := by
  refine ⟨⟨restoredBank genesis.balances, _, ⟨∅, ∅, ∅⟩, ⟨fun _ _ => 0, fun _ => 0⟩, _⟩, rfl, ⟨rfl, rfl, rfl⟩, ?_⟩
  exact foldlM_holdings (alignCoin world) genesis.balances _

section Import

variable {world : World} {nonce : ℕ} {fresh state next : State} {pairs : List TokenPair}

theorem ignoringError_tokens {result : Except Fault State}
    (only : ∀ after, result = .ok after → ∃ tokens, after = { state with tokens := tokens })
    (ok : ignoringError state result = .ok next) : ∃ tokens, next = { state with tokens := tokens } := by
  rcases result with (_ | _ | _) | after
  all_goals cases ok
  · exact ⟨_, rfl⟩
  · exact ⟨_, rfl⟩
  · exact only _ rfl

theorem correctBalance_tokens {coin : Coin} (ok : correctBalance world account state coin balance = .ok next) :
    ∃ tokens, next = { state with tokens := tokens } := by
  unfold correctBalance at ok
  split at ok
  · exact ignoringError_tokens (fun after sent => ⟨_, sendCoins_frame (by simp) sent⟩) ok
  · split at ok
    · exact ignoringError_tokens (fun after sent => ⟨_, sendCoins_frame (by simp) sent⟩) ok
    · cases ok
      exact ⟨_, rfl⟩

theorem registerHeld_tracked
    (keyed : ∀ denom metadata, fresh.denomMetadata.lookup denom = some metadata → metadata.base = denom)
    (tracked : Tracked nonce fresh pairs state) (notGas : ¬ containsDisplayDenom held.2.denom)
    (ok : registerHeld world state held.2.denom = .ok next) :
    Tracked nonce fresh (addHeld world nonce pairs held) next := by
  unfold registerHeld at ok
  rw [tracked.store] at ok
  split at ok
  · next known =>
    cases ok
    rw [addHeld, if_pos (.inr (isDenomRegistered_registryOf.mp known))]
    exact tracked
  · next unknown =>
    have registered : registerCoin world state held.2.denom = .ok next := by
      split at ok
      · next result => rw [result, Except.ok.inj ok]
      all_goals cases ok
    obtain ⟨_, _, _, rfl⟩ := registerCoin_ok (tracked.denomMetadata ▸ keyed) registered
    rw [addHeld, if_neg (by
      rw [not_or]
      exact ⟨notGas, fun inside => unknown (isDenomRegistered_registryOf.mpr inside)⟩)]
    refine ⟨?_, ?_, tracked.denomMetadata⟩
    · rw [registryOf_concat, ← tracked.store, ← tracked.deployments]
    · simp [tracked.deployments, add_assoc]

variable (keyed : ∀ denom metadata, fresh.denomMetadata.lookup denom = some metadata → metadata.base = denom)
include keyed

/-- What a coin that was gone through leaves. -/
theorem alignCoin_tracked (tracked : Tracked nonce fresh pairs state)
    (ok : alignCoin world held.1 state held.2 = .ok next) : Tracked nonce fresh (addHeld world nonce pairs held) next := by
  unfold alignCoin at ok
  split at ok
  · next gas =>
    cases ok
    rw [addHeld, if_pos (.inl gas)]
    exact tracked
  · next notGas =>
    simp only [ok_iffs] at ok
    obtain ⟨registered, registration, balance, read, corrected, correction, _, _, _, _, rfl⟩ := ok
    have after := registerHeld_tracked keyed tracked notGas registration
    obtain ⟨tokens, rfl⟩ := correctBalance_tokens correction
    exact ⟨after.store, after.deployments, after.denomMetadata⟩

/-- The whole export: all coins are registered. -/
theorem foldlM_alignCoin_tracked (tracked : Tracked nonce fresh pairs state) {held : List (Address × Coin)}
    (ok : held.foldlM (fun state held => alignCoin world held.1 state held.2) state = .ok next) :
    Tracked nonce fresh (held.foldl (addHeld world nonce) pairs) next := by
  induction held generalizing pairs state with
  | nil =>
    cases ok
    exact tracked
  | cons first rest ih =>
    obtain ⟨middle, turn, later⟩ := foldlM_cons_ok_iff.mp ok
    exact ih (alignCoin_tracked keyed tracked turn) later

end Import

/-! ## Export and import -/

/-- A chain as it is exported: the registry is consistent, contracts agree with the bank, and the balances list what
accounts have. -/
structure Exported (state : State) (balances : List Portion) : Prop where
  registry : Bijective state.store
  agrees : Agrees state
  coins : ∀ held ∈ holdings balances, 0 < held.2.amount ∧ state.bank.balance held.1 held.2.denom = held.2.amount

/-- The registry is consistent, and every exported pair is in it. -/
structure Faithful (store next : Store) : Prop where
  bijective : Bijective next
  kept : ∀ pair, store.tokenPairs.lookup pair.getID = some pair →
    next.tokenPairs.lookup pair.getID = some pair ∧ next.denomMap.lookup pair.denom = some pair.getID

theorem Bijective.mirrors_iff (bijective : Bijective store) {contract : Address} :
    Mirrors store denom contract ↔
      store.tokenPairs.lookup (contract, denom) = some ⟨contract, denom, .module⟩ := by
  constructor
  · rintro ⟨⟨contract, other, owner⟩, ⟨id, known, stored⟩, rfl, rfl⟩
    obtain rfl := bijective.keyed _ _ stored
    obtain ⟨found, isFound, rfl⟩ := (bijective.byDenom _ _).mp known
    obtain rfl := Option.some.inj (stored.symm.trans isFound)
    exact stored
  · intro stored
    exact ⟨_, ⟨_, bijective.byDenom.lookup_field stored, stored⟩, rfl, rfl⟩

section Restart

variable {world : World} {state : State} {balances : List Portion}

/-- Descriptions are imported under the denomination they describe. -/
theorem restoredMetadata_base (described : List Metadata) (denom : Denom) (metadata : Metadata)
    (found : (setDenomMetaDataForStableCoins (AList.filled Metadata.base id described ∅)).lookup denom = some metadata) :
    metadata.base = denom := by
  have restored : ∀ found, (AList.filled Metadata.base id described ∅).lookup denom = some found → found.base = denom := by
    intro found lookup
    obtain ⟨record, _, same, rfl⟩ := AList.exists_of_lookup_filled lookup
    exact same
  unfold setDenomMetaDataForStableCoins at found
  split at found
  · exact restored metadata found
  · rw [AList.lookup_insert_eq_ite] at found
    split at found
    · next same => rw [← Option.some.inj found, same]
    · exact restored metadata found

/-- The registry after the import holds the new pairs and then the exported ones. -/
theorem initGenesis_store (contracts : List Address)
    (ok : initGenesis world (exportGenesis state balances contracts) = .ok next) :
    next.store = registryOf (redeployed world state.deployments balances ++ state.store.tokenPairs.entries.map (·.2)) := by
  obtain ⟨fresh, metadata, tracked, unfolded⟩ := initBank_eq world (exportGenesis state balances contracts)
  rw [initGenesis, unfolded, bind_ok_iff] at ok
  obtain ⟨last, gone, done⟩ := ok
  cases done
  have after := foldlM_alignCoin_tracked (metadata ▸ restoredMetadata_base _) tracked gone
  rw [registryOf, List.foldl_append]
  exact congrArg (List.foldl Store.addTokenPair · _) after.store

/-- A registry that came out as exported leads from every held coin with a contract to one that the bank deployed. -/
theorem Faithful.redeployed {contracts : List Address} {contract : Address} (registry : Bijective state.store)
    (ok : initGenesis world (exportGenesis state balances contracts) = .ok next)
    (faithful : Faithful state.store next.store) (inside : held ∈ holdings balances)
    (notGas : ¬ containsDisplayDenom held.2.denom) (mirrors : Mirrors state.store held.2.denom contract) :
    ∃ later < (holdings balances).length, world.deployed (state.deployments + later) = contract := by
  obtain ⟨pair, isNew, sameDenom⟩ := mem_redeployed inside notGas
  obtain none | ⟨later, bound, isPair⟩ := mem_foldl_addHeld isNew
  · cases none
  obtain ⟨_, known⟩ := faithful.kept ⟨contract, held.2.denom, .module⟩ (registry.mirrors_iff.mp mirrors)
  -- the pair under the identifier of the new one has its denomination, which leads to the exported pair
  obtain ⟨found, stored⟩ := AList.mem_filled TokenPair.getID id
    (List.mem_append_left (state.store.tokenPairs.entries.map (·.2)) isNew)
  have stored : next.store.tokenPairs.lookup pair.getID = some found := by
    rw [initGenesis_store contracts ok, registryOf_eq]
    exact stored
  have sameId := faithful.bijective.keyed _ _ stored
  have leads := faithful.bijective.byDenom.lookup_field stored
  rw [show found.denom = held.2.denom from (congrArg Prod.snd sameId).trans sameDenom] at leads
  have same : pair.erc20Address = contract := congrArg Prod.fst (Option.some.inj (leads.symm.trans known))
  rw [isPair] at same
  exact ⟨later, by simpa using bound, same⟩

/-- No exported chain on which somebody holds a coin with a contract of the module starts again with its registry. The
addresses of contracts to come are not those of registered ones: an account's nonces give each contract an address of
its own. -/
theorem restart_unfaithful (exported : Exported state balances) (contracts : List Address) {contract : Address}
    (inside : held ∈ holdings balances) (notGas : ¬ containsDisplayDenom held.2.denom)
    (mirrors : Mirrors state.store held.2.denom contract)
    (unused : ∀ later < (holdings balances).length, ∀ denom contract, Mirrors state.store denom contract →
      world.deployed (state.deployments + later) ≠ contract) :
    ¬ ∃ next, initGenesis world (exportGenesis state balances contracts) = .ok next ∧
      Faithful state.store next.store := by
  rintro ⟨next, success, faithful⟩
  obtain ⟨later, bound, same⟩ := faithful.redeployed exported.registry success inside notGas mirrors
  exact unused later bound _ _ mirrors same

end Restart

/-! ## A sample -/

/-- The first contract that the module deployed is that of the stable coin. -/
def restartWorld : World := { sampleWorld with deployed := fun n => BitVec.ofNat 160 (n + 1) }

def restartState : State :=
  { sampleState with denomMetadata := AList.insert "uusm" stableCoinMetadata ∅, deployments := 1 }

def restartBalances : List Portion := [⟨161, [⟨"uusm", 10⟩]⟩]

theorem restartState_exported : Exported restartState restartBalances where
  registry := Bijective.empty.addTokenPair rfl rfl
  agrees := sampleState_initial.agrees
  coins := by
    intro held inside
    obtain rfl := List.mem_singleton.mp inside
    exact ⟨by decide, by decide⟩

theorem restart_unfaithful_sample : Exported restartState restartBalances ∧
    ¬ ∃ next, initGenesis restartWorld (exportGenesis restartState restartBalances [1]) = .ok next ∧
      Faithful restartState.store next.store := by
  refine ⟨restartState_exported, restart_unfaithful restartState_exported [1]
    (List.mem_singleton.mpr rfl) (by decide) (sample_mirrors.mpr ⟨rfl, rfl⟩) ?_⟩
  intro later bound denom contract mirrors
  obtain ⟨rfl, rfl⟩ := sample_mirrors.mp mirrors
  obtain rfl : later = 0 := Nat.lt_one_iff.mp bound
  decide

/-- The import leaves a second contract behind that leads to the stable coin, which leads to the first one. -/
theorem restart_leaves_contract_sample : Exported restartState restartBalances ∧
    ∃ next, initGenesis restartWorld (exportGenesis restartState restartBalances [1]) = .ok next ∧
      next.store.erc20Map.lookup 2 = some (2, "uusm") ∧ next.store.denomMap.lookup "uusm" = some (1, "uusm") ∧
      ¬ Bijective next.store := by
  have run : (fun next : State => (next.store.erc20Map.lookup 2, next.store.denomMap.lookup "uusm")) <$>
      initGenesis restartWorld (exportGenesis restartState restartBalances [1]) =
        .ok (some (2, "uusm"), some (1, "uusm")) := by decide +kernel
  obtain ⟨next, success, tables⟩ := map_ok_iff.mp run
  obtain ⟨byContract, byDenom⟩ := Prod.mk.inj tables
  refine ⟨restartState_exported, next, success, byContract, byDenom, fun bijective => ?_⟩
  obtain ⟨pair, stored, _⟩ := (bijective.byContract 2 _).mp byContract
  have leads := bijective.byDenom.lookup_field stored
  rw [show pair.denom = "uusm" from congrArg Prod.snd (bijective.keyed _ _ stored), byDenom] at leads
  exact absurd leads (by decide)

end Rotofury.Soundness.Erc20
