import Rotofury.Model.Erc20.Keeper
import Rotofury.ToMathlib.AListSum

/-! # The registry of token pairs

Both maps of the registry lead to one pair and back, so a contract mirrors at most one denomination. A new pair for a
denomination and a contract that are both unknown leaves all others as they are.
-/

namespace Rotofury.Soundness.Erc20

open Model.Sdk Model.Erc20

/-- The pair that a denomination is registered with. -/
def IsPair (store : Store) (denom : Denom) (pair : TokenPair) : Prop :=
  ∃ id, store.denomMap.lookup denom = some id ∧ store.tokenPairs.lookup id = some pair

/-- The contract was deployed by the module for this coin of the bank. -/
def Mirrors (store : Store) (denom : Denom) (contract : Address) : Prop :=
  ∃ pair, IsPair store denom pair ∧ pair.contractOwner = .module ∧ pair.erc20Address = contract

/-- The contract is registered as one of someone else. -/
def IsExternal (store : Store) (contract : Address) : Prop :=
  ∃ id pair, store.erc20Map.lookup contract = some id ∧ store.tokenPairs.lookup id = some pair ∧
    pair.contractOwner = .external

theorem IsExternal.registered {store : Store} {contract : Address} (external : IsExternal store contract) :
    store.isERC20Registered contract = true := by
  obtain ⟨id, _, known, _⟩ := external
  rw [Store.isERC20Registered, known]
  rfl

/-- The denominations that the module deploys contracts for. -/
structure Native (denom : Denom) : Prop where
  notGas : ¬ containsDisplayDenom denom
  notToken : isDenomForErc20 denom = false
  notHex : isHexAddress denom.toList = false

/-- The three tables of the registry agree. -/
structure Registry (store : Store) : Prop where
  keyed : ∀ id pair, store.tokenPairs.lookup id = some pair → pair.getID = id
  ofDenom : ∀ denom id, store.denomMap.lookup denom = some id →
    ∃ pair, store.tokenPairs.lookup id = some pair ∧ pair.denom = denom ∧ store.erc20Map.lookup pair.erc20Address = some id
  ofContract : ∀ contract id, store.erc20Map.lookup contract = some id →
    ∃ pair, store.tokenPairs.lookup id = some pair ∧ pair.erc20Address = contract ∧ store.denomMap.lookup pair.denom = some id
  native : ∀ denom contract, Mirrors store denom contract → Native denom

section

variable {store : Store} {denom other : Denom} {contract : Address} {pair pair' : TokenPair}

theorem IsPair.unique (first : IsPair store denom pair) (second : IsPair store denom pair') : pair = pair' := by
  obtain ⟨id, found, isPair⟩ := first
  obtain ⟨id', found', isPair'⟩ := second
  obtain rfl := Option.some.inj (found.symm.trans found')
  exact Option.some.inj (isPair.symm.trans isPair')

theorem Mirrors.unique {contract' : Address} (first : Mirrors store denom contract) (second : Mirrors store denom contract') :
    contract = contract' := by
  obtain ⟨pair, isPair, _, rfl⟩ := first
  obtain ⟨pair', isPair', _, rfl⟩ := second
  rw [isPair.unique isPair']

/-- The pair of a coin whose denomination is not an address. -/
theorem pairOfDenom_ok_iff (notHex : isHexAddress denom.toList = false) :
    store.pairOfDenom denom = .ok pair ↔ IsPair store denom pair := by
  have byDenom : store.getTokenPairID denom = store.denomMap.lookup denom := by
    rw [Store.getTokenPairID, if_neg (by simp [notHex])]
  unfold Store.pairOfDenom
  rw [byDenom]
  constructor
  · intro ok
    split at ok
    · cases ok
    · next id found =>
      split at ok
      · cases ok
      · next pair' isPair =>
        cases ok
        exact ⟨id, found, isPair⟩
  · rintro ⟨id, found, isPair⟩
    simp only [found, Store.getTokenPair, isPair]

variable (registry : Registry store)
include registry

theorem Registry.isPair_contract (isPair : IsPair store denom pair) :
    pair.denom = denom ∧ store.erc20Map.lookup pair.erc20Address = some pair.getID := by
  obtain ⟨id, found, isPair⟩ := isPair
  obtain ⟨pair', isPair', denom_eq, contract_eq⟩ := registry.ofDenom denom id found
  obtain rfl := Option.some.inj (isPair.symm.trans isPair')
  rw [registry.keyed id pair isPair]
  exact ⟨denom_eq, contract_eq⟩

/-- Two denominations do not share a contract. -/
theorem Registry.denom_unique (first : IsPair store denom pair) (second : IsPair store other pair')
    (same : pair.erc20Address = pair'.erc20Address) : denom = other := by
  obtain ⟨denom_eq, contract_eq⟩ := registry.isPair_contract first
  obtain ⟨denom_eq', contract_eq'⟩ := registry.isPair_contract second
  rw [same, contract_eq'] at contract_eq
  have ids := Option.some.inj contract_eq
  rw [← denom_eq, ← denom_eq']
  exact (congrArg Prod.snd ids).symm

/-- A contract mirrors one coin. -/
theorem Registry.mirrors_denom_unique (first : Mirrors store denom contract) (second : Mirrors store other contract) :
    denom = other := by
  obtain ⟨pair, isPair, _, address⟩ := first
  obtain ⟨pair', isPair', _, address'⟩ := second
  exact registry.denom_unique isPair isPair' (address.trans address'.symm)

theorem Registry.isPair_registered (isPair : IsPair store denom pair) :
    store.isERC20Registered pair.erc20Address = true := by
  rw [Store.isERC20Registered, (registry.isPair_contract isPair).2]
  rfl

theorem Registry.mirrors_registered (mirrors : Mirrors store denom contract) : store.isERC20Registered contract = true := by
  obtain ⟨pair, isPair, _, rfl⟩ := mirrors
  exact registry.isPair_registered isPair

/-- A contract of someone else mirrors no coin. -/
theorem Registry.not_mirrors (external : IsExternal store contract) : ¬ Mirrors store denom contract := by
  rintro ⟨pair, isPair, owner, rfl⟩
  obtain ⟨id, other, known, isOther, otherOwner⟩ := external
  obtain ⟨_, here⟩ := registry.isPair_contract isPair
  obtain ⟨id', _, isPair⟩ := isPair
  obtain rfl := Option.some.inj (known.symm.trans here)
  rw [registry.keyed id' pair isPair, isPair] at isOther
  obtain rfl := Option.some.inj isOther
  rw [owner] at otherOwner
  cases otherOwner

end

/-- A registry without pairs. -/
theorem registry_empty : Registry ⟨∅, ∅, ∅⟩ where
  keyed := by simp
  ofDenom := by simp
  ofContract := by simp
  native := by
    rintro denom contract ⟨pair, ⟨id, known, _⟩, _⟩
    simp at known

/-! ## A new pair -/

section Add

variable {store : Store} {pair : TokenPair} (registry : Registry store)
  (newDenom : store.denomMap.lookup pair.denom = none) (newContract : store.erc20Map.lookup pair.erc20Address = none)

include registry newContract

/-- The identifiers in use are not the new one. -/
theorem Registry.id_ne_new {id : PairId} {old : TokenPair} (found : store.tokenPairs.lookup id = some old)
    (known : store.erc20Map.lookup old.erc20Address = some id) : id ≠ pair.getID := by
  intro same
  have : old.erc20Address = pair.erc20Address := congrArg Prod.fst ((registry.keyed id old found).trans same)
  rw [this, newContract] at known
  cases known

include newDenom

theorem isPair_addTokenPair {denom : Denom} {found : TokenPair} :
    IsPair (store.addTokenPair pair) denom found ↔ IsPair store denom found ∨ (denom = pair.denom ∧ found = pair) := by
  simp only [IsPair, Store.addTokenPair, AList.lookup_insert_eq_ite]
  by_cases same : denom = pair.denom
  · subst same
    simp only [if_true, Option.some.injEq, exists_eq_left', newDenom, reduceCtorEq, false_and, exists_false, false_or,
      true_and]
    exact eq_comm
  · simp only [same, if_false, false_and, or_false]
    constructor
    · rintro ⟨id, known, isPair⟩
      obtain ⟨old, isOld, _, contract⟩ := registry.ofDenom denom id known
      rw [if_neg (registry.id_ne_new newContract isOld contract)] at isPair
      exact ⟨id, known, isPair⟩
    · rintro ⟨id, known, isPair⟩
      obtain ⟨old, isOld, _, contract⟩ := registry.ofDenom denom id known
      refine ⟨id, known, ?_⟩
      rw [if_neg (registry.id_ne_new newContract isOld contract)]
      exact isPair

theorem mirrors_addTokenPair {denom : Denom} {contract : Address} :
    Mirrors (store.addTokenPair pair) denom contract ↔
      Mirrors store denom contract ∨ (denom = pair.denom ∧ pair.contractOwner = .module ∧ pair.erc20Address = contract) := by
  unfold Mirrors
  constructor
  · rintro ⟨found, isPair, owner, address⟩
    rcases (isPair_addTokenPair registry newDenom newContract).mp isPair with old | ⟨same, rfl⟩
    · exact .inl ⟨found, old, owner, address⟩
    · exact .inr ⟨same, owner, address⟩
  · rintro (⟨found, isPair, owner, address⟩ | ⟨same, owner, address⟩)
    · exact ⟨found, (isPair_addTokenPair registry newDenom newContract).mpr (.inl isPair), owner, address⟩
    · exact ⟨pair, (isPair_addTokenPair registry newDenom newContract).mpr (.inr ⟨same, rfl⟩), owner, address⟩

theorem Registry.addTokenPair (native : pair.contractOwner = .module → Native pair.denom) :
    Registry (store.addTokenPair pair) where
  keyed := AList.forall_lookup_insert rfl registry.keyed
  ofDenom := by
    intro denom id known
    simp only [Store.addTokenPair, AList.lookup_insert_eq_ite] at known ⊢
    split at known
    · next same =>
      cases known
      exact ⟨pair, by simp, same.symm, by simp⟩
    · obtain ⟨old, isOld, denom_eq, contract⟩ := registry.ofDenom denom id known
      refine ⟨old, ?_, denom_eq, ?_⟩
      · rw [if_neg (registry.id_ne_new newContract isOld contract)]
        exact isOld
      · rw [if_neg fun same => by rw [same, newContract] at contract; cases contract]
        exact contract
  ofContract := by
    intro contract id known
    simp only [Store.addTokenPair, AList.lookup_insert_eq_ite] at known ⊢
    split at known
    · next same =>
      cases known
      exact ⟨pair, by simp, same.symm, by simp⟩
    · obtain ⟨old, isOld, address, denom_eq⟩ := registry.ofContract contract id known
      refine ⟨old, ?_, address, ?_⟩
      · rw [if_neg (registry.id_ne_new newContract isOld (address ▸ known))]
        exact isOld
      · rw [if_neg fun same => by rw [same, newDenom] at denom_eq; cases denom_eq]
        exact denom_eq
  native := by
    intro denom contract mirrors
    rcases (mirrors_addTokenPair registry newDenom newContract).mp mirrors with old | ⟨rfl, owner, _⟩
    · exact registry.native denom contract old
    · exact native owner

end Add

end Rotofury.Soundness.Erc20
