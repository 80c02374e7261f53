import Rotofury.Model.App.Accounts

/-! # The bank keeper

Balances and supplies, and the keeper's calls as data: a `BankOp` is one call with the coins it is
given, `execOp` its effect. Each call moves, mints or burns exactly the requested amounts or fails;
a debit that the account cannot cover is an insufficient-funds error. Vesting locks are not
modelled: every balance is spendable.
-/

namespace Rotofury.Model.Sdk

open Model.App Except

variable {account sender recipient short : Address} {bank next : Bank} {coin : Coin} {coins : List Coin}
  {module : ModuleAccount} {denom : Denom}

structure Bank where
  balance : Address → Denom → ℕ
  supply : Denom → ℕ

def errInvalidCoins : RegisteredError := ⟨"sdk", 10, "invalid coins"⟩
def errUnauthorized : RegisteredError := ⟨"sdk", 4, "unauthorized"⟩

namespace Bank

/-- `setBalance` -/
def setBalance (bank : Bank) (account : Address) (denom : Denom) (amount : ℕ) : Bank :=
  { bank with
    balance := fun a d => if a = account ∧ d = denom then amount else bank.balance a d }

def setSupply (bank : Bank) (denom : Denom) (amount : ℕ) : Bank :=
  { bank with supply := fun d => if d = denom then amount else bank.supply d }

/-- `HasSupply`: a supply of zero is deleted from the store. -/
def hasSupply (bank : Bank) (denom : Denom) : Prop := bank.supply denom ≠ 0

instance (bank : Bank) (denom : Denom) : Decidable (bank.hasSupply denom) :=
  inferInstanceAs (Decidable (_ ≠ _))

def subCoin (account : Address) (bank : Bank) (coin : Coin) : Except Fault Bank := do
  require (coin.amount ≤ bank.balance account coin.denom) (.insufficientFunds account coin.denom)
  pure (bank.setBalance account coin.denom (bank.balance account coin.denom - coin.amount).toNat)

def addCoin (account : Address) (bank : Bank) (coin : Coin) : Bank :=
  bank.setBalance account coin.denom (bank.balance account coin.denom + coin.amount).toNat

/-- `subUnlockedCoins` -/
def subUnlockedCoins (bank : Bank) (account : Address) (coins : List Coin) : Except Fault Bank := do
  require (validCoins coins) (.err errInvalidCoins "")
  coins.foldlM (subCoin account) bank

/-- `addCoins` -/
def addCoins (bank : Bank) (account : Address) (coins : List Coin) : Except Fault Bank := do
  require (validCoins coins) (.err errInvalidCoins "")
  pure (coins.foldl (addCoin account) bank)

def sendCoins (bank : Bank) (sender recipient : Address) (coins : List Coin) : Except Fault Bank := do
  let bank ← bank.subUnlockedCoins sender coins
  bank.addCoins recipient coins

def growSupply (bank : Bank) (coin : Coin) : Bank :=
  bank.setSupply coin.denom (bank.supply coin.denom + coin.amount).toNat

def shrinkSupply (bank : Bank) (coin : Coin) : Except Fault Bank := do
  require (coin.amount ≤ bank.supply coin.denom) (.panic "negative coin amount")
  pure (bank.setSupply coin.denom (bank.supply coin.denom - coin.amount).toNat)

def mintCoins (bank : Bank) (module : ModuleAccount) (coins : List Coin) : Except Fault Bank := do
  require (module.canMint = true) (.panic "module account does not have permissions to mint tokens")
  let bank ← bank.addCoins module.address coins
  pure (coins.foldl growSupply bank)

def burnCoins (bank : Bank) (module : ModuleAccount) (coins : List Coin) : Except Fault Bank := do
  require (module.canBurn = true) (.panic "module account does not have permissions to burn tokens")
  let bank ← bank.subUnlockedCoins module.address coins
  coins.foldlM shrinkSupply bank

def sendCoinsFromModuleToAccount (bank : Bank) (sender : ModuleAccount) (recipient : Address)
    (coins : List Coin) : Except Fault Bank := do
  require (¬ blockedAddr recipient) (.err errUnauthorized "is not allowed to receive funds")
  bank.sendCoins sender.address recipient coins

@[simp] theorem setBalance_supply (bank : Bank) (account : Address) (denom : Denom) (amount : ℕ) :
    (bank.setBalance account denom amount).supply = bank.supply := rfl

@[simp] theorem setSupply_balance (bank : Bank) (denom : Denom) (amount : ℕ) :
    (bank.setSupply denom amount).balance = bank.balance := rfl

/-- The part of an account-indexed change that falls on one account. -/
def onAccount (account query : Address) (amount : ℤ) : ℤ := if query = account then amount else 0

theorem subCoin_ok (ok : subCoin account bank coin = .ok next) :
    (∀ a d, (next.balance a d : ℤ) = bank.balance a d - onAccount account a (amountOf [coin] d)) ∧
      next.supply = bank.supply := by
  simp only [subCoin, ok_iffs] at ok
  obtain ⟨_, enough, rfl⟩ := ok
  refine ⟨fun a d => ?_, rfl⟩
  simp only [setBalance, onAccount, amountOf_cons, amountOf_nil, add_zero, onDenom, eq_comm (a := coin.denom)]
  by_cases here : a = account <;> by_cases same : d = coin.denom <;> simp [here, same]
  omega

theorem addCoin_balance (account : Address) (bank : Bank) (nonnegative : 0 ≤ coin.amount) (a : Address) (d : Denom) :
    ((addCoin account bank coin).balance a d : ℤ) =
      bank.balance a d + onAccount account a (amountOf [coin] d) := by
  simp only [addCoin, setBalance, onAccount, amountOf_cons, amountOf_nil, add_zero, onDenom, eq_comm (a := coin.denom)]
  by_cases here : a = account <;> by_cases same : d = coin.denom <;> simp [here, same]
  omega

private theorem onAccount_cons (account query : Address) (coin : Coin) (coins : List Coin) (denom : Denom) :
    onAccount account query (amountOf (coin :: coins) denom) =
      onAccount account query (amountOf [coin] denom) + onAccount account query (amountOf coins denom) := by
  unfold onAccount
  split <;> simp

/-- A successful debit takes exactly the coins from exactly the account. -/
theorem subUnlockedCoins_ok (ok : bank.subUnlockedCoins account coins = .ok next) :
    (∀ a d, (next.balance a d : ℤ) = bank.balance a d - onAccount account a (amountOf coins d)) ∧
      next.supply = bank.supply := by
  simp only [subUnlockedCoins, ok_iffs] at ok
  obtain ⟨_, -, ok⟩ := ok
  induction coins generalizing bank with
  | nil =>
    cases ok
    simp [onAccount]
  | cons coin rest ih =>
    rw [List.foldlM_cons, bind_ok_iff] at ok
    obtain ⟨middle, first, ok⟩ := ok
    obtain ⟨firstBalance, firstSupply⟩ := subCoin_ok first
    obtain ⟨restBalance, restSupply⟩ := ih ok
    refine ⟨fun a d => ?_, restSupply.trans firstSupply⟩
    rw [restBalance, firstBalance, onAccount_cons account a coin rest d]
    ring

/-- A credit adds exactly the coins to exactly the account. -/
theorem addCoins_ok (ok : bank.addCoins account coins = .ok next) :
    (∀ a d, (next.balance a d : ℤ) = bank.balance a d + onAccount account a (amountOf coins d)) ∧
      next.supply = bank.supply := by
  simp only [addCoins, ok_iffs] at ok
  obtain ⟨_, valid, rfl⟩ := ok
  have nonnegative : ∀ coin ∈ coins, 0 ≤ coin.amount := fun coin member => (valid.1 coin member).le
  clear valid
  induction coins generalizing bank with
  | nil => simp [onAccount]
  | cons coin rest ih =>
    obtain ⟨head, tail⟩ := List.forall_mem_cons.mp nonnegative
    obtain ⟨restBalance, restSupply⟩ := @ih (addCoin account bank coin) tail
    refine ⟨fun a d => ?_, restSupply⟩
    rw [List.foldl_cons, restBalance, addCoin_balance account bank head, onAccount_cons account a coin rest d]
    ring

theorem sendCoins_ok (ok : bank.sendCoins sender recipient coins = .ok next) :
    (∀ a d, (next.balance a d : ℤ) = bank.balance a d +
      (onAccount recipient a (amountOf coins d) - onAccount sender a (amountOf coins d))) ∧
      next.supply = bank.supply := by
  simp only [sendCoins, bind_ok_iff] at ok
  obtain ⟨middle, debit, credit⟩ := ok
  obtain ⟨debitBalance, debitSupply⟩ := subUnlockedCoins_ok debit
  obtain ⟨creditBalance, creditSupply⟩ := addCoins_ok credit
  refine ⟨fun a d => ?_, creditSupply.trans debitSupply⟩
  rw [creditBalance, debitBalance]
  ring

private theorem growSupply_foldl (coins : List Coin) (nonnegative : ∀ coin ∈ coins, 0 ≤ coin.amount)
    (bank : Bank) (d : Denom) :
    ((coins.foldl growSupply bank).supply d : ℤ) = bank.supply d + amountOf coins d ∧
      (coins.foldl growSupply bank).balance = bank.balance := by
  induction coins generalizing bank with
  | nil => simp
  | cons coin rest ih =>
    obtain ⟨head, tail⟩ := List.forall_mem_cons.mp nonnegative
    obtain ⟨restSupply, restBalance⟩ := ih tail (growSupply bank coin)
    refine ⟨?_, restBalance⟩
    rw [List.foldl_cons, restSupply, amountOf_cons]
    simp only [growSupply, setSupply, onDenom, eq_comm (a := coin.denom)]
    split
    · next same => subst same; omega
    · ring

theorem mintCoins_ok (ok : bank.mintCoins module coins = .ok next) :
    (∀ a d, (next.balance a d : ℤ) = bank.balance a d + onAccount module.address a (amountOf coins d)) ∧
      ∀ d, (next.supply d : ℤ) = bank.supply d + amountOf coins d := by
  simp only [mintCoins, ok_iffs] at ok
  obtain ⟨_, _, middle, credit, rfl⟩ := ok
  obtain ⟨creditBalance, creditSupply⟩ := addCoins_ok credit
  simp only [addCoins, ok_iffs] at credit
  obtain ⟨_, valid, _⟩ := credit
  have grown := growSupply_foldl coins (fun coin member => (valid.1 coin member).le) middle
  refine ⟨fun a d => ?_, fun d => ?_⟩
  · rw [(grown d).2, creditBalance]
  · rw [(grown d).1, creditSupply]

private theorem shrinkSupply_foldlM (ok : coins.foldlM shrinkSupply bank = .ok next) :
    (∀ d, (next.supply d : ℤ) = bank.supply d - amountOf coins d) ∧ next.balance = bank.balance := by
  induction coins generalizing bank with
  | nil =>
    cases ok
    simp
  | cons coin rest ih =>
    rw [List.foldlM_cons, bind_ok_iff] at ok
    obtain ⟨middle, first, ok⟩ := ok
    simp only [shrinkSupply, ok_iffs] at first
    obtain ⟨_, enough, rfl⟩ := first
    obtain ⟨restSupply, restBalance⟩ := ih ok
    refine ⟨fun d => ?_, restBalance⟩
    rw [restSupply, amountOf_cons]
    simp only [setSupply, onDenom, eq_comm (a := coin.denom)]
    split
    · next same => subst same; omega
    · ring

theorem burnCoins_ok (ok : bank.burnCoins module coins = .ok next) :
    (∀ a d, (next.balance a d : ℤ) = bank.balance a d - onAccount module.address a (amountOf coins d)) ∧
      ∀ d, (next.supply d : ℤ) = bank.supply d - amountOf coins d := by
  simp only [burnCoins, ok_iffs] at ok
  obtain ⟨_, _, middle, debit, burn⟩ := ok
  obtain ⟨debitBalance, debitSupply⟩ := subUnlockedCoins_ok debit
  obtain ⟨burnSupply, burnBalance⟩ := shrinkSupply_foldlM burn
  refine ⟨fun a d => ?_, fun d => ?_⟩
  · rw [burnBalance, debitBalance]
  · rw [burnSupply, debitSupply]

/-- An account that holds the coins can always be debited. -/
theorem subUnlockedCoins_of_covered (valid : validCoins coins)
    (covered : ∀ d, amountOf coins d ≤ bank.balance account d) :
    ∃ next, bank.subUnlockedCoins account coins = .ok next := by
  have nonnegative : ∀ coin ∈ coins, 0 ≤ coin.amount := fun coin member => (valid.1 coin member).le
  simp only [subUnlockedCoins, require, if_pos valid, ok_bind]
  clear valid
  induction coins generalizing bank with
  | nil => exact ⟨bank, rfl⟩
  | cons coin rest ih =>
    obtain ⟨head, tail⟩ := List.forall_mem_cons.mp nonnegative
    have restNonneg := amountOf_nonneg tail coin.denom
    have enough : coin.amount ≤ bank.balance account coin.denom := by
      have total := covered coin.denom
      rw [amountOf_cons, onDenom_self] at total
      omega
    obtain ⟨middle, first⟩ : ∃ middle, subCoin account bank coin = .ok middle := by
      simp only [subCoin, require, if_pos enough, ok_bind]
      exact ⟨_, rfl⟩
    rw [List.foldlM_cons, first]
    refine ih (fun d => ?_) tail
    rw [(subCoin_ok first).1 account d]
    have total := covered d
    rw [amountOf_cons] at total
    simp only [onAccount, amountOf_cons, amountOf_nil]
    simp only [if_true]
    omega

/-- An account that holds the coins can send them. -/
theorem sendCoins_of_covered (valid : validCoins coins) (covered : ∀ d, amountOf coins d ≤ bank.balance sender d)
    (recipient : Address) :
    ∃ next, bank.sendCoins sender recipient coins = .ok next := by
  obtain ⟨debited, debit⟩ := subUnlockedCoins_of_covered valid covered
  rw [sendCoins, debit, ok_bind, addCoins, require, if_pos valid]
  exact ⟨_, rfl⟩

/-- A shortage names the debited account, which then does not hold the coins. -/
theorem subUnlockedCoins_shortage
    (failure : bank.subUnlockedCoins account coins = .error (.insufficientFunds short denom)) :
    short = account ∧ ¬ ∀ d, amountOf coins d ≤ bank.balance account d := by
  have valid : validCoins coins := by
    by_contra invalid
    simp [subUnlockedCoins, require, invalid] at failure
  refine ⟨?_, fun covered => ?_⟩
  · simp only [subUnlockedCoins, require, if_pos valid, ok_bind] at failure
    clear valid
    induction coins generalizing bank with
    | nil => cases failure
    | cons coin rest ih =>
      rw [List.foldlM_cons, bind_eq_error_iff] at failure
      rcases failure with here | ⟨middle, _, later⟩
      · simp only [subCoin, bind_eq_error_iff, require_eq_error_iff] at here
        rcases here with ⟨_, same⟩ | ⟨_, _, done⟩
        · injection same with same
          exact same.symm
        · cases done
      · exact ih later
  · obtain ⟨next, ok⟩ := subUnlockedCoins_of_covered valid covered
    rw [ok] at failure
    cases failure

private theorem addCoins_ne_shortage :
    bank.addCoins account coins ≠ .error (.insufficientFunds short denom) := by
  intro failure
  simp only [addCoins, bind_eq_error_iff, require_eq_error_iff] at failure
  rcases failure with ⟨_, wrong⟩ | ⟨_, _, done⟩
  · cases wrong
  · cases done

theorem sendCoins_shortage (failure : bank.sendCoins sender recipient coins = .error (.insufficientFunds short denom)) :
    short = sender ∧ ¬ ∀ d, amountOf coins d ≤ bank.balance sender d := by
  simp only [sendCoins, bind_eq_error_iff] at failure
  rcases failure with debit | ⟨_, _, credit⟩
  · exact subUnlockedCoins_shortage debit
  · exact absurd credit addCoins_ne_shortage

theorem mintCoins_ne_shortage : bank.mintCoins module coins ≠ .error (.insufficientFunds short denom) := by
  intro failure
  simp only [mintCoins, bind_eq_error_iff, require_eq_error_iff] at failure
  rcases failure with ⟨_, wrong⟩ | ⟨_, _, credit | ⟨_, _, done⟩⟩
  · cases wrong
  · exact addCoins_ne_shortage credit
  · cases done

private theorem shrinkSupply_ne_shortage (coins : List Coin) (bank : Bank) :
    coins.foldlM shrinkSupply bank ≠ .error (.insufficientFunds short denom) := by
  induction coins generalizing bank with
  | nil => exact nofun
  | cons coin rest ih =>
    intro failure
    rw [List.foldlM_cons, bind_eq_error_iff] at failure
    rcases failure with here | ⟨middle, _, later⟩
    · simp only [shrinkSupply, bind_eq_error_iff, require_eq_error_iff] at here
      rcases here with ⟨_, wrong⟩ | ⟨_, _, done⟩
      · cases wrong
      · cases done
    · exact ih middle later

theorem burnCoins_shortage (failure : bank.burnCoins module coins = .error (.insufficientFunds short denom)) :
    short = module.address ∧ ¬ ∀ d, amountOf coins d ≤ bank.balance module.address d := by
  simp only [burnCoins, bind_eq_error_iff, require_eq_error_iff] at failure
  rcases failure with ⟨_, wrong⟩ | ⟨_, _, debit | ⟨middle, _, burn⟩⟩
  · cases wrong
  · exact subUnlockedCoins_shortage debit
  · exact absurd burn (shrinkSupply_ne_shortage coins middle)

end Bank

end Rotofury.Model.Sdk
