import Rotofury.Model.Sdk.Bank

/-! # Bank calls as data

A message ends in a list of bank calls. `BankOp` is one call with the coins it is given; the list is
executed in order. What a successful list does to an account and to the supply is the sum of what its
calls say; a list that is `Covered` for an account never fails because that account is short of funds.
-/

namespace Rotofury.Model.Sdk

open Model.App Except

variable {bank next : Bank} {op : BankOp} {ops rest : List BankOp} {short account : Address} {denom : Denom}
  {funds : Denom → ℤ}

/-- One call of the bank keeper; the coins are still to be put through `newCoins`. -/
inductive BankOp where
  | sendCoinsFromAccountToModule (sender : Address) (recipient : ModuleAccount) (coins : List Coin)
  | sendCoinsFromModuleToAccount (sender : ModuleAccount) (recipient : Address) (coins : List Coin)
  | sendCoinsFromModuleToModule (sender recipient : ModuleAccount) (coins : List Coin)
  | mintCoins (module : ModuleAccount) (coins : List Coin)
  | burnCoins (module : ModuleAccount) (coins : List Coin)
deriving DecidableEq, Repr

/-- A call `keeper.X(…, sdk.NewCoins(…))`. -/
def execOp (bank : Bank) : BankOp → Except Fault Bank
  | .sendCoinsFromAccountToModule sender recipient coins => do
    bank.sendCoins sender recipient.address (← newCoins coins)
  | .sendCoinsFromModuleToAccount sender recipient coins => do
    bank.sendCoinsFromModuleToAccount sender recipient (← newCoins coins)
  | .sendCoinsFromModuleToModule sender recipient coins => do
    bank.sendCoins sender.address recipient.address (← newCoins coins)
  | .mintCoins module coins => do bank.mintCoins module (← newCoins coins)
  | .burnCoins module coins => do bank.burnCoins module (← newCoins coins)

/-- The calls of one message in order; the first failure stops it. -/
def execOps (bank : Bank) (ops : List BankOp) : Except Fault Bank := ops.foldlM execOp bank

namespace BankOp

def coins : BankOp → List Coin
  | sendCoinsFromAccountToModule _ _ coins | sendCoinsFromModuleToAccount _ _ coins
  | sendCoinsFromModuleToModule _ _ coins | mintCoins _ coins | burnCoins _ coins => coins

/-- The account a call debits. -/
def debited : BankOp → Option Address
  | sendCoinsFromAccountToModule sender _ _ => some sender
  | sendCoinsFromModuleToAccount sender _ _ | sendCoinsFromModuleToModule sender _ _ => some sender.address
  | mintCoins _ _ => none
  | burnCoins module _ => some module.address

/-- The account a call credits. -/
def credited : BankOp → Option Address
  | sendCoinsFromModuleToAccount _ recipient _ => some recipient
  | sendCoinsFromAccountToModule _ recipient _ | sendCoinsFromModuleToModule _ recipient _ =>
    some recipient.address
  | mintCoins module _ => some module.address
  | burnCoins _ _ => none

/-- What a call adds to one balance. -/
def netChange (op : BankOp) (account : Address) (denom : Denom) : ℤ :=
  (if op.credited = some account then amountOf op.coins denom else 0) -
    (if op.debited = some account then amountOf op.coins denom else 0)

/-- What a call adds to the supply. -/
def supplyChange (op : BankOp) (denom : Denom) : ℤ :=
  match op with
  | mintCoins _ coins => amountOf coins denom
  | burnCoins _ coins => -amountOf coins denom
  | _ => 0

end BankOp

private theorem sent_ok {sender recipient : Address} {built : List Coin} (build : newCoins op.coins = .ok built)
    (send : bank.sendCoins sender recipient built = .ok next) (debited : op.debited = some sender)
    (credited : op.credited = some recipient) (steady : op.supplyChange = 0) :
    (∀ a d, (next.balance a d : ℤ) = bank.balance a d + op.netChange a d) ∧
      (∀ d, (next.supply d : ℤ) = bank.supply d + op.supplyChange d) ∧
      ∀ coin ∈ op.coins, 0 ≤ coin.amount := by
  obtain ⟨_, amounts, nonnegative⟩ := newCoins_ok build
  obtain ⟨balances, supplies⟩ := Bank.sendCoins_ok send
  refine ⟨fun a d => ?_, fun d => by simp [supplies, steady], nonnegative⟩
  simp [balances, amounts, Bank.onAccount, BankOp.netChange, debited, credited, eq_comm]

/-- A successful call changes balances and supplies by exactly what it says. -/
theorem execOp_ok (ok : execOp bank op = .ok next) :
    (∀ a d, (next.balance a d : ℤ) = bank.balance a d + op.netChange a d) ∧
      (∀ d, (next.supply d : ℤ) = bank.supply d + op.supplyChange d) ∧
      ∀ coin ∈ op.coins, 0 ≤ coin.amount := by
  cases op with
  | sendCoinsFromAccountToModule sender recipient coins =>
    simp only [execOp, bind_ok_iff] at ok
    obtain ⟨built, build, send⟩ := ok
    exact sent_ok build send rfl rfl rfl
  | sendCoinsFromModuleToAccount sender recipient coins =>
    simp only [execOp, Bank.sendCoinsFromModuleToAccount, bind_ok_iff] at ok
    obtain ⟨built, build, _, _, send⟩ := ok
    exact sent_ok build send rfl rfl rfl
  | sendCoinsFromModuleToModule sender recipient coins =>
    simp only [execOp, bind_ok_iff] at ok
    obtain ⟨built, build, send⟩ := ok
    exact sent_ok build send rfl rfl rfl
  | mintCoins module coins =>
    simp only [execOp, bind_ok_iff] at ok
    obtain ⟨built, build, mint⟩ := ok
    obtain ⟨_, amounts, nonnegative⟩ := newCoins_ok build
    obtain ⟨balances, supplies⟩ := Bank.mintCoins_ok mint
    refine ⟨fun a d => ?_, fun d => by simp [supplies, amounts, BankOp.supplyChange], nonnegative⟩
    simp [balances, amounts, Bank.onAccount, BankOp.netChange, BankOp.credited, BankOp.debited, BankOp.coins, eq_comm]
  | burnCoins module coins =>
    simp only [execOp, bind_ok_iff] at ok
    obtain ⟨built, build, burn⟩ := ok
    obtain ⟨_, amounts, nonnegative⟩ := newCoins_ok build
    obtain ⟨balances, supplies⟩ := Bank.burnCoins_ok burn
    refine ⟨fun a d => ?_, fun d => ?_, nonnegative⟩
    · simp [balances, amounts, Bank.onAccount, BankOp.netChange, BankOp.credited, BankOp.debited, BankOp.coins, eq_comm]
      ring
    · rw [supplies, amounts, BankOp.supplyChange]
      ring

/-- A successful list of calls changes balances and supplies by the sum over its calls. -/
theorem execOps_ok (ok : execOps bank ops = .ok next) :
    (∀ a d, (next.balance a d : ℤ) = bank.balance a d + (ops.map (·.netChange a d)).sum) ∧
      (∀ d, (next.supply d : ℤ) = bank.supply d + (ops.map (·.supplyChange d)).sum) ∧
      ∀ op ∈ ops, ∀ coin ∈ op.coins, 0 ≤ coin.amount := by
  unfold execOps at ok
  induction ops generalizing bank with
  | nil =>
    cases ok
    simp
  | cons op rest ih =>
    rw [List.foldlM_cons, bind_ok_iff] at ok
    obtain ⟨middle, first, ok⟩ := ok
    obtain ⟨opBalance, opSupply, opNonneg⟩ := execOp_ok first
    obtain ⟨restBalance, restSupply, restNonneg⟩ := ih ok
    refine ⟨fun a d => ?_, fun d => ?_, List.forall_mem_cons.mpr ⟨opNonneg, restNonneg⟩⟩
    · rw [restBalance, opBalance, List.map_cons, List.sum_cons, add_assoc]
    · rw [restSupply, opSupply, List.map_cons, List.sum_cons, add_assoc]

private theorem newCoins_ne_shortage {coins : List Coin} :
    newCoins coins ≠ .error (.insufficientFunds short denom) := by
  unfold newCoins
  split <;> exact nofun

private theorem sent_shortage {sender recipient : Address} {built : List Coin} (build : newCoins op.coins = .ok built)
    (send : bank.sendCoins sender recipient built = .error (.insufficientFunds short denom))
    (debited : op.debited = some sender) : op.debited = some short ∧ (∀ coin ∈ op.coins, 0 ≤ coin.amount) ∧
      ¬ ∀ d, amountOf op.coins d ≤ bank.balance short d := by
  obtain ⟨_, amounts, nonnegative⟩ := newCoins_ok build
  obtain ⟨rfl, uncovered⟩ := Bank.sendCoins_shortage send
  simp only [amounts] at uncovered
  exact ⟨debited, nonnegative, uncovered⟩

/-- A shortage in a call names the account the call debits, and the account does not hold the coins. -/
theorem execOp_shortage (failure : execOp bank op = .error (.insufficientFunds short denom)) :
    op.debited = some short ∧ (∀ coin ∈ op.coins, 0 ≤ coin.amount) ∧
      ¬ ∀ d, amountOf op.coins d ≤ bank.balance short d := by
  cases op with
  | sendCoinsFromAccountToModule sender recipient coins =>
    simp only [execOp, bind_eq_error_iff, newCoins_ne_shortage, false_or] at failure
    obtain ⟨built, build, send⟩ := failure
    exact sent_shortage build send rfl
  | sendCoinsFromModuleToAccount sender recipient coins =>
    simp only [execOp, bind_eq_error_iff, newCoins_ne_shortage, false_or,
      Bank.sendCoinsFromModuleToAccount, require_eq_error_iff] at failure
    obtain ⟨built, build, ⟨_, wrong⟩ | ⟨_, _, send⟩⟩ := failure
    · cases wrong
    · exact sent_shortage build send rfl
  | sendCoinsFromModuleToModule sender recipient coins =>
    simp only [execOp, bind_eq_error_iff, newCoins_ne_shortage, false_or] at failure
    obtain ⟨built, build, send⟩ := failure
    exact sent_shortage build send rfl
  | mintCoins module coins =>
    simp only [execOp, bind_eq_error_iff, newCoins_ne_shortage, false_or] at failure
    obtain ⟨built, _, mint⟩ := failure
    exact absurd mint Bank.mintCoins_ne_shortage
  | burnCoins module coins =>
    simp only [execOp, bind_eq_error_iff, newCoins_ne_shortage, false_or] at failure
    obtain ⟨built, build, burn⟩ := failure
    obtain ⟨_, amounts, nonnegative⟩ := newCoins_ok build
    obtain ⟨rfl, uncovered⟩ := Bank.burnCoins_shortage burn
    simp only [amounts] at uncovered
    exact ⟨rfl, nonnegative, uncovered⟩

/-- Starting from `funds`, every call that debits the account finds its coins there. -/
def Covered (account : Address) : (Denom → ℤ) → List BankOp → Prop
  | _, [] => True
  | funds, op :: rest => (∀ coin ∈ op.coins, 0 ≤ coin.amount) →
      (op.debited = some account → ∀ d, amountOf op.coins d ≤ funds d) ∧
        Covered account (fun d => funds d + op.netChange account d) rest

/-- More funds cover no less. -/
theorem Covered.mono {more : Denom → ℤ} (covered : Covered account funds ops) (ordered : ∀ d, funds d ≤ more d) :
    Covered account more ops := by
  induction ops generalizing funds more with
  | nil => trivial
  | cons op rest ih =>
    intro nonneg
    obtain ⟨here, later⟩ := covered nonneg
    refine ⟨fun debited d => (here debited d).trans (ordered d), ih later fun d => ?_⟩
    have := ordered d
    omega

/-- A payment needs its coins, and leaves at least the rest. -/
theorem covered_pay (debited : op.debited = some account)
    (paid : (∀ coin ∈ op.coins, 0 ≤ coin.amount) → (∀ d, amountOf op.coins d ≤ funds d) ∧
      Covered account (fun d => funds d - amountOf op.coins d) rest) : Covered account funds (op :: rest) := by
  intro nonneg
  obtain ⟨enough, later⟩ := paid nonneg
  refine ⟨fun _ => enough, later.mono fun d => ?_⟩
  have amount := amountOf_nonneg nonneg d
  rw [BankOp.netChange, if_pos debited]
  split <;> omega

/-- A receipt adds its coins. -/
theorem covered_receive (credited : op.credited = some account) (debited : op.debited ≠ some account)
    (received : (∀ coin ∈ op.coins, 0 ≤ coin.amount) →
      Covered account (fun d => funds d + amountOf op.coins d) rest) : Covered account funds (op :: rest) := by
  intro nonneg
  refine ⟨fun own => absurd own debited, (received nonneg).mono fun d => ?_⟩
  rw [BankOp.netChange, if_pos credited, if_neg debited, sub_zero]

/-- A covered account never runs short, whatever else makes the list fail. -/
theorem execOps_ne_shortage (covered : Covered account (fun d => bank.balance account d) ops) :
    execOps bank ops ≠ .error (.insufficientFunds account denom) := by
  intro failure
  unfold execOps at failure
  induction ops generalizing bank with
  | nil => cases failure
  | cons op rest ih =>
    rw [List.foldlM_cons, bind_eq_error_iff] at failure
    rcases failure with here | ⟨middle, first, later⟩
    · obtain ⟨debited, nonnegative, uncovered⟩ := execOp_shortage here
      exact uncovered ((covered nonnegative).1 debited)
    · obtain ⟨balances, _, nonnegative⟩ := execOp_ok first
      refine ih ?_ later
      simpa only [balances] using (covered nonnegative).2

/-! ## Panics

The bank refuses what it cannot do with an error; it panics only over the coins it is given. -/

theorem newCoin_avoids {reason : String} (other : reason.toList.head? ≠ some 'n') (denom : Denom) (amount : ℤ) :
    Avoids (.panic reason) (newCoin denom amount) := by
  unfold newCoin
  split
  · rw [avoids_error]
    intro same
    apply other
    rw [← Fault.panic.inj same, String.toList_append, List.head?_append]
    rfl
  · exact avoids_ok _ _

theorem newCoins_avoids {fault : Fault} (other : .panic "invalid coins" ≠ fault) (coins : List Coin) :
    Avoids fault (newCoins coins) := by
  unfold newCoins
  split
  · exact avoids_ok _ _
  · rwa [avoids_error]

/-- A debit that fails does so with an error. -/
theorem subUnlockedCoins_avoids (reason : String) (bank : Bank) (account : Address) (coins : List Coin) :
    Avoids (.panic reason) (bank.subUnlockedCoins account coins) := by
  refine Avoids.bind (by simp) fun _ _ => Avoids.foldlM (fun bank coin => ?_) coins bank
  exact Avoids.bind (by simp) fun _ _ => avoids_pure _ _

theorem sendCoins_avoids (reason : String) (bank : Bank) (sender recipient : Address) (coins : List Coin) :
    Avoids (.panic reason) (bank.sendCoins sender recipient coins) := by
  refine (subUnlockedCoins_avoids reason bank sender coins).bind fun middle _ => ?_
  exact Avoids.bind (by simp) fun _ _ => avoids_pure _ _

end Rotofury.Model.Sdk
