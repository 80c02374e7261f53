import Rotofury.Model.Sdk.Dec

/-! # Coins

A coin is a denomination with an integer amount. `newCoin` and `sub` panic on a negative amount, and
every binary operation panics on a denomination mismatch; `addAmount` is unchecked. A coin set is a
list sorted by strictly increasing denomination with positive amounts; `newCoins` builds one and
panics when two non-zero coins share a denomination or one is negative. The syntactic check of
denomination strings is not modelled.
-/

namespace Rotofury.Model.Sdk

@[ext]
structure Coin where
  denom : Denom
  amount : ℤ
deriving DecidableEq, Repr

def newCoin (denom : Denom) (amount : ℤ) : Except Fault Coin :=
  if amount < 0 then .error (.panic s!"negative coin amount: {amount}") else .ok ⟨denom, amount⟩

@[simp]
theorem newCoin_ok_iff {denom : Denom} {amount : ℤ} {coin : Coin} :
    newCoin denom amount = .ok coin ↔ 0 ≤ amount ∧ ⟨denom, amount⟩ = coin := by
  unfold newCoin
  split <;> simp_all

namespace Coin

/-- `Coin.String` -/
def toString (coin : Coin) : String := s!"{coin.amount}{coin.denom}"

instance : ToString Coin := ⟨toString⟩

/-- Binary operations reject coins of two denominations. -/
def sameDenom (left right : Coin) : Except Fault Unit :=
  Except.require (left.denom = right.denom)
    (.panic s!"invalid coin denominations; {left.denom}, {right.denom}")

def add (left right : Coin) : Except Fault Coin := do
  sameDenom left right
  pure ⟨left.denom, left.amount + right.amount⟩

def sub (left right : Coin) : Except Fault Coin := do
  sameDenom left right
  Except.require (0 ≤ left.amount - right.amount) (.panic "negative coin amount")
  pure ⟨left.denom, left.amount - right.amount⟩

/-- `AddAmount`: no check on the result. -/
def addAmount (coin : Coin) (amount : ℤ) : Coin := ⟨coin.denom, coin.amount + amount⟩

/-- `IsLT` -/
def isLT (left right : Coin) : Except Fault Bool := do
  sameDenom left right
  pure (decide (left.amount < right.amount))

@[simp] theorem addAmount_denom (coin : Coin) (amount : ℤ) : (coin.addAmount amount).denom = coin.denom := rfl
@[simp] theorem addAmount_amount (coin : Coin) (amount : ℤ) :
    (coin.addAmount amount).amount = coin.amount + amount := rfl

@[simp]
theorem addAmount_addAmount (coin : Coin) (first second : ℤ) :
    (coin.addAmount first).addAmount second = coin.addAmount (first + second) := by
  simp [addAmount, add_assoc]

@[simp] theorem addAmount_zero (coin : Coin) : coin.addAmount 0 = coin := by simp [addAmount]

@[simp]
theorem add_ok_iff {left right sum : Coin} :
    left.add right = .ok sum ↔ left.denom = right.denom ∧ left.addAmount right.amount = sum := by
  simp [add, sameDenom, addAmount]

@[simp]
theorem sub_ok_iff {left right difference : Coin} :
    left.sub right = .ok difference ↔
      left.denom = right.denom ∧ right.amount ≤ left.amount ∧
        left.addAmount (-right.amount) = difference := by
  simp [sub, sameDenom, addAmount, Int.sub_eq_add_neg]

@[simp]
theorem isLT_ok_iff {left right : Coin} {less : Bool} :
    left.isLT right = .ok less ↔ left.denom = right.denom ∧ decide (left.amount < right.amount) = less := by
  simp [isLT, sameDenom]

end Coin

/-- An amount that counts for one denomination only. -/
def onDenom (denom : Denom) (amount : ℤ) (query : Denom) : ℤ := if denom = query then amount else 0

@[simp] theorem onDenom_self (denom : Denom) (amount : ℤ) : onDenom denom amount denom = amount := if_pos rfl
@[simp] theorem onDenom_zero (denom query : Denom) : onDenom denom 0 query = 0 := ite_self 0

theorem onDenom_of_ne {denom query : Denom} (other : denom ≠ query) (amount : ℤ) :
    onDenom denom amount query = 0 := if_neg other

theorem onDenom_add (denom : Denom) (left right : ℤ) (query : Denom) :
    onDenom denom (left + right) query = onDenom denom left query + onDenom denom right query := by
  unfold onDenom
  split <;> simp

theorem onDenom_neg (denom : Denom) (amount : ℤ) (query : Denom) :
    onDenom denom (-amount) query = -onDenom denom amount query := by
  unfold onDenom
  split <;> simp

theorem onDenom_nonneg (denom : Denom) {amount : ℤ} (nonneg : 0 ≤ amount) (query : Denom) :
    0 ≤ onDenom denom amount query := by
  unfold onDenom
  split <;> omega

theorem onDenom_le (denom : Denom) {low high : ℤ} (ordered : low ≤ high) (query : Denom) :
    onDenom denom low query ≤ onDenom denom high query := by
  unfold onDenom
  split <;> omega

/-- The amount of one denomination in a list of coins. -/
def amountOf (coins : List Coin) (denom : Denom) : ℤ :=
  (coins.map fun coin => onDenom coin.denom coin.amount denom).sum

@[simp] theorem amountOf_nil (denom : Denom) : amountOf [] denom = 0 := rfl

@[simp]
theorem amountOf_cons (coin : Coin) (coins : List Coin) (denom : Denom) :
    amountOf (coin :: coins) denom = onDenom coin.denom coin.amount denom + amountOf coins denom := by
  simp [amountOf]

/-- The amounts of listed coins and of sums, as one set for `simp only`. -/
theorem coin_amounts : (∀ denom, amountOf [] denom = 0) ∧
    (∀ coin coins denom, amountOf (coin :: coins) denom = onDenom coin.denom coin.amount denom + amountOf coins denom) ∧
    (∀ denom left right query, onDenom denom (left + right) query = onDenom denom left query + onDenom denom right query) ∧
    (∀ denom left right query, onDenom denom (left - right) query = onDenom denom left query - onDenom denom right query) ∧
    ∀ denom amount query, onDenom denom (-amount) query = -onDenom denom amount query := by
  refine ⟨amountOf_nil, amountOf_cons, onDenom_add, fun denom left right query => ?_, onDenom_neg⟩
  rw [sub_eq_add_neg, onDenom_add, onDenom_neg, ← sub_eq_add_neg]

theorem amountOf_nonneg {coins : List Coin} (nonnegative : ∀ coin ∈ coins, 0 ≤ coin.amount) (denom : Denom) :
    0 ≤ amountOf coins denom := by
  induction coins with
  | nil => simp
  | cons coin rest ih =>
    obtain ⟨head, tail⟩ := List.forall_mem_cons.mp nonnegative
    rw [amountOf_cons]
    exact add_nonneg (onDenom_nonneg coin.denom head denom) (ih tail)

/-- `Coins.IsValid`: positive amounts, strictly increasing denominations. -/
def validCoins (coins : List Coin) : Prop :=
  (∀ coin ∈ coins, 0 < coin.amount) ∧ (coins.map Coin.denom).Pairwise (· < ·)

instance (coins : List Coin) : Decidable (validCoins coins) := inferInstanceAs (Decidable (_ ∧ _))

/-- Drop the zero coins and sort the rest by denomination. -/
def sanitizeCoins (coins : List Coin) : List Coin :=
  (coins.filter fun coin => coin.amount ≠ 0).insertionSort fun left right => left.denom ≤ right.denom

def newCoins (coins : List Coin) : Except Fault (List Coin) :=
  if validCoins (sanitizeCoins coins) then .ok (sanitizeCoins coins) else .error (.panic "invalid coins")

theorem amountOf_sanitizeCoins (coins : List Coin) (denom : Denom) :
    amountOf (sanitizeCoins coins) denom = amountOf coins denom := by
  have sorted : (sanitizeCoins coins).Perm (coins.filter fun coin => coin.amount ≠ 0) :=
    List.perm_insertionSort _ _
  have dropped : amountOf (coins.filter fun coin => coin.amount ≠ 0) denom = amountOf coins denom := by
    induction coins with
    | nil => rfl
    | cons coin rest ih =>
      have restEq := ih (List.perm_insertionSort _ _)
      by_cases zero : coin.amount = 0
      · rw [List.filter_cons_of_neg (by simpa using zero), restEq]
        simp [zero]
      · rw [List.filter_cons_of_pos (by simpa using zero), amountOf_cons, amountOf_cons, restEq]
  rw [← dropped]
  exact (sorted.map _).sum_eq

/-- A built coin set has the amounts it was built from, and none of them was negative. -/
theorem newCoins_ok {coins built : List Coin} (ok : newCoins coins = .ok built) :
    validCoins built ∧ (∀ denom, amountOf built denom = amountOf coins denom) ∧
      ∀ coin ∈ coins, 0 ≤ coin.amount := by
  unfold newCoins at ok
  split at ok
  · next valid =>
    cases ok
    refine ⟨valid, amountOf_sanitizeCoins coins, fun coin member => ?_⟩
    by_cases zero : coin.amount = 0
    · exact zero.ge
    · have kept : coin ∈ sanitizeCoins coins :=
        (List.perm_insertionSort _ _).mem_iff.mpr (List.mem_filter.mpr ⟨member, by simpa using zero⟩)
      exact (valid.1 coin kept).le
  · cases ok

end Rotofury.Model.Sdk
