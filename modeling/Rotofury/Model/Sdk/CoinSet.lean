import Rotofury.Model.Sdk.Coin

/-! # Adding to a coin set

`Coins.Add` merges a coin into a set that is sorted by denomination; sums and coins of zero are dropped.
-/

namespace Rotofury.Model.Sdk

/-- `Coins.Add` of one coin. -/
def insertCoin : List Coin → Coin → List Coin
  | [], coin => if coin.amount = 0 then [] else [coin]
  | first :: rest, coin =>
    if first.denom < coin.denom then first :: insertCoin rest coin
    else if first.denom = coin.denom then
      if first.amount + coin.amount = 0 then rest else ⟨first.denom, first.amount + coin.amount⟩ :: rest
    else if coin.amount = 0 then first :: rest
    else coin :: first :: rest

/-- `Coins.Add` of several coins. -/
def insertCoins (set coins : List Coin) : List Coin := coins.foldl insertCoin set

theorem amountOf_insertCoin (set : List Coin) (coin : Coin) (denom : Denom) :
    amountOf (insertCoin set coin) denom = amountOf set denom + onDenom coin.denom coin.amount denom := by
  induction set with
  | nil =>
    unfold insertCoin
    split
    · next zero => simp [zero]
    · simp
  | cons first rest ih =>
    unfold insertCoin
    split
    · rw [amountOf_cons, amountOf_cons, ih]
      ring
    · split
      · next same =>
        split
        · next zero =>
          have cancel : onDenom first.denom first.amount denom + onDenom coin.denom coin.amount denom = 0 := by
            rw [← same, ← onDenom_add, zero, onDenom_zero]
          rw [amountOf_cons]
          omega
        · rw [amountOf_cons, amountOf_cons, onDenom_add, same]
          ring
      · split
        · next zero => simp [zero]
        · rw [amountOf_cons, add_comm]

theorem amountOf_insertCoins (set coins : List Coin) (denom : Denom) :
    amountOf (insertCoins set coins) denom = amountOf set denom + amountOf coins denom := by
  induction coins generalizing set with
  | nil => simp [insertCoins]
  | cons coin rest ih =>
    have step := ih (insertCoin set coin)
    rw [insertCoins, List.foldl_cons, ← insertCoins, step, amountOf_insertCoin, amountOf_cons, add_assoc]

/-- No new denominations but the added coin's. -/
theorem denom_of_mem_insertCoin {set : List Coin} {coin other : Coin} (member : other ∈ insertCoin set coin) :
    other.denom = coin.denom ∨ ∃ old ∈ set, old.denom = other.denom := by
  induction set with
  | nil =>
    unfold insertCoin at member
    split at member
    · simp at member
    · rw [List.mem_singleton.mp member]
      exact .inl rfl
  | cons first rest ih =>
    have ofOld : ∀ old ∈ first :: rest, old.denom = coin.denom ∨ ∃ kept ∈ first :: rest, kept.denom = old.denom :=
      fun old isOld => .inr ⟨old, isOld, rfl⟩
    unfold insertCoin at member
    split at member
    · rcases List.mem_cons.mp member with rfl | later
      · exact ofOld other List.mem_cons_self
      · rcases ih later with new | ⟨old, isOld, same⟩
        · exact .inl new
        · exact .inr ⟨old, List.mem_cons_of_mem first isOld, same⟩
    · split at member
      · split at member
        · exact ofOld other (List.mem_cons_of_mem first member)
        · rcases List.mem_cons.mp member with rfl | later
          · exact .inr ⟨first, List.mem_cons_self, rfl⟩
          · exact ofOld other (List.mem_cons_of_mem first later)
      · split at member
        · exact ofOld other member
        · rcases List.mem_cons.mp member with rfl | later
          · exact .inl rfl
          · exact ofOld other later

theorem insertCoin_nonneg {set : List Coin} {coin : Coin} (nonneg : ∀ old ∈ set, 0 ≤ old.amount)
    (coinNonneg : 0 ≤ coin.amount) : ∀ other ∈ insertCoin set coin, 0 ≤ other.amount := by
  induction set with
  | nil =>
    unfold insertCoin
    split
    · simp
    · simpa using coinNonneg
  | cons first rest ih =>
    obtain ⟨head, tail⟩ := List.forall_mem_cons.mp nonneg
    unfold insertCoin
    split
    · exact List.forall_mem_cons.mpr ⟨head, ih tail⟩
    · split
      · split
        · exact tail
        · exact List.forall_mem_cons.mpr ⟨add_nonneg head coinNonneg, tail⟩
      · split
        · exact nonneg
        · exact List.forall_mem_cons.mpr ⟨coinNonneg, nonneg⟩

end Rotofury.Model.Sdk
